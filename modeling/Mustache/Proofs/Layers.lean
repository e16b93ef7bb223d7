import Mustache.Proofs.Matching
import Mustache.Registry

/-!
Data with layers put around some of the values in it. A layer shows what is inside and
answers no name itself. Apart from its layers the data is the same: it has the same parts at
the same places, and what is read from one is read from the other, up to layers.
-/

namespace Mustache

inductive MemberPair where
  | read (name : Text) (access : Access) (before after : Value)
  | called (name : Text) (access : Access) (call : Call) (before after : Value)

namespace MemberPair

def before : MemberPair → Value
  | .read _ _ before _ | .called _ _ _ before _ => before

def after : MemberPair → Value
  | .read _ _ _ after | .called _ _ _ _ after => after

def left : MemberPair → Text × Access × Value
  | .read name access before _ => (name, access, before)
  | .called name access call before _ => (name, access, .function call before)

def right : MemberPair → Text × Access × Value
  | .read name access _ after => (name, access, after)
  | .called name access call _ after => (name, access, .function call after)

/-- Nothing is put around the function of a routine or of a computed member itself, which would
not be called then. -/
def Fits : MemberPair → Prop
  | .read _ access before after =>
      access = .computed ∨ (access ≠ .dynamic ∧ ∃ call result, before = .function call result) →
        before = after
  | .called _ _ _ _ _ => True

end MemberPair

inductive Congruent (rel : Value → Value → Prop) : Value → Value → Prop
  | same (v : Value) : Congruent rel v v
  | sequence (shape : SequenceShape) (items : List (Value × Value)) :
      (∀ item ∈ items, rel item.1 item.2) →
      Congruent rel (.sequence shape (items.map (·.1))) (.sequence shape (items.map (·.2)))
  | mapping (shape : MappingShape) (address : Option Address)
      (entries : List (Value × Value × Value)) :
      (∀ entry ∈ entries, rel entry.2.1 entry.2.2) →
      Congruent rel (.mapping shape address (entries.map fun entry => (entry.1, entry.2.1)))
        (.mapping shape address (entries.map fun entry => (entry.1, entry.2.2)))
  | filling (address : Address) (entries : List (Value × Value × Value)) {fill fill' : Value} :
      (∀ entry ∈ entries, rel entry.2.1 entry.2.2) → rel fill fill' →
      Congruent rel (.filling address (entries.map fun entry => (entry.1, entry.2.1)) fill)
        (.filling address (entries.map fun entry => (entry.1, entry.2.2)) fill')
  | namedTuple (className : Text) (fields : List (Text × Value × Value)) :
      (∀ field ∈ fields, rel field.2.1 field.2.2) →
      Congruent rel (.namedTuple className (fields.map fun field => (field.1, field.2.1)))
        (.namedTuple className (fields.map fun field => (field.1, field.2.2)))
  | object (look : Look) (members : List MemberPair) :
      (∀ member ∈ members, member.Fits) → (∀ member ∈ members, rel member.before member.after) →
      Congruent rel (.object look (members.map (·.left))) (.object look (members.map (·.right)))
  | function (call : Call) {result result' : Value} : rel result result' →
      Congruent rel (.function call result) (.function call result')
  | wrapped (layer : Layer) (exposed : List (Text × Value × Value)) {inner inner' : Value} :
      (∀ field ∈ exposed, rel field.2.1 field.2.2) → rel inner inner' →
      Congruent rel (.wrapped layer (exposed.map fun field => (field.1, field.2.1)) inner)
        (.wrapped layer (exposed.map fun field => (field.1, field.2.2)) inner')
  | reversedList (text : Text) (items : List (Value × Value)) :
      (∀ item ∈ items, rel item.1 item.2) →
      Congruent rel (.reversedList text (items.map (·.1))) (.reversedList text (items.map (·.2)))

section Layered
variable (adapterOf : Value → Adapter)

/-- A layer around `inner` that does nothing but show it. -/
structure LayerOver (layer inner : Value) : Prop where
  opens : (adapterOf layer).opening layer = .opens inner
  silent : ∀ name, (adapterOf layer).invoke layer name = pure .missing

/-- The second value is the first one with any number of layers around any of the values
found in it, itself included. -/
inductive Layered : Value → Value → Prop
  | core {a b : Value} : Congruent Layered a b → Layered a b
  | layer {a inner layer : Value} : LayerOver adapterOf layer inner → a ≠ .missing →
      Layered a inner → Layered a layer

variable {adapterOf}

/-- Induction on layers and, below them, on the parts of a value. -/
theorem layered_induct {motive : Value → Value → Prop}
    (core : ∀ a b, Congruent (fun x y => Layered adapterOf x y ∧ motive x y) a b → motive a b)
    (layer : ∀ a inner layer, LayerOver adapterOf layer inner → a ≠ .missing →
      Layered adapterOf a inner → motive a inner → motive a layer)
    {a b : Value} (layered : Layered adapterOf a b) : motive a b := by
  refine @Layered.rec adapterOf (fun a b _ => motive a b)
    (fun a b _ => Congruent (fun x y => Layered adapterOf x y ∧ motive x y) a b)
    (fun _ within => core _ _ within) (fun covers found inside => layer _ _ _ covers found inside)
    (fun v => .same v) ?_ ?_ ?_ ?_ ?_ ?_ ?_ ?_ a b layered
  · intro shape items each ih
    exact .sequence shape items fun item m => ⟨each item m, ih item m⟩
  · intro shape address entries each ih
    exact .mapping shape address entries fun entry m => ⟨each entry m, ih entry m⟩
  · intro address entries fill fill' each made ih made_ih
    exact .filling address entries (fun entry m => ⟨each entry m, ih entry m⟩) ⟨made, made_ih⟩
  · intro className fields each ih
    exact .namedTuple className fields fun field m => ⟨each field m, ih field m⟩
  · intro look members fits each ih
    exact .object look members fits fun member m => ⟨each member m, ih member m⟩
  · intro call result result' returned ih
    exact .function call ⟨returned, ih⟩
  · intro layer exposed inner inner' each inside ih inside_ih
    exact .wrapped layer exposed (fun field m => ⟨each field m, ih field m⟩) ⟨inside, inside_ih⟩
  · intro text items each ih
    exact .reversedList text items fun item m => ⟨each item m, ih item m⟩

theorem layered_same (v : Value) : Layered adapterOf v v := .core (.same v)

theorem layer_not_absent {layer inner : Value} (covers : LayerOver adapterOf layer inner) :
    layer.isAbsent = false := by
  have opens := covers.opens
  generalize adapterOf layer = adapter at opens
  cases layer with
  | null | missing => cases adapter <;> cases opens
  | _ => rfl

end Layered
end Mustache
