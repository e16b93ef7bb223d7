import Mathlib.Data.List.Forall2
import Mustache.Proofs.Layers

/-!
What a value answers is told by its parts. Of two values that are equal but for their parts
the answers are equal but for these parts.
-/

namespace Mustache

inductive SameOpening (rel : Value → Value → Prop) : Opening → Opening → Prop
  | closed : SameOpening rel .closed .closed
  | opens {a b : Value} : rel a b → SameOpening rel (.opens a) (.opens b)
  | counts (slot : Slot) : SameOpening rel (.counts slot) (.counts slot)
  | fails (error : HostError) : SameOpening rel (.fails error) (.fails error)

inductive SameEntry (rel : Value → Value → Prop) : Entry → Entry → Prop
  | found {a b : Value} : rel a b → SameEntry rel (.found a) (.found b)
  | absent : SameEntry rel .absent .absent
  | made (slot : Slot) {a b : Value} : rel a b → SameEntry rel (.made slot a) (.made slot b)
  | fails (error : HostError) : SameEntry rel (.fails error) (.fails error)

/-- What two objects have under a name. What is called is the same function in both, but for
what it returns, or it is itself a layer around what the other object has. -/
inductive SameHeld (rel : Value → Value → Prop) : Option Held → Option Held → Prop
  | none : SameHeld rel none none
  | routine (call : Call) {result result' : Value} : rel result result' →
      SameHeld rel (some (.routine call result)) (some (.routine call result'))
  | computed (call : Call) {result result' : Value} : rel result result' →
      SameHeld rel (some (.computed call result)) (some (.computed call result'))
  | plain {a b : Value} : rel a b → SameHeld rel (some (.plain a)) (some (.plain b))
  | layer (call : Call) {a result : Value} :
      (∀ call' result', a ≠ .function call' result') → rel a (.function call result) →
      SameHeld rel (some (.plain a)) (some (.routine call result))

abbrev Alongside {κ α β : Type} (rel : α → β → Prop) : List (κ × α) → List (κ × β) → Prop :=
  List.Forall₂ fun x y => x.1 = y.1 ∧ rel x.2 y.2

section Alongside
variable {α β : Type} {rel : α → β → Prop}

theorem set_entry_alongside (key : Value) {v : α} {w : β} (put : rel v w)
    {xs : List (Value × α)} {ys : List (Value × β)} (same : Alongside rel xs ys) :
    Alongside rel (Value.setEntry key v xs) (Value.setEntry key w ys) := by
  induction same with
  | nil => exact .cons ⟨rfl, put⟩ .nil
  | @cons x y xs ys head tail ih =>
      obtain ⟨name, before⟩ := x
      obtain ⟨name', after⟩ := y
      obtain ⟨rfl, kept⟩ : name = name' ∧ rel before after := head
      simp only [Value.setEntry]
      split
      · exact .cons ⟨rfl, put⟩ tail
      · exact .cons ⟨rfl, kept⟩ ih

theorem change_alongside {made : Text → α} {made' : Text → β} {stored : Text → Text → α}
    {stored' : Text → Text → β} (fresh : ∀ key, rel (made key) (made' key))
    (put : ∀ key text, rel (stored key text) (stored' key text)) (change : Change)
    {xs : List (Value × α)} {ys : List (Value × β)} (same : Alongside rel xs ys) :
    Alongside rel (change.apply made stored xs) (change.apply made' stored' ys) := by
  cases change with
  | fill key => exact set_entry_alongside (.str key) (fresh key) same
  | set key text => exact set_entry_alongside (.str key) (put key text) same
  | erase key =>
      apply List.rel_filter _ same
      intro x y related
      simp only [related.1]

theorem changes_alongside {made : Nat → Text → α} {made' : Nat → Text → β}
    {stored : Text → Text → α} {stored' : Text → Text → β}
    (fresh : ∀ index key, rel (made index key) (made' index key))
    (put : ∀ key text, rel (stored key text) (stored' key text)) (changes : List Change)
    (index : Nat) {xs : List (Value × α)} {ys : List (Value × β)} (same : Alongside rel xs ys) :
    Alongside rel (Change.applyAll made stored index changes xs)
      (Change.applyAll made' stored' index changes ys) := by
  induction changes generalizing index xs ys with
  | nil => exact same
  | cons change rest ih => exact ih (index + 1) (change_alongside (fresh index) put change same)

theorem find_alongside (name : Text) {xs : List (Value × α)} {ys : List (Value × β)}
    (same : Alongside rel xs ys) :
    Option.Rel rel (Value.find? name xs) (Value.find? name ys) := by
  induction same with
  | nil => exact .none
  | @cons x y xs ys head tail ih =>
      obtain ⟨key, before⟩ := x
      obtain ⟨key', after⟩ := y
      obtain ⟨rfl, related⟩ : key = key' ∧ rel before after := head
      cases key with
      | str key =>
          simp only [Value.find?]
          split
          · exact .some related
          · exact ih
      | _ => exact ih

theorem field_alongside {rel : Value → Value → Prop} (name : Text) {xs ys : List (Text × Value)}
    (same : Alongside rel xs ys) :
    Option.Rel rel (Value.field? name xs) (Value.field? name ys) := by
  unfold Value.field?
  induction same with
  | nil => exact .none
  | @cons x y xs ys head tail ih =>
      rw [List.find?_cons, List.find?_cons, head.1]
      split
      · exact .some head.2
      · exact ih

end Alongside

theorem forall_of_pairs {α β γ : Type} {rel : α → β → Prop} {before : γ → α} {after : γ → β}
    {pairs : List γ} (each : ∀ pair ∈ pairs, rel (before pair) (after pair)) :
    List.Forall₂ rel (pairs.map before) (pairs.map after) := by
  apply List.forall₂_map_left_iff.mpr
  apply List.forall₂_map_right_iff.mpr
  exact List.forall₂_same.mpr each

theorem alongside_of_pairs {κ α β γ : Type} {rel : α → β → Prop} (name : γ → κ) {before : γ → α}
    {after : γ → β} {pairs : List γ} (each : ∀ pair ∈ pairs, rel (before pair) (after pair)) :
    Alongside rel (pairs.map fun pair => (name pair, before pair))
      (pairs.map fun pair => (name pair, after pair)) :=
  forall_of_pairs fun pair member => ⟨rfl, each pair member⟩

namespace MemberPair

def name : MemberPair → Text
  | .read name _ _ _ | .called name _ _ _ _ => name

def access : MemberPair → Access
  | .read _ access _ _ | .called _ access _ _ _ => access

theorem left_named (member : MemberPair) :
    member.left.1 = member.name ∧ member.left.2.1 = member.access := by
  cases member <;> exact ⟨rfl, rfl⟩

theorem right_named (member : MemberPair) :
    member.right.1 = member.name ∧ member.right.2.1 = member.access := by
  cases member <;> exact ⟨rfl, rfl⟩

theorem find_left (members : List MemberPair) (test : Text → Access → Bool) :
    (members.map (·.left)).find? (fun member => test member.1 member.2.1) =
      (members.find? fun member => test member.name member.access).map (·.left) := by
  rw [List.find?_map]
  congr 2
  funext member
  simp only [Function.comp, left_named]

theorem find_right (members : List MemberPair) (test : Text → Access → Bool) :
    (members.map (·.right)).find? (fun member => test member.1 member.2.1) =
      (members.find? fun member => test member.name member.access).map (·.right) := by
  rw [List.find?_map]
  congr 2
  funext member
  simp only [Function.comp, right_named]

end MemberPair

section Congruent
variable {rel : Value → Value → Prop} {a b : Value}

theorem congruent_lineage (congruent : Congruent rel a b) : b.lineage = a.lineage := by
  cases congruent with
  | sequence shape items each => cases shape <;> rfl
  | mapping shape address entries each => cases shape <;> rfl
  | wrapped layer exposed each inside => cases layer <;> rfl
  | _ => rfl

theorem congruent_type (congruent : Congruent rel a b) : b.fullTypeName = a.fullTypeName := by
  cases congruent with
  | sequence shape items each => cases shape <;> rfl
  | mapping shape address entries each => cases shape <;> rfl
  | wrapped layer exposed each inside => cases layer <;> rfl
  | _ => rfl

theorem congruent_absent (congruent : Congruent rel a b) :
    b.isNull = a.isNull ∧ b.isMissing = a.isMissing := by
  cases congruent <;> exact ⟨rfl, rfl⟩

theorem congruent_error (congruent : Congruent rel a b) (before after : String) :
    b.typeError before after = a.typeError before after := by
  rw [Value.typeError, Value.typeError, congruent_type congruent]

theorem congruent_not_keyed (congruent : Congruent rel a b) : b.notKeyed = a.notKeyed := by
  cases congruent with
  | sequence shape items each => cases shape <;> rfl
  | mapping shape address entries each => cases shape <;> rfl
  | wrapped layer exposed each inside => cases layer <;> rfl
  | _ => rfl

theorem any_dynamic (members : List MemberPair) :
    ((members.map (·.right)).any fun member => decide (member.2.1 = .dynamic)) =
      (members.map (·.left)).any fun member => decide (member.2.1 = .dynamic) := by
  simp only [List.any_map, Function.comp_def, MemberPair.left_named, MemberPair.right_named]

theorem congruent_no_attribute (congruent : Congruent rel a b) (name : Text) :
    b.noAttribute name = a.noAttribute name := by
  cases congruent with
  | object look members fits each =>
      simp only [Value.noAttribute, any_dynamic]
      rfl
  | sequence shape items each => cases shape <;> rfl
  | mapping shape address entries each => cases shape <;> rfl
  | wrapped layer exposed each inside => cases layer <;> rfl
  | _ => rfl

end Congruent

/-! What layered data answers. -/

section Answers
variable {adapterOf : Value → Adapter} {a b : Value}

theorem layered_call_opening (call : Call) {result result' : Value}
    (returned : Layered adapterOf result result') :
    SameOpening (Layered adapterOf) (call.opening result) (call.opening result') := by
  unfold Call.opening
  cases call.act with
  | returns => exact .opens returned
  | raises error => exact .fails error
  | counts address => exact .counts _

namespace MemberPair

theorem whole_layered {member : MemberPair}
    (inside : Layered adapterOf member.before member.after) :
    Layered adapterOf member.left.2.2 member.right.2.2 := by
  cases member with
  | read name access before after => exact inside
  | called name access call before after => exact .core (.function call inside)

theorem held_same (held : Held) : SameHeld (Layered adapterOf) (some held) (some held) := by
  cases held with
  | routine call result => exact .routine call (layered_same result)
  | computed call result => exact .computed call (layered_same result)
  | plain v => exact .plain (layered_same v)

theorem held_read {name : Text} {access : Access} {before after : Value}
    (fits : (MemberPair.read name access before after).Fits)
    (related : Layered adapterOf before after) :
    SameHeld (Layered adapterOf) (some (access.holds before)) (some (access.holds after)) := by
  by_cases runs : access = .computed ∨
      (access ≠ .dynamic ∧ ∃ call result, before = .function call result)
  · cases fits runs
    exact held_same _
  · obtain ⟨not_computed, no_routine⟩ := not_or.mp runs
    cases access with
    | computed => exact absurd rfl not_computed
    | dynamic => exact .plain related
    | field | shared =>
        have data (call : Call) (result : Value) : before ≠ .function call result :=
          fun same => no_routine ⟨Access.noConfusion, call, result, same⟩
        rw [Access.holds_data _ data]
        -- What stands around the one value may be a function, which is called then.
        rcases after.function_or_data with ⟨call, result, rfl⟩ | other
        · exact .layer call data related
        · rw [Access.holds_data _ other]
          exact .plain related

theorem find_held (name : Text) (members : List MemberPair)
    (fits : ∀ member ∈ members, member.Fits)
    (each : ∀ member ∈ members, Layered adapterOf member.before member.after) :
    SameHeld (Layered adapterOf) (Value.held? name (members.map (·.left)))
      (Value.held? name (members.map (·.right))) := by
  have left := find_left members fun first access => first = name && access != .dynamic
  have right := find_right members fun first access => first = name && access != .dynamic
  unfold Value.held? Value.member?
  rw [left, right]
  cases found : members.find? fun member =>
      decide (member.name = name) && member.access != .dynamic with
  | none => exact .none
  | some member =>
      have present := List.mem_of_find?_eq_some found
      have related := each member present
      cases member with
      | read first access before after => exact held_read (fits _ present) related
      | called first access call before after =>
          cases access with
          | field | shared => exact .routine call related
          | computed => exact .computed call related
          | dynamic => exact .plain (.core (.function call related))

theorem find_dynamic (name : Text) (members : List MemberPair)
    (each : ∀ member ∈ members, Layered adapterOf member.before member.after) :
    Option.Rel (Layered adapterOf) (Value.dynamicMember? name (members.map (·.left)))
      (Value.dynamicMember? name (members.map (·.right))) := by
  have left := find_left members fun first access => first = name && access == .dynamic
  have right := find_right members fun first access => first = name && access == .dynamic
  unfold Value.dynamicMember?
  rw [left, right]
  cases found : members.find? fun member =>
      decide (member.name = name) && member.access == .dynamic with
  | none => exact .none
  | some member => exact .some (whole_layered (each member (List.mem_of_find?_eq_some found)))

end MemberPair

theorem layered_dynamic_content (look : Look) (members : List MemberPair)
    (fits : ∀ member ∈ members, member.Fits)
    (each : ∀ member ∈ members, Layered adapterOf member.before member.after) :
    SameOpening (Layered adapterOf)
      (Value.dynamicContent (.object look (members.map (·.left))) (members.map (·.left)))
      (Value.dynamicContent (.object look (members.map (·.right))) (members.map (·.right))) := by
  have lacks := congruent_no_attribute (Congruent.object look members fits each) Value.contentName
  have same := MemberPair.find_dynamic Value.contentName members each
  unfold Value.dynamicContent
  rw [lacks]
  generalize Value.dynamicMember? Value.contentName (members.map (·.left)) = left,
    Value.dynamicMember? Value.contentName (members.map (·.right)) = right at same ⊢
  cases same with
  | none => exact .fails _
  | some related => exact .opens related

theorem layered_object_content (look : Look) (members : List MemberPair)
    (fits : ∀ member ∈ members, member.Fits)
    (each : ∀ member ∈ members, Layered adapterOf member.before member.after) :
    SameOpening (Layered adapterOf) (Value.object look (members.map (·.left))).content
      (Value.object look (members.map (·.right))).content := by
  have dynamic := layered_dynamic_content look members fits each
  have same := MemberPair.find_held Value.contentName members fits each
  simp only [Value.content, any_dynamic]
  generalize Value.held? Value.contentName (members.map (·.left)) = left,
    Value.held? Value.contentName (members.map (·.right)) = right at same ⊢
  cases same with
  | none => exact dynamic
  | routine call related => exact .opens (.core (.function call related))
  | plain related | layer _ _ related => exact .opens related
  | computed call related =>
      dsimp only
      split
      · split
        · exact dynamic
        · exact .fails _
      · exact layered_call_opening call related

theorem same_opening_refl (opening : Opening) :
    SameOpening (Layered adapterOf) opening opening := by
  cases opening with
  | closed => exact .closed
  | opens inner => exact .opens (layered_same inner)
  | counts slot => exact .counts slot
  | fails error => exact .fails error

theorem layered_content (congruent : Congruent (Layered adapterOf) a b) :
    SameOpening (Layered adapterOf) a.content b.content := by
  have fails : SameOpening (Layered adapterOf) (.fails (a.noAttribute Value.contentName))
      (.fails (b.noAttribute Value.contentName)) := by
    rw [congruent_no_attribute congruent]
    exact .fails _
  cases congruent with
  | same => exact same_opening_refl _
  | namedTuple className fields each =>
      have same := field_alongside Value.contentName (alongside_of_pairs Prod.fst each)
      simp only [Value.content]
      generalize
        Value.field? Value.contentName (fields.map fun field => (field.1, field.2.1)) = left,
        Value.field? Value.contentName (fields.map fun field => (field.1, field.2.2)) = right
          at same ⊢
      cases same with
      | none => exact fails
      | some related => exact .opens related
  | object look members fits each => exact layered_object_content look members fits each
  | wrapped layer exposed each inside =>
      cases layer with
      | reference => exact fails
      | box | subBox | loudBox => exact .opens inside
  | sequence | mapping | filling | function | reversedList => exact fails

theorem layered_opening (adapter : Adapter) (congruent : Congruent (Layered adapterOf) a b) :
    SameOpening (Layered adapterOf) (adapter.opening a) (adapter.opening b) := by
  have fails : SameOpening (Layered adapterOf) (.fails a.notCallable) (.fails b.notCallable) := by
    have same := congruent_error congruent "'" "' object is not callable"
    unfold Value.notCallable
    rw [same]
    exact .fails _
  cases adapter with
  | box | loud => exact layered_content congruent
  | reference =>
      cases congruent with
      | same => exact same_opening_refl _
      | function call returned =>
          simp only [Adapter.opening]
          split
          · exact .fails _
          · exact layered_call_opening call returned
      | wrapped layer exposed each inside =>
          cases layer with
          | reference => exact .opens inside
          | box | subBox | loudBox => exact fails
      | sequence | mapping | filling | namedTuple | object | reversedList => exact fails
  | base | scalar | sequence | mapping | object | reversed | once | label => exact .closed

end Answers
end Mustache
