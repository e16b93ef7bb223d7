import Mustache.Member

/-!
How the engine reads a value. An adapter says of a value what kind it is, whether
it is empty, what it holds under a name, what it repeats over and whether it is a
layer around another value.

The engine has the first six; the others stand for what a host may register. Left out are
adapters that run code of their own.
-/

namespace Mustache

inductive ValueKind where
  | scalar
  | list
  | record
  deriving DecidableEq

inductive Adapter where
  | base
  | scalar
  | sequence
  | mapping
  | object
  | reference
  | box
  | loud
  | reversed
  | once
  /-- As `base`, under a name of its own. -/
  | label (name : Text)
  deriving DecidableEq

namespace Adapter

def kind : Adapter → ValueKind
  | .sequence | .reversed | .once => .list
  | .mapping | .object => .record
  | .base | .scalar | .reference | .box | .loud | .label _ => .scalar

def invoke (adapter : Adapter) (v : Value) (name : Text) : Eval Value :=
  match adapter, v with
  | .object, v => v.invoke name
  | .loud, .wrapped _ exposed _ => return (Value.field? name exposed).getD .missing
  | _, _ => return .missing

def getField (adapter : Adapter) (v : Value) (name : Text) : Eval Value :=
  match adapter with
  | .object => v.attributeOf name
  | _ => return .missing

def getKey (adapter : Adapter) (v : Value) (name : Text) : Eval Value :=
  match adapter with
  | .mapping => v.entry name
  | _ => return .missing

def opening (adapter : Adapter) (v : Value) : Opening :=
  match adapter, v with
  | .reference, .wrapped .reference _ inner => .opens inner
  | .reference, .function call result =>
      if call.needsArguments then .fails ⟨.type, "missing a required argument".toList⟩
      else call.opening result
  | .reference, v => .fails v.notCallable
  | .box, v | .loud, v => v.content
  | _, _ => .closed

def unwrap (adapter : Adapter) (v : Value) : Eval Value := (adapter.opening v).take v

def hasNoLength (v : Value) : Eval Bool := do
  match (← get).length? v with
  | some length => return length = 0
  | none => throw (.host v.noLength)

def isEmpty (adapter : Adapter) (v : Value) : Eval Bool := do
  match adapter, v with
  | .scalar, .str text => return text.trim = []
  | .sequence, v | .mapping, v => hasNoLength v
  | .reversed, .reversedList _ items => return items.isEmpty
  | _, v => return !(← get).isTrue v

def iterate (adapter : Adapter) (v : Value) : Eval (List Value) := do
  match adapter, v with
  | .sequence, v =>
      match (← get).elements? v with
      | some items => return items
      | none => throw (.host v.notIterable)
  | .reversed, .reversedList _ items => return items.reverse
  | _, v => return [v]

end Adapter

theorem Adapter.size_opening {adapter : Adapter} {v inner : Value}
    (opens : adapter.opening v = .opens inner) : sizeOf inner < sizeOf v := by
  unfold Adapter.opening at opens
  split at opens
  · cases opens
    simp only [Value.wrapped.sizeOf_spec]
    omega
  · split at opens
    · cases opens
    · cases Call.result_of_opening opens
      simp only [Value.function.sizeOf_spec]
      omega
  · cases opens
  · exact Value.size_content opens
  · exact Value.size_content opens
  · cases opens

end Mustache
