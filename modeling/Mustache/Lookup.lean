import Mustache.Adapter
import Mustache.Path

/-!
Names looked up in a chain of contexts, the innermost first. The first segment is
sought from context to context; later segments only in what the one before named.
A context is asked layer by layer: the method of a name goes before what the layer
hides, and that before the attributes and keys of the innermost value.
-/

namespace Mustache

/-- Contexts, the innermost first. -/
abbrev Chain := List Value

section Reading
variable (adapterOf : Value → Adapter)

def settle (v : Value) : Eval Value :=
  match (adapterOf v).opening v with
  | .fails error => throw (.host error)
  | _ => return v

/-- Takes all layers off a value. A count has no layers. -/
def strip (v : Value) : Eval Value :=
  if v.isAbsent then return v
  else match _ : (adapterOf v).opening v with
    | .closed => return v
    | .opens inner => strip inner
    | .counts slot => countCall slot >>= settle adapterOf
    | .fails error => throw (.host error)
termination_by sizeOf v
decreasing_by exact Adapter.size_opening ‹_›

def isEmpty (v : Value) : Eval Bool := do
  let v ← strip adapterOf v
  if v.isAbsent then return true
  else (adapterOf v).isEmpty v

def kindOf (v : Value) : Eval ValueKind := do
  let v ← strip adapterOf v
  if v.isAbsent then return .scalar
  else return (adapterOf v).kind

def member (adapter : Adapter) (v : Value) (name : Text) : Eval Value := do
  let found ← adapter.getField v name
  if found.isMissing then adapter.getKey v name else return found

/-- What one context says of a name that is not the context itself. What a layer answers
itself hides what is inside. -/
def lookupWithin (name : Text) (v : Value) : Eval Value :=
  if v.isAbsent then return .missing
  else do
    let found ← (adapterOf v).invoke v name
    if found.isMissing then
      match _ : (adapterOf v).opening v with
      | .closed => member (adapterOf v) v name
      | .opens inner => lookupWithin name inner
      | .counts slot => do
          let count ← countCall slot >>= settle adapterOf
          member (adapterOf count) count name
      | .fails error => throw (.host error)
    else return found
termination_by sizeOf v
decreasing_by exact Adapter.size_opening ‹_›

def lookupInFrame (name : Text) (frame : Value) : Eval Value :=
  if name = Path.self then return frame else lookupWithin adapterOf name frame

def lookupSegment (name : Text) : Chain → Eval Value
  | [] => return .missing
  | frame :: outer => do
      let found ← lookupInFrame adapterOf name frame
      if found.isMissing then lookupSegment name outer else return found

def lookupPath (required : Bool) : Path → Chain → Eval Value
  | [], _ => return .missing
  | segment :: rest, chain => do
      let found ← lookupSegment adapterOf segment chain
      if found.isMissing then
        if required then throw (.missingVariable segment) else return .missing
      else if rest = [] then return found
      else lookupPath required rest [found]

def lookup (required : Bool) (chain : Chain) (name : Text) : Eval Value :=
  lookupPath adapterOf required (Path.ofName name) chain

end Reading
end Mustache
