import Mustache.Fault
import Mustache.Value.Key

/-!
The state of the host application: how often each counting function was called, how
each mapping has changed since the host made it, and what each recording provider was
asked for. Rendering changes a mapping only by asking a filling one for an absent key.
-/

namespace Mustache

inductive Change where
  /-- Puts a value that the mapping makes up under a new key. -/
  | fill (key : Text)
  | set (key text : Text)
  | erase (key : Text)
  deriving DecidableEq

def Change.apply {α : Type} (made : Text → α) (stored : Text → Text → α) :
    Change → List (Value × α) → List (Value × α)
  | .fill key, entries => Value.setEntry (.str key) (made key) entries
  | .set key text, entries => Value.setEntry (.str key) (stored key text) entries
  | .erase key, entries => entries.filter fun entry => !Value.sameKey entry.1 (.str key)

def Change.applyAll {α : Type} (made : Nat → Text → α) (stored : Text → Text → α) (index : Nat) :
    List Change → List (Value × α) → List (Value × α)
  | [], entries => entries
  | change :: rest, entries =>
      applyAll made stored (index + 1) rest (change.apply (made index) stored entries)

structure Host where
  calls : Slot → Nat
  /-- The changes of each mapping, the first one first. -/
  changes : Slot → List Change
  /-- The names each recording provider was asked for, the last one first. -/
  asked : Nat → List Text

/-- A computation that reads the host's data, may change it and may fail. A failure
keeps the changes made before it. -/
abbrev Eval := EStateM Fault Host

/-- What a value answers when it is asked for the entry of a name. -/
inductive Entry where
  | found (v : Value)
  | absent
  /-- The mapping at `slot` makes `v` up and keeps it. -/
  | made (slot : Slot) (v : Value)
  | fails (error : HostError)

namespace Host

def initial : Host := ⟨fun _ => 0, fun _ => [], fun _ => []⟩

def countCall (slot : Slot) (host : Host) : Host :=
  { host with calls := fun s => if s = slot then host.calls slot + 1 else host.calls s }

def change (slot : Slot) (change : Change) (host : Host) : Host :=
  { host with
    changes := fun s => if s = slot then host.changes slot ++ [change] else host.changes s }

def ask (number : Nat) (name : Text) (host : Host) : Host :=
  { host with asked := fun n => if n = number then name :: host.asked number else host.asked n }

/-- What a filling mapping makes up as the change number `index` of the slot it has. -/
def madeValue (slot : Slot) (fill : Value) (index : Nat) : Value := fill.moveTo (slot ++ [index])

def entries (host : Host) : Value → List (Value × Value)
  | .mapping _ none entries => entries
  | .mapping _ (some address) entries =>
      Change.applyAll (fun _ key => .str key) (fun _ text => .str text) 0
        (host.changes (address.within [])) entries
  | .filling address entries fill =>
      let slot := address.within []
      Change.applyAll (fun index _ => madeValue slot fill index) (fun _ text => .str text) 0
        (host.changes slot) entries
  | _ => []

def entry (host : Host) (v : Value) (name : Text) : Entry :=
  match v with
  | .mapping shape address entries =>
      match Value.find? name (host.entries (.mapping shape address entries)), shape with
      | some found, _ => .found found
      | none, .raising error => .fails error
      | none, _ => .absent
  | .filling address entries fill =>
      let slot := address.within []
      match Value.find? name (host.entries (.filling address entries fill)) with
      | some found => .found found
      | none => .made slot (madeValue slot fill (host.changes slot).length)
  | v => .fails v.notKeyed

def elements? (host : Host) : Value → Option (List Value)
  | .str text => some (text.map fun c => .str [c])
  | .bytes _ content => some (content.map fun b => .int (Int.ofNat b.toNat))
  | .range stop => some ((List.range stop.toNat).map fun n => .int (Int.ofNat n))
  | .sequence _ items => some items
  | .mapping shape address entries =>
      some ((host.entries (.mapping shape address entries)).map (·.1))
  | .filling address entries fill =>
      some ((host.entries (.filling address entries fill)).map (·.1))
  | .namedTuple _ fields => some (fields.map (·.2))
  | _ => none

def length? (host : Host) : Value → Option Nat
  | .object look _ => look.length
  | .range stop => some stop.toNat
  | v => (host.elements? v).map List.length

def isTrue (host : Host) (v : Value) : Bool :=
  match v with
  | .null | .missing => false
  | .bool b => b
  | .int n => n != 0
  | .float x => !x.isZero
  | .exactNumber _ text => !Value.isZeroText text
  | .object look _ => look.truth.getD (look.length != some 0)
  | v => host.length? v != some 0

end Host
end Mustache
