import Mustache.Number.Exact
import Mustache.Value.Basic

/-!
Values as keys. Numbers are one key if they are equal as numbers, whatever their
form, and tuples if their items are; what has an identity of its own equals nothing
else. Values that can change cannot be keys.
-/

namespace Mustache.Value

def number? : Value → Option Exact
  | .bool b => some (.ofInt (if b then 1 else 0))
  | .int n => some (.ofInt n)
  | .float x => some (.ofBinary64 x)
  | .exactNumber .decimal text => some (.ofDecimalText text)
  | .exactNumber .fraction text => some (.ofFractionText text)
  | _ => none

def tupled? : Value → Option (List Value)
  | .sequence .tuple items => some items
  | .namedTuple _ fields => some (fields.map (·.2))
  | _ => none

def sameAtom (a b : Value) : Bool :=
  match a, b with
  | .null, .null | .missing, .missing => true
  | .str s, .str t => s = t
  | .bytes _ s, .bytes _ t => s = t
  | .moment m, .moment n => m = n
  | .range m, .range n => m.toNat = n.toNat
  | a, b =>
      match a.number?, b.number? with
      | some m, some n => m.same n
      | _, _ => false

mutual
def sameKey : Value → Value → Bool
  | .sequence .tuple items, b => b.tupled?.any (sameKeys items)
  | .namedTuple _ fields, b => b.tupled?.any (sameFields fields)
  | .sequence .frozenSet items, b =>
      match b with
      | .sequence .frozenSet others => sameKeys items others
      | _ => false
  | a, b => sameAtom a b

def sameKeys : List Value → List Value → Bool
  | [], [] => true
  | a :: as, b :: bs => sameKey a b && sameKeys as bs
  | _, _ => false

def sameFields : List (Text × Value) → List Value → Bool
  | [], [] => true
  | (_, a) :: as, b :: bs => sameKey a b && sameFields as bs
  | _, _ => false
end

def setEntry {α : Type} (key : Value) (v : α) : List (Value × α) → List (Value × α)
  | [] => [(key, v)]
  | (k, old) :: rest =>
      if sameKey k key then (k, v) :: rest else (k, old) :: setEntry key v rest

def entriesOf (pairs : List (Value × Value)) : List (Value × Value) :=
  pairs.foldl (fun entries pair => setEntry pair.1 pair.2 entries) []

def distinct (values : List Value) : List Value :=
  ((values.foldl (fun kept v => if kept.any (sameKey · v) then kept else v :: kept) [])).reverse

mutual
def changeable? : Value → Option Value
  | .bytes true content => some (.bytes true content)
  | .sequence .tuple items => firstChangeable? items
  | .sequence .frozenSet _ => none
  | .sequence shape items => some (.sequence shape items)
  | .mapping shape address entries => some (.mapping shape address entries)
  | .filling address entries fill => some (.filling address entries fill)
  | .namedTuple _ fields => firstChangeableField? fields
  | .object look members => if look.showsFields then some (.object look members) else none
  | _ => none

def firstChangeable? : List Value → Option Value
  | [] => none
  | v :: rest => v.changeable?.or (firstChangeable? rest)

def firstChangeableField? : List (Text × Value) → Option Value
  | [] => none
  | (_, v) :: rest => v.changeable?.or (firstChangeableField? rest)
end

def unfitKey? (values : List Value) : Option HostError :=
  (firstChangeable? values).map (typeError "unhashable type: '" "'")

end Mustache.Value
