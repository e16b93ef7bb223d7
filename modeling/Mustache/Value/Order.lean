import Mustache.Sorting
import Mustache.Value.Key

/-!
The order of values. Numbers, texts, bytes, moments and tuples are each ordered among
themselves, and sets by inclusion; values of different kinds are not ordered, and then
sorting fails with the first two that had to be compared.
-/

namespace Mustache

namespace Value

/-- Which of two values is asked whether the other comes after it (`below`) or before it
(`above`). A tuple with names is asked rather than one without. -/
inductive Asking where
  | below
  | above
  deriving DecidableEq

def Asking.within : Asking → Value → Value → Asking
  | .below, .sequence _ _, .namedTuple _ _ => .above
  | .above, .namedTuple _ _, .sequence _ _ => .below
  | asking, _, _ => asking

def notOrdered (asking : Asking) (a b : Value) : HostError :=
  let message (relation : Char) (asked other : Value) : HostError :=
    ⟨.type, ['\'', relation] ++ "' not supported between instances of '".toList ++
      asked.fullTypeName ++ "' and '".toList ++ other.fullTypeName ++ ['\'']⟩
  match asking with
  | .below => message '<' a b
  | .above => message '>' b a

def lessAtom (asking : Asking) (a b : Value) : Except HostError Bool :=
  match a, b with
  | .str s, .str t => .ok (s < t)
  | .bytes _ s, .bytes _ t => .ok (s < t)
  | .moment m, .moment n =>
      match m.isBefore? n with
      | some before => .ok before
      | none => .error ⟨.type, "can't compare datetime.datetime to datetime.date".toList⟩
  | .sequence .frozenSet items, .sequence .frozenSet others =>
      .ok (items.length < others.length && items.all fun v => others.any (sameKey v))
  | a, b =>
      match a.number?, b.number? with
      | some m, some n => .ok (m.less n)
      | _, _ => .error (notOrdered asking a b)

mutual
def lessBy (asking : Asking) : Value → Value → Except HostError Bool
  | .sequence .tuple items, b =>
      let a := Value.sequence .tuple items
      match b.tupled? with
      | some others => lessItems (asking.within a b) items others
      | none => .error (notOrdered asking a b)
  | .namedTuple className fields, b =>
      let a := Value.namedTuple className fields
      match b.tupled? with
      | some others => lessFields (asking.within a b) fields others
      | none => .error (notOrdered asking a b)
  | a, b => lessAtom asking a b

def lessItems (asking : Asking) : List Value → List Value → Except HostError Bool
  | _, [] => .ok false
  | [], _ :: _ => .ok true
  | a :: as, b :: bs => if sameKey a b then lessItems asking as bs else lessBy asking a b

def lessFields (asking : Asking) : List (Text × Value) → List Value → Except HostError Bool
  | _, [] => .ok false
  | [], _ :: _ => .ok true
  | (_, a) :: as, b :: bs => if sameKey a b then lessFields asking as bs else lessBy asking a b
end

def less (a b : Value) : Except HostError Bool := lessBy .below a b

def sorted (values : List Value) : Except HostError (List Value) := Sorting.sort less values

end Value
end Mustache
