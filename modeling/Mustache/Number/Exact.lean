import Mustache.Number.Binary64

/-!
The exact value of a number, whatever its form. Numbers are equal if their exact
values are, so a float need not equal the decimal it is written as. What is not a
number equals nothing.
-/

namespace Mustache

inductive Exact where
  | nan
  | infinite (negative : Bool)
  | finite (value : Rat)
  deriving DecidableEq

namespace Exact

def scaled (negative : Bool) (size base : Nat) (power : Int) : Exact :=
  let size : Int := if negative then -(size : Int) else size
  if power ≥ 0 then .finite (size * (base.pow power.toNat : Nat) : Int)
  else .finite (mkRat size (base.pow (-power).toNat))

def ofInt (n : Int) : Exact := .finite n

def ofBinary64 : Binary64 → Exact
  | .nan => .nan
  | .infinite negative => .infinite negative
  | .finite negative significand exponent => scaled negative significand 2 exponent

def ofDecimalText (t : Text) : Exact :=
  let (negative, magnitude) := Decimal.takeSign t
  match Decimal.ofText? magnitude with
  | some d => scaled negative d.digits 10 d.power
  | none =>
      if (magnitude.head?.map Char.toLower) = some 'i' then .infinite negative else .nan

def ofFractionText (t : Text) : Exact :=
  let (negative, magnitude) := Decimal.takeSign t
  let numerator := Decimal.natOf (magnitude.takeWhile Char.isDigit)
  let denominator := (magnitude.dropWhile Char.isDigit).drop 1
  .finite (mkRat (if negative then -(numerator : Int) else numerator)
    (if denominator = [] then 1 else Decimal.natOf denominator))

def same : Exact → Exact → Bool
  | .finite a, .finite b => a = b
  | .infinite a, .infinite b => a = b
  | _, _ => false

def less : Exact → Exact → Bool
  | .finite a, .finite b => a < b
  | .infinite true, .infinite b => !b
  | .infinite true, .finite _ => true
  | .finite _, .infinite false => true
  | _, _ => false

end Exact
end Mustache
