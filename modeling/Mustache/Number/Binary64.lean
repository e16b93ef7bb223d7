import Mustache.Number.Decimal

/-!
Floating-point numbers of 64 bits, and the one nearest to a decimal. A finite
number is kept as its significand and exponent, so all arithmetic on it is exact.
-/

namespace Mustache

inductive Binary64 where
  | nan
  | infinite (negative : Bool)
  /-- The number `significand * 2 ^ exponent`, with its sign. -/
  | finite (negative : Bool) (significand : Nat) (exponent : Int)
  deriving DecidableEq

namespace Binary64

def leastExponent : Int := -1074
def greatestExponent : Int := 971
def hiddenBit : Nat := Nat.pow 2 52

def roundDiv (num den : Nat) : Nat :=
  let low := num / den
  let twice := 2 * (num % den)
  if twice < den then low
  else if twice > den then low + 1
  else low + low % 2

def scaleDown (num den : Nat) (exponent : Int) : Nat × Nat :=
  if exponent ≥ 0 then (num, den * Nat.pow 2 exponent.toNat)
  else (num * Nat.pow 2 (-exponent).toNat, den)

def nearest (negative : Bool) (num den : Nat) : Binary64 :=
  if num = 0 then .finite negative 0 leastExponent
  else
    -- With this exponent the quotient lies between 2 ^ 52 and 2 ^ 54.
    let guess : Int := (num.log2 : Int) - den.log2 - 53
    let probe := scaleDown num den guess
    let exponent := if probe.1 / probe.2 ≥ Nat.pow 2 53 then guess + 1 else guess
    let exponent := max exponent leastExponent
    let scaled := scaleDown num den exponent
    let significand := roundDiv scaled.1 scaled.2
    -- Rounding up may have added a bit.
    let carried := significand = Nat.pow 2 53
    let exponent := if carried then exponent + 1 else exponent
    let significand := if carried then hiddenBit else significand
    if exponent > greatestExponent then .infinite negative
    else .finite negative significand exponent

def ofDecimal (negative : Bool) (d : Decimal) : Binary64 :=
  let size : Int := (Nat.toDigits 10 d.digits).length
  if d.digits = 0 ∨ size + d.power < -400 then .finite negative 0 leastExponent
  else if size + d.power > 400 then .infinite negative
  else if d.power ≥ 0 then nearest negative (d.digits * Nat.pow 10 d.power.toNat) 1
  else nearest negative d.digits (Nat.pow 10 (-d.power).toNat)

def isZero : Binary64 → Bool
  | .finite _ significand _ => significand = 0
  | _ => false

/-- Reads a number with a point or an exponent, or one of the names of the numbers that
are not finite. Single underscores may group digits. -/
def ofText? (t : Text) : Option Binary64 :=
  let (negative, magnitude) := Decimal.takeSign t.trim
  let lower := magnitude.map Char.toLower
  if lower = "inf".toList ∨ lower = "infinity".toList then some (.infinite negative)
  else if lower = "nan".toList then some .nan
  else if Decimal.isGrouped magnitude then
    (Decimal.ofText? (magnitude.filter (· != '_'))).map (ofDecimal negative)
  else none

end Binary64
end Mustache
