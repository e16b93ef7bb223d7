import Mustache.Number.Binary64

/-!
The text of a number: the fewest digits that read back as the same number, and of
those the ones nearest to it. Exponents from -4 to 15 are written positionally,
with at least one place after the point; others with a sign and two digits.
-/

namespace Mustache.Binary64

/-- Twice two ends and the middle of the numbers that round to a finite number, all
over the denominator `den`. The ends belong to it if `closed`. -/
structure Neighbourhood where
  low : Nat
  middle : Nat
  high : Nat
  den : Nat
  closed : Bool

/-- Below a power of two the next number is half as far away as above it. -/
def neighbourhood (significand : Nat) (exponent : Int) : Neighbourhood :=
  let quarter := exponent - 2
  let up := Nat.pow 2 quarter.toNat
  let below := if significand = hiddenBit ∧ exponent > leastExponent then 1 else 2
  { low := (4 * significand - below) * up
    middle := 4 * significand * up
    high := (4 * significand + 2) * up
    den := Nat.pow 2 (-quarter).toNat
    closed := significand % 2 = 0 }

def overOne (digits : Nat) (power : Int) (n den : Nat) : Nat × Nat :=
  (digits * Nat.pow 10 power.toNat * den, n * Nat.pow 10 (-power).toNat)

def Neighbourhood.holds (near : Neighbourhood) (digits : Nat) (power : Int) : Bool :=
  let low := overOne digits power near.low near.den
  let high := overOne digits power near.high near.den
  if near.closed then low.2 ≤ low.1 && high.1 ≤ high.2 else low.2 < low.1 && high.1 < high.2

def Neighbourhood.distance (near : Neighbourhood) (digits : Nat) (power : Int) : Nat :=
  let sides := overOne digits power near.middle near.den
  (sides.1 - sides.2) + (sides.2 - sides.1)

def Neighbourhood.floor (near : Neighbourhood) (power : Int) : Nat :=
  (near.middle * Nat.pow 10 (-power).toNat) / (near.den * Nat.pow 10 power.toNat)

def Neighbourhood.onGrid? (near : Neighbourhood) (power : Int) : Option Decimal :=
  let low := near.floor power
  match near.holds low power, near.holds (low + 1) power with
  | true, true =>
      let left := near.distance low power
      let right := near.distance (low + 1) power
      if left < right ∨ (left = right ∧ low % 2 = 0) then some ⟨low, power⟩
      else some ⟨low + 1, power⟩
  | true, false => some ⟨low, power⟩
  | false, true => some ⟨low + 1, power⟩
  | false, false => none

def Neighbourhood.size (near : Neighbourhood) : Nat → Int → Int
  | 0, power => power
  | tries + 1, power => if near.floor power = 0 then power else near.size tries (power + 1)

def Neighbourhood.coarsest (near : Neighbourhood) : Nat → Int → Decimal
  | 0, power => ⟨near.floor power, power⟩
  | tries + 1, power => (near.onGrid? power).getD (near.coarsest tries (power - 1))

def shortest (significand : Nat) (exponent : Int) : Decimal :=
  let near := neighbourhood significand exponent
  let estimate : Int := ((significand.log2 : Int) + exponent) * 30103 / 100000 - 1
  near.coarsest 18 (near.size 4 estimate - 1)

/-! Laying the digits out. -/

def zeros (n : Nat) : Text := List.replicate n '0'

def significant (digits : Text) : Text := (digits.reverse.dropWhile (· = '0')).reverse

def positional (digits : Text) (point : Int) : Text :=
  if point ≤ 0 then '0' :: '.' :: (zeros (-point).toNat ++ digits)
  else
    let whole := digits.take point.toNat
    let fraction := digits.drop point.toNat
    whole ++ zeros (point.toNat - digits.length) ++ ['.'] ++
      (if fraction = [] then ['0'] else fraction)

def scientific (digits : Text) (exponent : Int) : Text :=
  let head := digits.take 1
  let tail := digits.drop 1
  let size := Text.ofNat exponent.natAbs
  head ++ (if tail = [] then [] else '.' :: tail) ++ ['e', if exponent < 0 then '-' else '+'] ++
    zeros (2 - size.length) ++ size

def textOf (decimal : Decimal) : Text :=
  let all := Text.ofNat decimal.digits
  let digits := significant all
  let point : Int := decimal.power + all.length
  if -4 ≤ point - 1 ∧ point - 1 < 16 then positional digits point
  else scientific digits (point - 1)

def text : Binary64 → Text
  | .nan => "nan".toList
  | .infinite negative => if negative then "-inf".toList else "inf".toList
  | .finite negative significand exponent =>
      let magnitude :=
        if significand = 0 then "0.0".toList else textOf (shortest significand exponent)
      if negative then '-' :: magnitude else magnitude

end Mustache.Binary64
