import Mustache.Text.Basic

/-!
Numbers as they are written in decimal: digits with at most one point, and an
exponent. A sign in front of them is read separately.
-/

namespace Mustache

structure Decimal where
  digits : Nat
  power : Int
  deriving DecidableEq

namespace Decimal

def natOf (digits : Text) : Nat :=
  digits.foldl (fun n c => 10 * n + (c.toNat - '0'.toNat)) 0

def takeSign : Text → Bool × Text
  | '-' :: rest => (true, rest)
  | '+' :: rest => (false, rest)
  | rest => (false, rest)

def exponentOf? : Text → Option Int
  | [] => some 0
  | mark :: rest =>
      let (negative, digits) := takeSign rest
      if (mark = 'e' ∨ mark = 'E') ∧ digits ≠ [] ∧ digits.all Char.isDigit then
        some (if negative then -natOf digits else natOf digits)
      else none

def ofText? (t : Text) : Option Decimal :=
  let whole := t.takeWhile Char.isDigit
  let rest := t.dropWhile Char.isDigit
  let (fraction, rest) := match rest with
    | '.' :: rest => (rest.takeWhile Char.isDigit, rest.dropWhile Char.isDigit)
    | rest => ([], rest)
  if whole = [] ∧ fraction = [] then none
  else (exponentOf? rest).map fun exponent =>
    ⟨natOf (whole ++ fraction), exponent - fraction.length⟩

def isGrouped (t : Text) : Bool := check false t
where
  check (afterDigit : Bool) : Text → Bool
    | [] => true
    | c :: rest =>
        if c = '_' then afterDigit && rest.head?.any Char.isDigit && check false rest
        else check c.isDigit rest

end Decimal
end Mustache
