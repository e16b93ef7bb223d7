import Mustache.Yaml.Failure

/-!
What a scalar without quotes stands for: null, a truth value, a number, a moment, or else
its own text. Digits may be grouped by underscores.
-/

namespace Mustache.Yaml

def nullTexts : List Text := ["", "~", "null", "Null", "NULL"].map String.toList
def trueTexts : List Text := ["true", "True", "TRUE"].map String.toList
def falseTexts : List Text := ["false", "False", "FALSE"].map String.toList
def infiniteTexts : List Text := [".inf", ".Inf", ".INF"].map String.toList
def nanTexts : List Text := [".nan", ".NaN", ".NAN"].map String.toList

def mergeText : Text := "<<".toList

def valueText : Text := "=".toList

def isGroupedDigit (c : Char) : Bool := c.isDigit || c = '_'

def digitValue (c : Char) : Nat :=
  if c.isDigit then c.toNat - '0'.toNat else c.toLower.toNat - 'a'.toNat + 10

def digitsOf (base : Nat) (t : Text) : Attempt Nat :=
  let digits := t.filter (· != '_')
  if digits ≠ [] ∧ digits.all (fun c => c.isAlphanum && digitValue c < base) then
    .ok (digits.foldl (fun n c => base * n + digitValue c) 0)
  else refused ("invalid literal for int() with base ".toList ++ Text.ofNat base ++ ": ".toList ++
    Text.quoted digits)

def natOf : Text → Attempt Nat
  | '0' :: 'b' :: digits => digitsOf 2 digits
  | '0' :: 'o' :: digits => digitsOf 8 digits
  | '0' :: 'x' :: digits => digitsOf 16 digits
  | digits => digitsOf 10 digits

def intOf (t : Text) : Attempt Int :=
  let (negative, magnitude) := Decimal.takeSign t
  (natOf magnitude).map fun n => if negative then -(n : Int) else n

def isInt (t : Text) : Bool :=
  let (_, magnitude) := Decimal.takeSign t
  let below (base : Nat) (digits : Text) : Bool :=
    digits ≠ [] && digits.all fun c => c = '_' || (c.isAlphanum && digitValue c < base)
  t.head? ≠ some '_' && match magnitude with
    | '0' :: 'b' :: digits => below 2 digits
    | '0' :: 'o' :: digits => below 8 digits
    | '0' :: 'x' :: digits => below 16 digits
    | digits => below 10 digits

def floatOf (t : Text) : Attempt Binary64 :=
  let plain := (t.filter (· != '_')).map Char.toLower
  let (negative, magnitude) := Decimal.takeSign plain
  if magnitude = ".inf".toList then .ok (.infinite negative)
  else if magnitude = ".nan".toList then .ok .nan
  else match Binary64.ofText? magnitude with
    | some (.finite _ significand exponent) => .ok (.finite negative significand exponent)
    | some (.infinite _) => .ok (.infinite negative)
    | some .nan => .ok .nan
    | none => refused ("could not convert string to float: ".toList ++ Text.quoted magnitude)

def isFloat (t : Text) : Bool :=
  let (_, magnitude) := Decimal.takeSign t
  let whole := magnitude.takeWhile isGroupedDigit
  let rest := magnitude.drop whole.length
  let isExponent (needsSign : Bool) : Text → Bool
    | [] => true
    | mark :: rest =>
        let digits := (Decimal.takeSign rest).2
        (mark = 'e' || mark = 'E') && digits ≠ [] && digits.all Char.isDigit &&
          (!needsSign || digits.length < rest.length)
  infiniteTexts.contains magnitude || nanTexts.contains t ||
    match rest with
    | [] => false
    | mark :: fraction =>
        if mark = '.' then
          isExponent whole.isEmpty (fraction.dropWhile isGroupedDigit) &&
            (whole.head?.any Char.isDigit ||
              (whole.isEmpty && fraction.head?.any isGroupedDigit))
        else whole.head?.any Char.isDigit && isExponent false rest

/-! Moments -/

def readDigits (least most : Nat) (t : Text) : Option (Nat × Text) :=
  let digits := (t.take most).takeWhile Char.isDigit
  if digits.length < least then none else some (Decimal.natOf digits, t.drop digits.length)

def readMark (mark : Char) : Text → Option Text
  | c :: rest => if c = mark then some rest else none
  | [] => none

def aheadOf? (t : Text) : Option Int :=
  match t.dropWhile Text.isPadding with
  | [] => if t = [] then some 0 else none
  | ['Z'] => some 0
  | sign :: rest => do
      if sign ≠ '+' ∧ sign ≠ '-' then none
      else
        let (hours, rest) ← readDigits 1 2 rest
        let minutes ← match rest with
          | [] => some 0
          | mark :: rest => do
              let (minutes, rest) ← readDigits 2 2 rest
              if mark = ':' ∧ rest = [] then pure minutes else none
        let ahead : Int := 60 * hours + minutes
        pure (if sign = '-' then -ahead else ahead)

def millionthsOf (digits : Text) : Nat :=
  let kept := digits.take 6
  let n := Decimal.natOf kept * Nat.pow 10 (6 - kept.length) +
    if (digits.drop 6).head?.any ('4' < ·) then 1 else 0
  if n > 999999 then 0 else n

structure Written where
  day : Day
  clock : Option (Clock × Int)

def clockOf? (t : Text) : Option (Clock × Int) := do
  let start ← match t with
    | c :: rest =>
        if c = 't' ∨ c = 'T' then some rest
        else if Text.isPadding c then some (rest.dropWhile Text.isPadding)
        else none
    | [] => none
  let (hour, rest) ← readDigits 1 2 start
  let (minute, rest) ← readDigits 2 2 (← readMark ':' rest)
  let (second, rest) ← readDigits 2 2 (← readMark ':' rest)
  let (fraction, rest) := match rest with
    | '.' :: rest => (rest.takeWhile Char.isDigit, rest.dropWhile Char.isDigit)
    | rest => ([], rest)
  pure (⟨hour, minute, second, millionthsOf fraction⟩, ← aheadOf? rest)

/-- Reads a moment. Where only a day is written its parts have all their digits, unless
`loose`. -/
def written? (loose : Bool) (t : Text) : Option Written := do
  let (year, rest) ← readDigits 4 4 t
  let (month, rest) ← readDigits 1 2 (← readMark '-' rest)
  let (day, rest) ← readDigits 1 2 (← readMark '-' rest)
  if rest = [] then
    if loose ∨ t.length = 10 then pure ⟨⟨year, month, day⟩, none⟩ else none
  else pure ⟨⟨year, month, day⟩, some (← clockOf? rest)⟩

def within (bounds : Bool) (message : String) : Attempt Unit :=
  if bounds then .ok () else refused message.toList

def Written.moment (w : Written) : Attempt Moment := do
  let d := w.day
  within (0 < d.year) "year 0 is out of range"
  within (1 ≤ d.month && d.month ≤ 12) "month must be in 1..12"
  within (1 ≤ d.day && d.day ≤ Day.daysIn d.year d.month) "day is out of range for month"
  match w.clock with
  | none => pure (.day d)
  | some (c, ahead) =>
      within (c.hour < 24) "hour must be in 0..23"
      within (c.minute < 60) "minute must be in 0..59"
      within (c.second < 60) "second must be in 0..59"
      pure (Moment.earlier ahead d c)

def plainValue (t : Text) : Attempt Value :=
  if t = mergeText ∨ t = valueText then malformed
  else if nullTexts.contains t then .ok .null
  else if trueTexts.contains t then .ok (.bool true)
  else if falseTexts.contains t then .ok (.bool false)
  else if isFloat t then (floatOf t).map .float
  else if isInt t then (intOf t).map .int
  else match written? false t with
    | some w => w.moment.map .moment
    | none => .ok (.str t)

end Mustache.Yaml
