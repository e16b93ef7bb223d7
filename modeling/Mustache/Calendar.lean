import Mustache.Text.Quoted

/-!
Days of the calendar and times of day, without regard to where on earth they are
read. The months before March count as the end of the year before, so that the day
a leap year adds comes last.
-/

namespace Mustache

structure Day where
  year : Int
  month : Nat
  day : Nat
  deriving DecidableEq

structure Clock where
  hour : Nat
  minute : Nat
  second : Nat
  millionths : Nat
  deriving DecidableEq

inductive Moment where
  | day (day : Day)
  | time (day : Day) (clock : Clock)
  deriving DecidableEq

namespace Day

def isLeap (year : Int) : Bool := year % 4 = 0 && (year % 100 != 0 || year % 400 = 0)

def daysIn (year : Int) (month : Nat) : Nat :=
  if month = 2 then if isLeap year then 29 else 28
  else if [4, 6, 9, 11].contains month then 30
  else 31

def number (d : Day) : Int :=
  let year := if d.month ≤ 2 then d.year - 1 else d.year
  let month : Int := if d.month ≤ 2 then d.month + 9 else (d.month : Int) - 3
  365 * year + year / 4 - year / 100 + year / 400 + (153 * month + 2) / 5 + d.day - 1

def ofNumber (n : Int) : Day :=
  let era := n / 146097
  let inEra := n % 146097
  let yearOfEra := (inEra - inEra / 1460 + inEra / 36524 - inEra / 146096) / 365
  let inYear := inEra - (365 * yearOfEra + yearOfEra / 4 - yearOfEra / 100)
  let month := (5 * inYear + 2) / 153
  let day := inYear - (153 * month + 2) / 5 + 1
  let year := yearOfEra + 400 * era
  if month < 10 then ⟨year, (month + 3).toNat, day.toNat⟩
  else ⟨year + 1, (month - 9).toNat, day.toNat⟩

end Day

def Clock.number (c : Clock) : Nat :=
  ((c.hour * 60 + c.minute) * 60 + c.second) * 1000000 + c.millionths

namespace Moment

def isBefore? : Moment → Moment → Option Bool
  | .day d, .day e => some (d.number < e.number)
  | .time d c, .time e k =>
      some (d.number < e.number || (d.number = e.number && c.number < k.number))
  | _, _ => none

def earlier (minutes : Int) (d : Day) (c : Clock) : Moment :=
  let total := (d.number * 24 + c.hour) * 60 + c.minute - minutes
  .time (Day.ofNumber (total / 1440))
    ⟨(total % 1440 / 60).toNat, (total % 60).toNat, c.second, c.millionths⟩

def shown : Moment → Text
  | .day d => call "datetime.date" [d.year, d.month, d.day]
  | .time d c =>
      let tail : List Int :=
        if c.millionths ≠ 0 then [c.second, c.millionths]
        else if c.second ≠ 0 then [c.second]
        else []
      call "datetime.datetime" ([d.year, d.month, d.day, c.hour, c.minute] ++ tail)
where
  call (name : String) (parts : List Int) : Text :=
    name.toList ++ Text.listed ['('] [')'] (parts.map Text.ofInt)

end Moment
end Mustache
