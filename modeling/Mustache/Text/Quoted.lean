import Mustache.Text.Printable

/-!
A text in quotes, on one line and without characters that cannot be seen. Single
quotes are used unless the text holds one and no double quote.
-/

namespace Mustache.Text

def hexDigit (n : Nat) : Char := Nat.digitChar (n % 16)

def hexOf : Nat → Nat → Text
  | 0, _ => []
  | width + 1, n => hexOf width (n / 16) ++ [hexDigit n]

def escapeByNumber (n : Nat) : Text :=
  if n < 0x100 then '\\' :: 'x' :: hexOf 2 n
  else if n < 0x10000 then '\\' :: 'u' :: hexOf 4 n
  else '\\' :: 'U' :: hexOf 8 n

def quoteFor (t : Text) : Char :=
  if t.contains '\'' && !t.contains '"' then '"' else '\''

def quoteChar (quote c : Char) : Text :=
  if c = quote ∨ c = '\\' then ['\\', c]
  else if c = '\n' then ['\\', 'n']
  else if c = '\r' then ['\\', 'r']
  else if c = '\t' then ['\\', 't']
  else if isPrintable c then [c]
  else escapeByNumber c.toNat

def quoted (t : Text) : Text :=
  let quote := quoteFor t
  quote :: (t.flatMap (quoteChar quote) ++ [quote])

def listed (opening closing : Text) (items : List Text) : Text :=
  opening ++ join [',', ' '] items ++ closing

def tupled : List Text → Text
  | [item] => '(' :: (item ++ [',', ')'])
  | items => listed ['('] [')'] items

end Mustache.Text
