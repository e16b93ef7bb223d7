import Mustache.Text.Basic

/-!
Places in a YAML text. Of the characters that break a line only the line feed starts a
new line and column; the others end comments and words, but the column goes on.
-/

namespace Mustache.Yaml

structure Place where
  rest : Text
  index : Nat
  line : Nat
  column : Nat

def isBreak (c : Char) : Bool := c = '\n' || c = '\u0085' || c = '\u2028' || c = '\u2029'

/-- What a break stands for in a scalar: a line feed, unless it is a separator of its own. -/
def breakText (c : Char) : Text := if c = '\u2028' ∨ c = '\u2029' then [c] else ['\n']

def endsLine : Text → Bool
  | [] => true
  | c :: _ => isBreak c

def endsWord : Text → Bool
  | [] => true
  | c :: _ => Text.isPadding c || isBreak c

def startsTripled (c : Char) : Text → Bool
  | a :: b :: d :: rest => a = c && b = c && d = c && endsWord rest
  | _ => false

def startsMarker (t : Text) : Bool := startsTripled '-' t || startsTripled '.' t

def isFlowMark (c : Char) : Bool := [',', '[', ']', '\x7b', '\x7d'].contains c

namespace Place

def start (t : Text) : Place := ⟨t, 0, 0, 0⟩

def next : Place → Place
  | ⟨[], index, line, column⟩ => ⟨[], index, line, column⟩
  | ⟨c :: rest, index, line, column⟩ =>
      if c = '\n' then ⟨rest, index + 1, line + 1, 0⟩
      else ⟨rest, index + 1, line, if c = '\uFEFF' then column else column + 1⟩

def skip : Nat → Place → Place
  | 0, p => p
  | n + 1, p => skip n p.next

def skipWhile (skips : Char → Bool) (p : Place) : Place := p.skip (p.rest.takeWhile skips).length

def isEnd (p : Place) : Bool := p.rest.isEmpty

def startsWith (c : Char) (p : Place) : Bool := p.rest.head? = some c

def overSpaces : Place → Place := skipWhile (· = ' ')

def overComment (p : Place) : Place :=
  if p.startsWith '#' then p.skipWhile (!isBreak ·) else p

def overIndent (indent : Nat) (p : Place) : Place :=
  p.skip (min (p.rest.takeWhile (· = ' ')).length (indent - p.column))

end Place
end Mustache.Yaml
