import Mustache.ParseError
import Mustache.Text.Search

/-!
A cursor over a template's source: the text behind it, the text ahead of it, the
line it stands on and the pair of delimiters in force. `before` holds the text
behind with the nearest character first, so the source is
`before.reverse ++ rest` wherever the cursor stands.
-/

namespace Mustache

structure Delimiters where
  opening : Text
  closing : Text
  deriving DecidableEq

def Delimiters.standard : Delimiters := ⟨['{', '{'], ['}', '}']⟩

structure Cursor where
  before : Text
  rest : Text
  line : Nat
  delimiters : Delimiters
  deriving DecidableEq

inductive TextSpan where
  /-- `padding` is split off only if the tag has nothing else before it on its line. -/
  | beforeTag (text padding : Text) (lineStart : Bool)
  | toEnd (text : Text)
  deriving DecidableEq

/-- A tag between its delimiters. `trail` is the rest of its line, taken with the
tag if the tag stands alone. -/
structure TagSpan where
  raw : Text
  trail : Text
  standalone : Bool
  line : Nat
  deriving DecidableEq

def standaloneSigils : List Char := ['#', '^', '/', '<', '>', '=', '!']

def TagSpan.body (span : TagSpan) : Text := span.raw.trim

namespace Cursor

def start (source : Text) (delimiters : Delimiters) : Cursor := ⟨[], source, 1, delimiters⟩

def source (c : Cursor) : Text := c.before.reverse ++ c.rest

def position (c : Cursor) : Nat := c.before.length

def advance (n : Nat) (c : Cursor) : Cursor :=
  { c with
    before := (c.rest.take n).reverse ++ c.before
    rest := c.rest.drop n
    line := c.line + Text.newlines (c.rest.take n) }

/-- Moves to the end of the source without counting lines. -/
def runOut (c : Cursor) : Cursor :=
  { c with before := c.rest.reverse ++ c.before, rest := [] }

def setDelimiters (delimiters : Delimiters) (c : Cursor) : Cursor := { c with delimiters }

def readUntil (marker : Text) (c : Cursor) : Except Text Text × Cursor :=
  match Text.upTo? marker c.rest with
  | none => (.error c.rest, c.runOut)
  | some chunk => (.ok (chunk ++ marker), c.advance (chunk.length + marker.length))

def startsLine : Text → Bool
  | [] => true
  | c :: _ => c = '\n'

/-- Reads up to and over the next opening delimiter. The padding before it counts
only as far back as the cursor. -/
def readText (c : Cursor) : TextSpan × Cursor :=
  match Text.upTo? c.delimiters.opening c.rest with
  | none => (.toEnd c.rest, c.runOut)
  | some chunk =>
      let next := c.advance (chunk.length + c.delimiters.opening.length)
      -- The line itself may start before the cursor.
      let stem := chunk.reverse.dropWhile Text.isPadding
      if startsLine (stem ++ c.before) then
        (.beforeTag stem.reverse (chunk.reverse.takeWhile Text.isPadding).reverse true, next)
      else (.beforeTag chunk [] false, next)

def lineEnd? (rest : Text) : Option Text :=
  let padding := rest.takeWhile Text.isPadding
  match rest.dropWhile Text.isPadding with
  | [] => some padding
  | '\n' :: _ => some (padding ++ ['\n'])
  | '\r' :: '\n' :: _ => some (padding ++ ['\r', '\n'])
  | _ => none

def consumeLineEnd (c : Cursor) : Bool × Cursor :=
  match lineEnd? c.rest with
  | some trail => (true, c.advance trail.length)
  | none => (false, c)

/-- A tag whose first character is a brace ends with a brace and the closing delimiter. -/
def rawTag? (c : Cursor) : Option Text :=
  match c.rest with
  | '{' :: _ => (Text.upTo? ('}' :: c.delimiters.closing) c.rest).map (· ++ ['}'])
  | rest => Text.upTo? c.delimiters.closing rest

/-- Reads a tag whose opening delimiter has just been read. `lineStart` says that
nothing but padding stands before it on its line. -/
def readTag (lineStart : Bool) (c : Cursor) : Except ParseError TagSpan × Cursor :=
  match c.rawTag? with
  | none => (.error ⟨.unmatchedOpenTag, c.line⟩, c.runOut)
  | some raw =>
      let next := c.advance (raw.length + c.delimiters.closing.length)
      match raw.trim with
      | [] => (.error ⟨.emptyTag, next.line⟩, next)
      | sigil :: _ =>
          if lineStart && standaloneSigils.contains sigil then
            match lineEnd? next.rest with
            | some trail => (.ok ⟨raw, trail, true, c.line⟩, next.advance trail.length)
            | none => (.ok ⟨raw, [], false, c.line⟩, next)
          else (.ok ⟨raw, [], false, c.line⟩, next)

theorem source_advance (n : Nat) (c : Cursor) : (c.advance n).source = c.source := by
  simp [advance, source]

theorem source_run_out (c : Cursor) : c.runOut.source = c.source := by
  simp [runOut, source]

theorem length_rest_advance (n : Nat) (c : Cursor) :
    (c.advance n).rest.length = c.rest.length - n := by
  simp [advance]

theorem position_advance (n : Nat) (c : Cursor) (inside : n ≤ c.rest.length) :
    (c.advance n).position = c.position + n := by
  simp [advance, position, Nat.min_eq_left inside, Nat.add_comm]

theorem length_read_tag_lt {lineStart : Bool} {c next : Cursor} {span : TagSpan}
    (read : c.readTag lineStart = (.ok span, next)) : next.rest.length < c.rest.length := by
  unfold readTag at read
  split at read
  · cases read
  · next raw found =>
      -- At the end of the source there could only be an empty tag, which is refused.
      have inside : 0 < c.rest.length := by
        cases empty : c.rest with
        | nil =>
            simp only [rawTag?, empty, Text.upTo?] at found
            split at found
            · cases found; simp [Text.trim, Text.trimLeft, Text.trimRight] at read
            · cases found
        | cons _ _ => simp
      split at read
      · cases read
      · next sigil tail body =>
          have visible : 0 < raw.length := by
            cases raw with
            | nil => simp [Text.trim, Text.trimLeft, Text.trimRight] at body
            | cons _ _ => simp
          split at read
          · dsimp only at read
            split at read
            · cases read
              simp only [length_rest_advance]
              omega
            · cases read
              simp only [length_rest_advance]
              omega
          · cases read
            simp only [length_rest_advance]
            omega

theorem length_read_text_le {c next : Cursor} {span : TextSpan}
    (read : c.readText = (span, next)) : next.rest.length ≤ c.rest.length := by
  unfold readText at read
  split at read
  · cases read; simp [runOut]
  · simp only at read
    split at read <;> cases read <;> simp [length_rest_advance]

end Cursor
end Mustache
