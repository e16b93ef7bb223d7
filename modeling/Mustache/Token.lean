import Mustache.Cursor

/-!
A source as a flat run of tags, each with the text before it. The scan knows the
delimiters in force but nothing of sections: that tags open and close in pairs is
the concern of the tree built from them. A token keeps every character it was
read from, so the tokens of a source written one after the other, with the text
after the last tag, give the source back.
-/

namespace Mustache

inductive Tag where
  | comment
  /-- A brace that no brace closes; it leaves nothing behind. -/
  | stray
  | opening (inverted : Bool) (name : Text)
  | closing (name : Text)
  | inclusion (name : Text)
  | delimiters (pair : Option Delimiters)
  | value (name : Text) (escape : Bool)
  deriving DecidableEq

def Delimiters.ofMeta (inner : Text) : Option Delimiters :=
  let named := Text.trim inner
  let opening := named.takeWhile (!Text.isSpace ·)
  let closing := Text.trimLeft (named.dropWhile (!Text.isSpace ·))
  if opening = [] ∨ closing = [] then none else some ⟨opening, closing⟩

def Tag.ofBody : Text → Except ParseFault Tag
  | '!' :: _ => .ok .comment
  | '#' :: name => .ok (.opening false (Text.trim name))
  | '^' :: name => .ok (.opening true (Text.trim name))
  | '/' :: name => .ok (.closing (Text.trim name))
  | '>' :: name => .ok (.inclusion (Text.trim name))
  | '&' :: name => .ok (.value (Text.trim name) false)
  | '=' :: inner =>
      if inner.getLast? = some '=' then .ok (.delimiters (Delimiters.ofMeta inner.dropLast))
      else .error .invalidMetaTag
  | '{' :: name =>
      if name.getLast? = some '}' then .ok (.value (Text.trim name.dropLast) false)
      else .ok .stray
  | name => .ok (.value name true)

/-- A tag and the text since the tag before it. `endLine` is the line on which
what the tag took from the source ends. -/
structure Token where
  text : Text
  padding : Text
  lineStart : Bool
  raw : Text
  trail : Text
  standalone : Bool
  delimiters : Delimiters
  line : Nat
  endLine : Nat
  tag : Tag
  deriving DecidableEq

def Token.source (token : Token) : Text :=
  token.text ++ token.padding ++ token.delimiters.opening ++ token.raw ++
    token.delimiters.closing ++ token.trail

def Tag.delimitersAfter (tag : Tag) (inForce : Delimiters) : Delimiters :=
  match tag with
  | .delimiters (some pair) => pair
  | _ => inForce

inductive Step where
  | finish (tail : Text) (last : Cursor)
  | fault (error : ParseError)
  | token (token : Token) (next : Cursor)

def Cursor.step (c : Cursor) : Step :=
  match c.readText with
  | (.toEnd tail, last) => .finish tail last
  | (.beforeTag text padding lineStart, atTag) =>
      match atTag.readTag lineStart with
      | (.error error, _) => .fault error
      | (.ok span, next) =>
          match Tag.ofBody span.body with
          | .error fault => .fault ⟨fault, next.line⟩
          | .ok tag =>
              -- The token keeps the pair it was read with; a new pair holds after it.
              .token
                { text, padding, lineStart, raw := span.raw, trail := span.trail,
                  standalone := span.standalone, delimiters := c.delimiters,
                  line := span.line, endLine := next.line, tag }
                (next.setDelimiters (tag.delimitersAfter c.delimiters))

theorem Cursor.length_step_lt {c next : Cursor} {token : Token}
    (stepped : c.step = .token token next) : next.rest.length < c.rest.length := by
  unfold Cursor.step at stepped
  split at stepped
  · cases stepped
  · next text padding lineStart atTag found =>
      have reached := Cursor.length_read_text_le found
      split at stepped
      · cases stepped
      · next span after read =>
          have consumed := Cursor.length_read_tag_lt read
          split at stepped
          · cases stepped
          · cases stepped
            simp only [Cursor.setDelimiters]
            omega

theorem Cursor.length_finish_le {c last : Cursor} {tail : Text}
    (stepped : c.step = .finish tail last) : last.rest.length ≤ c.rest.length := by
  unfold Cursor.step at stepped
  split at stepped
  · next found =>
      cases stepped
      exact Cursor.length_read_text_le found
  · split at stepped
    · cases stepped
    · split at stepped <;> cases stepped

structure Ending where
  tail : Text
  line : Nat
  delimiters : Delimiters
  deriving DecidableEq

structure Scan where
  tokens : List Token
  ending : Except ParseError Ending

def Cursor.scan (c : Cursor) : Scan :=
  match stepped : c.step with
  | .finish tail last => ⟨[], .ok ⟨tail, last.line, last.delimiters⟩⟩
  | .fault error => ⟨[], .error error⟩
  | .token token next =>
      have : next.rest.length < c.rest.length := Cursor.length_step_lt stepped
      let later := next.scan
      ⟨token :: later.tokens, later.ending⟩
termination_by c.rest.length

def scan (source : Text) (delimiters : Delimiters) : Scan :=
  (Cursor.start source delimiters).scan

end Mustache
