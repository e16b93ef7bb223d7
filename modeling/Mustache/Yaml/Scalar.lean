import Mustache.Yaml.Failure
import Mustache.Yaml.Place

/-!
Reading scalars. Where a scalar goes on over several lines, a single line break is a
space and each empty line after it a line break; the lines of a block scalar are kept
unless it is folded. Each reader takes steps as long as there is text, so as many steps
as there are characters are enough.
-/

namespace Mustache.Yaml

def folded (first : Char) (breaks : Text) : Text :=
  if breakText first ≠ ['\n'] then breakText first ++ breaks
  else if breaks = [] then [' ']
  else breaks

/-! Scalars without quotes -/

def startsPlain (flow : Bool) : Text → Bool
  | [] => false
  | c :: rest =>
      if c = '-' then !endsWord rest
      else if c = ':' then if flow then !rest.head?.any Text.isPadding else !endsWord rest
      else if c = '?' then !flow && !endsWord rest
      else !endsWord [c] && !isFlowMark c && !("#&*!|>'\"%@\x60".toList.contains c)

def plainWord (flow : Bool) : Text → Text
  | [] => []
  | c :: rest =>
      if c = ':' then if endsWord rest then [] else c :: plainWord flow rest
      else if endsWord [c] || (flow && isFlowMark c) then []
      else c :: plainWord flow rest

structure Gap where
  text : Text
  next : Place
  hasBreak : Bool

/-- Moves over empty lines and indents. `none` stands for the breaks in front of a line that
starts or ends a document. -/
def plainBreaks : Nat → Text → Place → Option Text × Place
  | 0, breaks, p => (some breaks, p)
  | steps + 1, breaks, p =>
      match p.rest with
      | [] => (some breaks, p)
      | c :: rest =>
          if c = ' ' then plainBreaks steps breaks p.next
          else if isBreak c then
            if startsMarker rest then (none, p.next)
            else plainBreaks steps (breaks ++ breakText c) p.next
          else (some breaks, p)

def plainGap (p : Place) : Gap :=
  let after := p.overSpaces
  match after.rest with
  | [] => ⟨p.rest, after, false⟩
  | c :: rest =>
      if isBreak c then
        if startsMarker rest then ⟨[], after.next, true⟩
        else match plainBreaks rest.length [] after.next with
          | (none, next) => ⟨[], next, true⟩
          | (some breaks, next) => ⟨folded c breaks, next, true⟩
      else ⟨p.rest.takeWhile (· = ' '), after, false⟩

/-- A scalar without quotes. If the text breaks off after a line break, a key may follow. -/
structure Plain where
  text : Text
  next : Place
  endsWithBreak : Bool

/-- Reads words as long as they are indented by `indent`; inside a flow collection their
indent does not matter. `gap` leads to the place `p`. -/
def readPlain (flow : Bool) (indent : Nat) : Nat → Text → Gap → Plain
  | 0, out, gap => ⟨out, gap.next, gap.hasBreak⟩
  | steps + 1, out, gap =>
      let word := plainWord flow gap.next.rest
      if word = [] ∨ gap.next.startsWith '#' then ⟨out, gap.next, gap.hasBreak⟩
      else
        let out := out ++ gap.text ++ word
        let next := plainGap (gap.next.skip word.length)
        if next.text = [] ∨ (!flow ∧ next.next.column < indent) then
          ⟨out, next.next, next.hasBreak⟩
        else readPlain flow indent steps out next

def plainScalar (flow : Bool) (indent : Nat) (p : Place) : Plain :=
  readPlain flow indent p.rest.length [] ⟨[], p, false⟩

/-! Scalars in quotes -/

def hexOf? (digits : Text) : Option Nat :=
  if digits.all fun c => c.isDigit || ('a' ≤ c && c ≤ 'f') || ('A' ≤ c && c ≤ 'F') then
    some (digits.foldl
      (fun n c => 16 * n + (if c.isDigit then c.toNat - 48 else c.toLower.toNat - 87)) 0)
  else none

def numbered (width : Nat) (t : Text) : Attempt (Char × Nat) :=
  let digits := t.take width
  match if digits.length = width then hexOf? digits else none with
  | none => malformed
  | some n =>
      if n.isValidChar then .ok (Char.ofNat n, width + 1)
      else if 0x110000 ≤ n ∧ n < 0x80000000 then
        refused "chr() arg not in range(0x110000)".toList
      else malformed

def escaped : Text → Attempt (Char × Nat)
  | [] => malformed
  | c :: rest =>
      match c with
      | '0' => .ok ('\x00', 1)
      | 'a' => .ok ('\x07', 1)
      | 'b' => .ok ('\x08', 1)
      | 't' | '\t' => .ok ('\t', 1)
      | 'n' => .ok ('\n', 1)
      | 'v' => .ok ('\x0b', 1)
      | 'f' => .ok ('\x0c', 1)
      | 'r' => .ok ('\r', 1)
      | 'e' => .ok ('\x1b', 1)
      | ' ' => .ok (' ', 1)
      | '"' => .ok ('"', 1)
      | '/' => .ok ('/', 1)
      | '\\' => .ok ('\\', 1)
      | 'N' => .ok ('\u0085', 1)
      | '_' => .ok ('\u00a0', 1)
      | 'L' => .ok ('\u2028', 1)
      | 'P' => .ok ('\u2029', 1)
      | 'x' => numbered 2 rest
      | 'u' => numbered 4 rest
      | 'U' => numbered 8 rest
      | _ => malformed

def quotedBreaks : Nat → Text → Place → Attempt (Text × Place)
  | 0, breaks, p => .ok (breaks, p)
  | steps + 1, breaks, p =>
      if startsMarker p.rest then malformed
      else
        let after := p.skipWhile Text.isPadding
        match after.rest with
        | [] => .ok (breaks, after)
        | c :: _ =>
            if isBreak c then quotedBreaks steps (breaks ++ breakText c) after.next
            else .ok (breaks, after)

def readQuoted (quote : Char) : Nat → Text → Place → Attempt (Text × Place)
  | 0, _, _ => malformed
  | steps + 1, out, p =>
      match p.rest with
      | [] => malformed
      | c :: rest =>
          if endsWord [c] then
            let padding := p.rest.takeWhile Text.isPadding
            let after := p.skip padding.length
            match after.rest with
            | [] => malformed
            | d :: _ =>
                if isBreak d then do
                  let (breaks, next) ← quotedBreaks (rest.length + 1) [] after.next
                  readQuoted quote steps ((folded d breaks).reverse ++ out) next
                else readQuoted quote steps (padding.reverse ++ out) after
          else if c = quote then
            if quote = '\'' ∧ rest.head? = some '\'' then
              readQuoted quote steps ('\'' :: out) (p.skip 2)
            else .ok (out.reverse, p.next)
          else if quote = '"' ∧ c = '\\' then
            if rest.head?.any isBreak then do
              let (breaks, next) ← quotedBreaks (rest.length + 1) [] (p.skip 2)
              readQuoted quote steps (breaks.reverse ++ out) next
            else do
              let (c, length) ← escaped rest
              readQuoted quote steps (c :: out) (p.skip (length + 1))
          else readQuoted quote steps (c :: out) p.next

def quotedScalar (quote : Char) (p : Place) : Attempt (Text × Place) :=
  readQuoted quote p.rest.length [] p.next

/-! Block scalars -/

inductive Chomping where
  | clip
  | strip
  | keep
  deriving DecidableEq

def chomping? : Text → Option Chomping
  | '+' :: _ => some .keep
  | '-' :: _ => some .strip
  | _ => none

def blockDigit? : Text → Attempt (Option Nat)
  | c :: _ =>
      if c = '0' then malformed
      else if c.isDigit then .ok (some (c.toNat - '0'.toNat))
      else .ok none
  | [] => .ok none

def blockMarks (t : Text) : Attempt (Chomping × Option Nat × Nat) := do
  match chomping? t with
  | some chomping =>
      let digit ← blockDigit? (t.drop 1)
      pure (chomping, digit, if digit.isSome then 2 else 1)
  | none =>
      let digit ← blockDigit? t
      match digit.bind fun _ => chomping? (t.drop 1) with
      | some chomping => pure (chomping, digit, 2)
      | none => pure (.clip, digit, if digit.isSome then 1 else 0)

def overBlockHeader (p : Place) : Attempt Place :=
  if p.startsWith '#' then malformed
  else
    let after := p.overSpaces.overComment
    if endsLine after.rest then .ok after.next else malformed

def blockBreaks (indent : Nat) : Nat → Text → Place → Text × Place
  | 0, breaks, p => (breaks, p)
  | steps + 1, breaks, p =>
      let after := p.overIndent indent
      match after.rest with
      | [] => (breaks, after)
      | c :: _ =>
          if isBreak c then blockBreaks indent steps (breaks ++ breakText c) after.next
          else (breaks, after)

structure BlockLead where
  breaks : Text
  /-- How many spaces the first empty line has. -/
  first : Option Nat
  /-- The most spaces in front of a break or of the first line of text. -/
  most : Nat
  next : Place

def blockLead : Nat → BlockLead → BlockLead
  | 0, lead => lead
  | steps + 1, lead =>
      let after := lead.next.overSpaces
      let most := if after.index = lead.next.index then lead.most else max lead.most after.column
      match after.rest with
      | [] => ⟨lead.breaks, lead.first, most, after⟩
      | c :: _ =>
          if isBreak c then
            blockLead steps
              ⟨lead.breaks ++ breakText c, some (lead.first.getD after.column), most, after.next⟩
          else ⟨lead.breaks, lead.first, most, after⟩

structure Block where
  text : Text
  /-- The break of the last line of text. -/
  lastBreak : Text
  breaks : Text
  next : Place

def isPadded (p : Place) : Bool := p.rest.head?.any Text.isPadding

/-- Reads the lines that start in the column `indent`. At the top of a document a line that
starts or ends a document ends the scalar. -/
def readBlock (folds top : Bool) (indent : Nat) : Nat → Block → Block
  | 0, block => block
  | steps + 1, block =>
      let p := block.next
      if p.column ≠ indent ∨ p.isEnd then block
      else
        let line := p.rest.takeWhile (!isBreak ·)
        let after := p.skip line.length
        let lastBreak := (after.rest.head?.map breakText).getD []
        let text := block.text ++ block.breaks ++ line
        let (breaks, next) := blockBreaks indent (after.rest.length + 1) [] after.next
        if (top && next.column = 0 && startsMarker next.rest) || next.column ≠ indent || next.isEnd
        then ⟨text, lastBreak, breaks, next⟩
        else
          let joined :=
            if folds && lastBreak = ['\n'] && !isPadded p && !isPadded next then
              if breaks = [] then [' '] else []
            else lastBreak
          readBlock folds top indent steps ⟨text ++ joined, lastBreak, breaks, next⟩

/-- Reads a block scalar that starts with its mark, below a node whose content starts in the
column `least`. Unless the indent is given, the first line of text decides it. -/
def blockScalar (folds : Bool) (least : Nat) (p : Place) : Attempt (Text × Place) := do
  let (chomping, given, length) ← blockMarks (p.rest.drop 1)
  let start ← overBlockHeader (p.skip (length + 1))
  let steps := start.rest.length + 1
  let (indent, breaks, next) ← match given with
    | some n =>
        let indent := max least 1 + n - 1
        let (breaks, next) := blockBreaks indent steps [] start
        pure (indent, breaks, next)
    | none =>
        let lead := blockLead steps ⟨[], none, 0, start⟩
        if lead.first.any (fun first => 0 < first ∧ first < lead.most) then malformed
        else pure (max least lead.most, lead.breaks, lead.next)
  let block := readBlock folds (least = 0 && given.isNone) indent steps ⟨[], [], breaks, next⟩
  pure (match chomping with
    | .strip => block.text
    | .clip => block.text ++ block.lastBreak
    | .keep => block.text ++ block.lastBreak ++ block.breaks, block.next)

end Mustache.Yaml
