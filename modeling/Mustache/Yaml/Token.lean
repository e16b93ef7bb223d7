import Mustache.Yaml.Scalar

/-!
The tokens of a YAML text. Indents are turned into marks for where block collections
start and end. That something is the key of a mapping shows only when its colon is
reached, so the places where a key may have started are remembered, one for each
collection that is open, and the marks for the key are put there afterwards. Such a
place is given up at the end of its line and after 1024 characters.
-/

namespace Mustache.Yaml

inductive Token where
  | version (major : Nat)
  /-- Says what a handle stands for in tags. -/
  | handle (name meaning : Text)
  | directive
  | documentStart
  | documentEnd
  | blockSequence
  | blockMapping
  | blockEnd
  | flowSequence
  | flowSequenceEnd
  | flowMapping
  | flowMappingEnd
  /-- The dash of a block sequence. -/
  | item
  | comma
  | key
  | value
  | alias (name : Text)
  | anchor (name : Text)
  /-- A tag without a handle stands for itself. -/
  | tag (handle : Option Text) (suffix : Text)
  | scalar (text : Text) (isPlain : Bool)
  deriving DecidableEq

/-- Where a key may have started. In a block mapping one must start at its indent. -/
structure KeyStart where
  /-- How many tokens come before it. -/
  before : Nat
  isRequired : Bool
  index : Nat
  line : Nat
  column : Nat

structure Reading where
  place : Place
  /-- The tokens so far, the last one first. -/
  tokens : List Token
  /-- The columns of the open block collections, innermost first. -/
  indents : List Nat
  /-- The open flow collections, innermost first: whether each is a mapping. -/
  flow : List Bool
  /-- For each open flow collection, and last for the block around them, where a key may
  have started. -/
  keys : List (Option KeyStart)
  mayStartKey : Bool

namespace Reading

def start (t : Text) : Reading :=
  let p := Place.start t
  ⟨if p.startsWith '\uFEFF' then p.next else p, [], [], [], [none], true⟩

def inFlow (r : Reading) : Bool := !r.flow.isEmpty

def least (r : Reading) : Nat :=
  match r.indents with
  | [] => 0
  | indent :: _ => indent + 1

def add (token : Token) (r : Reading) : Reading := { r with tokens := token :: r.tokens }

def take (length : Nat) (token : Token) (r : Reading) : Reading :=
  { r.add token with place := r.place.skip length }

def insert (before : Nat) (token : Token) (r : Reading) : Reading :=
  let later := r.tokens.length - before
  { r with tokens := r.tokens.take later ++ token :: r.tokens.drop later }

def allowKey (allowed : Bool) (r : Reading) : Reading := { r with mayStartKey := allowed }

def giveUp : Option KeyStart → Attempt (Option KeyStart)
  | some spot => if spot.isRequired then malformed else .ok none
  | none => .ok none

def forgetKey (r : Reading) : Attempt Reading := do
  match r.keys with
  | [] => pure r
  | spot :: outer => pure { r with keys := (← giveUp spot) :: outer }

def saveKey (r : Reading) : Attempt Reading := do
  if r.mayStartKey then
    let r ← r.forgetKey
    let p := r.place
    let isRequired := !r.inFlow && r.indents.head? = some p.column
    pure { r with
      keys := some ⟨r.tokens.length, isRequired, p.index, p.line, p.column⟩ :: r.keys.drop 1 }
  else pure r

def forgetStale (r : Reading) : Attempt Reading := do
  let keys ← r.keys.mapM fun spot =>
    if spot.any fun spot => spot.line ≠ r.place.line ∨ r.place.index - spot.index > 1024 then
      giveUp spot
    else pure spot
  pure { r with keys }

def endBlocks (isOutside : Nat → Bool) (r : Reading) : Reading :=
  let ended := r.indents.takeWhile isOutside
  { r with
    tokens := List.replicate ended.length .blockEnd ++ r.tokens
    indents := r.indents.drop ended.length }

def startsBlock (column : Nat) (r : Reading) : Bool := r.indents.head?.all (· < column)

def openBlock (column : Nat) (r : Reading) : Reading := { r with indents := column :: r.indents }

/-- Moves over blanks and comments to the next token. Tabs are blanks only inside a flow
collection. -/
def overBlanks : Nat → Reading → Reading
  | 0, r => r
  | steps + 1, r =>
      let isBlank (c : Char) : Bool := if r.inFlow then Text.isPadding c else c = ' '
      let after := (r.place.skipWhile isBlank).overComment
      match after.rest with
      | [] => { r with place := after }
      | c :: _ =>
          if isBreak c then
            overBlanks steps { r with place := after.next, mayStartKey := r.mayStartKey || !r.inFlow }
          else { r with place := after }

/-! Names and tags -/

def isNameChar (c : Char) : Bool :=
  !isFlowMark c && (('!' ≤ c && c ≤ '~') || ('\u00a0' ≤ c && c != '\uFEFF' && c.toNat < 0xFFFE) ||
    0x10000 ≤ c.toNat)

def endsName (t : Text) : Bool :=
  endsWord t || t.head?.any ("?:,[]\x7b\x7d%@\x60".toList.contains ·)

def readName (token : Text → Token) (r : Reading) : Attempt Reading := do
  let name := (r.place.rest.drop 1).takeWhile isNameChar
  let r := r.take (name.length + 1) (token name)
  if name ≠ [] ∧ endsName r.place.rest then pure r else malformed

def isTagChar (c : Char) : Bool :=
  (c.isAlphanum || "-;/?:@&=+$,_.!~*'()[]#".toList.contains c)

def decoded? (bytes : List UInt8) : Option Text :=
  (String.fromUTF8? ⟨bytes.toArray⟩).map String.toList

def escapedBytes : Nat → Text → Attempt (List UInt8)
  | steps + 1, '%' :: a :: b :: rest => do
      match hexOf? [a, b] with
      | some n => pure (UInt8.ofNat n :: (← escapedBytes steps rest))
      | none => malformed
  | _, '%' :: _ => malformed
  | _, _ => .ok []

def readSuffix : Nat → Text → Place → Attempt (Text × Place)
  | 0, out, p => .ok (out, p)
  | steps + 1, out, p =>
      let plain := p.rest.takeWhile isTagChar
      let after := p.skip plain.length
      if after.startsWith '%' then do
        let bytes ← escapedBytes after.rest.length after.rest
        match decoded? bytes with
        | some text => readSuffix steps (out ++ plain ++ text) (after.skip (3 * bytes.length))
        | none => malformed
      else .ok (out ++ plain, after)

def suffix (p : Place) : Attempt (Text × Place) := do
  let (text, next) ← readSuffix (p.rest.length + 1) [] p
  if next.index = p.index then malformed else pure (text, next)

def isHandleChar (c : Char) : Bool := c.isAlphanum || c = '-' || c = '_'

def handle? (t : Text) : Option Text :=
  match t with
  | '!' :: ' ' :: _ => some ['!']
  | '!' :: rest =>
      let name := rest.takeWhile isHandleChar
      if rest.drop name.length |>.head?.any (· = '!') then some ('!' :: (name ++ ['!'])) else none
  | _ => none

def endsTag (t : Text) : Bool := endsLine t || t.head? = some ' '

def readTag (r : Reading) : Attempt Reading := do
  let p := r.place
  let body := p.rest.drop 1
  let (token, next) ←
    if body.head? = some '<' then do
      let (text, next) ← suffix (p.skip 2)
      if next.startsWith '>' then pure (Token.tag none text, next.next) else malformed
    else if endsWord body then pure (Token.tag none ['!'], p.next)
    else if (body.takeWhile fun c => !endsTag [c]).contains '!' then
      match handle? p.rest with
      | none => malformed
      | some handle => do
          let (text, next) ← suffix (p.skip handle.length)
          pure (Token.tag (some handle) text, next)
    else do
      let (text, next) ← suffix p.next
      pure (Token.tag (some ['!']) text, next)
  if endsTag next.rest then pure { r.add token with place := next } else malformed

/-! Directives -/

def number (p : Place) : Attempt (Nat × Place) :=
  let digits := p.rest.takeWhile Char.isDigit
  if digits = [] then malformed
  else .ok (digits.foldl (fun n c => 10 * n + (c.toNat - '0'.toNat)) 0, p.skip digits.length)

def readVersion (p : Place) : Attempt (Token × Place) := do
  let (major, next) ← number p.overSpaces
  if !next.startsWith '.' then malformed
  else
    let (_, next) ← number next.next
    if endsTag next.rest then pure (.version major, next) else malformed

def readHandle (p : Place) : Attempt (Token × Place) := do
  let start := p.overSpaces
  match handle? start.rest with
  | none => malformed
  | some name =>
      let next := start.skip name.length
      if !next.startsWith ' ' then malformed
      else
        let (meaning, next) ← suffix next.overSpaces
        if endsTag next.rest then pure (.handle name meaning, next) else malformed

def readDirective (r : Reading) : Attempt Reading := do
  let r := r.endBlocks fun _ => true
  let r := (← r.forgetKey).allowKey false
  let name := (r.place.rest.drop 1).takeWhile fun c => isHandleChar c || c = ':' || c = '.'
  let p := r.place.skip (name.length + 1)
  if name = [] ∨ !endsTag p.rest then malformed
  else
    let (token, next) ←
      if name = "YAML".toList then readVersion p
      else if name = "TAG".toList then readHandle p
      else pure (.directive, p.skipWhile (!isBreak ·))
    let next := next.overSpaces.overComment
    if endsLine next.rest then pure { r.add token with place := next.next } else malformed

/-! Tokens by their first character -/

def readMarker (token : Token) (r : Reading) : Attempt Reading := do
  let r := if r.inFlow then r else r.endBlocks fun _ => true
  pure (((← r.forgetKey).allowKey false).take 3 token)

def openFlow (isMapping : Bool) (r : Reading) : Attempt Reading := do
  let r ← r.saveKey
  let r := r.take 1 (if isMapping then .flowMapping else .flowSequence)
  pure { r with flow := isMapping :: r.flow, keys := none :: r.keys, mayStartKey := true }

def closeFlow (token : Token) (r : Reading) : Attempt Reading := do
  let r := ((← r.forgetKey).allowKey false).take 1 token
  match r.flow with
  | [] => malformed
  | _ :: outer => pure { r with flow := outer, keys := r.keys.drop 1 }

def readComma (r : Reading) : Attempt Reading := do
  pure ((← (r.allowKey true).forgetKey).take 1 .comma)

def enterBlock (token : Token) (r : Reading) : Reading :=
  if r.startsBlock r.place.column then (r.openBlock r.place.column).add token else r

def readItem (r : Reading) : Attempt Reading := do
  if r.inFlow ∨ !r.mayStartKey then malformed
  else
    let r ← ((r.enterBlock .blockSequence).allowKey true).forgetKey
    pure (r.take 1 .item)

def readKey (r : Reading) : Attempt Reading := do
  if !r.inFlow ∧ !r.mayStartKey then malformed
  else
    let r := if r.inFlow then r else r.enterBlock .blockMapping
    let r ← (r.allowKey (!r.inFlow)).forgetKey
    pure (r.take 1 .key)

def readValue (r : Reading) : Attempt Reading := do
  match r.keys with
  | some spot :: outer =>
      let r := ({ r with keys := none :: outer }).insert spot.before .key
      let r := if !r.inFlow && r.startsBlock spot.column then
          (r.openBlock spot.column).insert spot.before .blockMapping
        else r
      pure ((r.allowKey false).take 1 .value)
  | _ =>
      if !r.inFlow ∧ !r.mayStartKey then malformed
      else
        let r := if r.inFlow then r else r.enterBlock .blockMapping
        let r ← (r.allowKey (!r.inFlow)).forgetKey
        pure (r.take 1 .value)

/-- Whether a colon here ends a key. Inside a flow sequence, and right after another colon
of a flow mapping, a word may start with it; `isPending` tells whether the last token may
still become part of a key. -/
def endsKey (isPending : Bool) (r : Reading) : Bool :=
  let alone := endsWord (r.place.rest.drop 1)
  match r.flow with
  | [] => alone
  | false :: _ => alone
  | true :: _ => alone || !(isPending && r.tokens.head? = some .value)

def readBlockScalar (folds : Bool) (r : Reading) : Attempt Reading := do
  let r ← (r.allowKey true).forgetKey
  let (text, next) ← blockScalar folds r.least r.place
  pure { r.add (.scalar text false) with place := next }

def readQuotedScalar (quote : Char) (r : Reading) : Attempt Reading := do
  let r := (← r.saveKey).allowKey false
  let (text, next) ← quotedScalar quote r.place
  pure { r.add (.scalar text false) with place := next }

def readPlainScalar (r : Reading) : Attempt Reading := do
  let r ← r.saveKey
  let scalar := plainScalar r.inFlow r.least r.place
  pure { r.add (.scalar scalar.text true) with
    place := scalar.next, mayStartKey := scalar.endsWithBreak }

def readToken (isPending : Bool) (c : Char) (rest : Text) (r : Reading) : Attempt Reading := do
  let atStart := r.place.column = 0
  if atStart ∧ c = '%' then r.readDirective
  else if atStart ∧ startsTripled '-' (c :: rest) then r.readMarker .documentStart
  else if atStart ∧ startsTripled '.' (c :: rest) then r.readMarker .documentEnd
  else if c = '[' then r.openFlow false
  else if c = '\x7b' then r.openFlow true
  else if c = ']' then r.closeFlow .flowSequenceEnd
  else if c = '\x7d' then r.closeFlow .flowMappingEnd
  else if c = ',' then r.readComma
  else if c = '-' ∧ endsWord rest then r.readItem
  else if c = '?' ∧ (r.inFlow ∨ endsWord rest) then r.readKey
  else if c = ':' ∧ r.endsKey isPending then r.readValue
  else if c = '*' then do ((← r.saveKey).allowKey false).readName .alias
  else if c = '&' then do ((← r.saveKey).allowKey false).readName .anchor
  else if c = '!' then do ((← r.saveKey).allowKey false).readTag
  else if c = '|' ∧ !r.inFlow then r.readBlockScalar false
  else if c = '>' ∧ !r.inFlow then r.readBlockScalar true
  else if c = '\'' ∨ c = '"' then r.readQuotedScalar c
  else if startsPlain r.inFlow (c :: rest) then r.readPlainScalar
  else malformed

/-- Reads all tokens. Every step but the last reads at least one character. -/
def run : Nat → Reading → Attempt (List Token)
  | 0, _ => malformed
  | steps + 1, r => do
      let r ← r.forgetStale
      let isPending := r.keys.any Option.isSome
      let r ← (r.overBlanks (r.place.rest.length + 1)).forgetStale
      match r.place.rest with
      | [] =>
          let r := if r.inFlow then r else r.endBlocks fun _ => true
          pure (← r.forgetKey).tokens.reverse
      | c :: rest =>
          let r := if r.inFlow then r else r.endBlocks (r.place.column < ·)
          run steps (← r.readToken isPending c rest)

end Reading

def tokens (t : Text) : Attempt (List Token) := Reading.run (t.length + 1) (.start t)

end Mustache.Yaml
