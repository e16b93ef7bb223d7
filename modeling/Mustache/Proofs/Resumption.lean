import Mustache.Proofs.Scanning

/-!
A scan that goes on. A text that ends a line is scanned in the same way whatever
follows it, and what follows is scanned as if it stood alone: with the delimiters then
in force, its lines counted on, and its first text put after the text left over.
-/

namespace Mustache

def ParseError.later (lines : Nat) (error : ParseError) : ParseError :=
  { error with line := error.line + lines }

def Token.later (lines : Nat) (token : Token) : Token :=
  { token with line := token.line + lines, endLine := token.endLine + lines }

def Ending.later (lines : Nat) (ending : Ending) : Ending :=
  { ending with line := ending.line + lines }

def outcomeLater {α : Type} (lines : Nat) (shift : α → α) : Except ParseError α → Except ParseError α
  | .ok result => .ok (shift result)
  | .error error => .error (error.later lines)

def Scan.later (lines : Nat) (scanned : Scan) : Scan :=
  ⟨scanned.tokens.map (·.later lines), outcomeLater lines (·.later lines) scanned.ending⟩

theorem Scan.later_zero (scanned : Scan) : scanned.later 0 = scanned := by
  obtain ⟨tokens, ending⟩ := scanned
  have same : (Token.later 0 ·) = id := rfl
  rw [Scan.later, same, List.map_id]
  cases ending with
  | error error => rfl
  | ok ending => rfl

theorem Scan.later_later (scanned : Scan) (first second : Nat) :
    (scanned.later first).later second = scanned.later (first + second) := by
  obtain ⟨tokens, ending⟩ := scanned
  have twice : (Token.later second ∘ Token.later first) = Token.later (first + second) := by
    funext token
    simp only [Function.comp, Token.later, Nat.add_assoc]
  simp only [Scan.later, List.map_map]
  rw [← twice]
  cases ending with
  | error error => simp only [outcomeLater, ParseError.later, Nat.add_assoc]
  | ok ending => simp only [outcomeLater, Ending.later, Nat.add_assoc]

def Token.behind (tail : Text) (token : Token) : Token := { token with text := tail ++ token.text }

structure Delimiters.Inline (d : Delimiters) : Prop where
  closes : d.closing ≠ []
  opening : '\n' ∉ d.opening
  closing : d.closing.getLast? ≠ some '\n'

theorem named_inline (d : Delimiters) (named : d.Named) : d.Inline where
  closes := named.closes
  opening member := absurd (named.opening '\n' member) (by decide)
  closing last := absurd (named.closing '\n' last) (by decide)

namespace Cursor

def onto (more : Text) (c : Cursor) : Cursor := { c with rest := c.rest ++ more }

theorem raw_tag_congr (c d : Cursor) (rest : c.rest = d.rest)
    (closing : c.delimiters.closing = d.delimiters.closing) : c.rawTag? = d.rawTag? := by
  rw [rawTag?, rawTag?, rest, closing]

theorem raw_tag_onto {c : Cursor} {raw : Text} (more : Text) (closes : c.delimiters.closing ≠ [])
    (found : c.rawTag? = some raw) : (c.onto more).rawTag? = some raw := by
  unfold rawTag? at found ⊢
  cases rest : c.rest with
  | nil => simp [rest, Text.upTo?, closes] at found
  | cons char ahead =>
      simp only [onto, rest, List.cons_append]
      rw [rest] at found
      split at found
      · next later same =>
          cases same
          obtain ⟨name, name_found, rfl⟩ := Option.map_eq_some_iff.mp found
          have still := Text.up_to_append _ _ more _ name_found
          rw [List.cons_append] at still
          simp [still]
      · next other =>
          have still := Text.up_to_append _ _ more _ found
          split
          · next later same =>
              cases same
              exact absurd rfl (other ahead)
          · exact still

theorem after_tag_ends {c next : Cursor} {token : Token} (ends : Text.EndsLine c.rest)
    (reads : Reads c token next) : Text.EndsLine (token.trail ++ next.rest) := by
  apply Text.ends_line_append (token.text ++ token.padding ++ token.delimiters.opening ++
    token.raw ++ token.delimiters.closing)
  rw [← List.append_assoc]
  exact reads.rest ▸ ends

-- If nothing came after the closing delimiter, the source would end with its last character.
theorem after_tag_nonempty {c next : Cursor} {token : Token} (inline : c.delimiters.Inline)
    (ends : Text.EndsLine c.rest) (reads : Reads c token next) : token.trail ++ next.rest ≠ [] := by
  intro empty
  have rest := reads.rest
  rw [Token.source, List.append_assoc, empty, List.append_nil, reads.delimiters] at rest
  rcases ends with none | last
  · have closes := inline.closes
    simp [none, closes] at rest
  · rw [rest, List.getLast?_append] at last
    cases final : c.delimiters.closing.getLast? with
    | none => exact inline.closes (List.getLast?_eq_none_iff.mp final)
    | some char =>
        rw [final] at last
        cases last
        exact inline.closing final

theorem reads_onto {c next : Cursor} {token : Token} (more : Text) (inline : c.delimiters.Inline)
    (ends : Text.EndsLine c.rest) (reads : Reads c token next) :
    Reads (c.onto more) token (next.onto more) := by
  have trail : soloTrail? token.lineStart token.raw (token.trail ++ (next.rest ++ more)) =
      soloTrail? token.lineStart token.raw (token.trail ++ next.rest) := by
    rw [soloTrail?, soloTrail?, ← List.append_assoc,
      line_end_append _ more (after_tag_nonempty inline ends reads) (after_tag_ends ends reads)]
  have opened : c.rest = token.text ++ token.padding ++ c.delimiters.opening ++
      (token.raw ++ c.delimiters.closing ++ token.trail ++ next.rest) := by
    rw [reads.rest, Token.source, reads.delimiters]
    simp only [List.append_assoc]
  have opened_onto : (c.onto more).rest = token.text ++ token.padding ++ c.delimiters.opening ++
      (token.raw ++ c.delimiters.closing ++ token.trail ++ next.rest ++ more) := by
    rw [onto, opened]
    simp only [List.append_assoc]
  -- What does not look at the text ahead is as it was.
  exact { reads with
    chunk := Text.up_to_append _ _ more _ reads.chunk
    raw := by
      have found := reads.raw
      rw [advance_over c _ _ opened] at found
      change (advance (token.text ++ token.padding ++ c.delimiters.opening).length
        (c.onto more)).rawTag? = some token.raw
      rw [advance_over (c.onto more) _ _ opened_onto]
      exact raw_tag_onto (c := ⟨_, _, _, c.delimiters⟩) more inline.closes found
    trail := trail.trans reads.trail
    rest := by rw [onto, onto, reads.rest, List.append_assoc] }

theorem ends_line_next {c next : Cursor} {token : Token} (ends : Text.EndsLine c.rest)
    (reads : Reads c token next) : Text.EndsLine next.rest :=
  Text.ends_line_append token.source next.rest (reads.rest ▸ ends)

structure Stops (c : Cursor) (ending : Ending) (last : Cursor) : Prop where
  inline : last.delimiters.Inline
  absent : Text.upTo? last.delimiters.opening last.rest = none
  tail : ending.tail = last.rest
  delimiters : ending.delimiters = last.delimiters
  source : last.source = c.source
  line : last.line + Text.newlines c.before = c.line + Text.newlines last.before
  ends : Text.EndsLine last.rest
  onto : ∀ more, (c.onto more).scan =
    ⟨c.scan.tokens ++ (last.onto more).scan.tokens, (last.onto more).scan.ending⟩

theorem scan_stops (c : Cursor) (ending : Ending) (inline : c.delimiters.Inline)
    (ends : Text.EndsLine c.rest) (ended : c.scan.ending = .ok ending) :
    ∃ last, Stops c ending last := by
  induction c using scan_induct with
  | finish c tail last stepped =>
      obtain ⟨absent, rfl, rfl⟩ := step_finish stepped
      rw [scan_finish stepped] at ended
      cases ended
      exact ⟨c, inline, absent, rfl, rfl, rfl, rfl, ends, fun more => by rw [scan_finish stepped]; rfl⟩
  | fault c error stepped =>
      rw [scan_fault stepped] at ended
      cases ended
  | token c token next stepped ih =>
      have reads := step_reads stepped
      rw [scan_token stepped] at ended
      obtain ⟨last, stops⟩ := ih (delimiters_kept named_inline reads inline)
        (ends_line_next ends reads) ended
      refine ⟨last, { stops with source := ?_, line := ?_, onto := ?_ }⟩
      · rw [stops.source, source, source, reads.rest, reads.before]
        simp
      · have line := stops.line
        rw [reads.lineAfter, reads.endLine, reads.before, Text.newlines_append,
          Text.newlines_reverse] at line
        omega
      · intro more
        have again := step_of_reads (reads_onto more inline ends reads)
        rw [scan_token again, scan_token stepped, stops.onto more]
        rfl

/-- Two cursors before the same text, one of which still has `tail` to read first and
counts `lines` lines more. Both are at the start of a line after `tail`. -/
structure Moved (tail : Text) (lines : Nat) (c d : Cursor) : Prop where
  rest : d.rest = tail ++ c.rest
  delimiters : d.delimiters = c.delimiters
  line : d.line + Text.newlines tail = c.line + lines
  before : ∃ earlier, tail.reverse ++ d.before = c.before ++ earlier ∧ startsLine earlier = true
  ends : Text.EndsLine tail
  across : Text.upTo? c.delimiters.opening (tail ++ c.rest) =
    (Text.upTo? c.delimiters.opening c.rest).map (tail ++ ·)

def Resumed (tail : Text) (lines : Nat) : Step → Step → Prop
  | .finish left last, .finish left' last' =>
      left' = tail ++ left ∧ last'.delimiters = last.delimiters ∧
        last'.line + Text.newlines tail = last.line + lines
  | .fault error, .fault error' => error' = error.later lines
  | .token token next, .token token' next' =>
      token' = (token.later lines).behind tail ∧ Moved [] lines next next'
  | _, _ => False

theorem resumed_finish {tail left : Text} {lines : Nat} {last : Cursor} {step : Step}
    (resumed : Resumed tail lines (.finish left last) step) :
    ∃ last', step = .finish (tail ++ left) last' ∧ last'.delimiters = last.delimiters ∧
      last'.line + Text.newlines tail = last.line + lines := by
  cases step with
  | finish left' last' =>
      obtain ⟨rfl, pair, line⟩ := resumed
      exact ⟨last', rfl, pair, line⟩
  | fault error => exact absurd resumed id
  | token token next => exact absurd resumed id

theorem resumed_fault {tail : Text} {lines : Nat} {error : ParseError} {step : Step}
    (resumed : Resumed tail lines (.fault error) step) : step = .fault (error.later lines) := by
  cases step with
  | fault error' => exact congrArg Step.fault resumed
  | finish left last => exact absurd resumed id
  | token token next => exact absurd resumed id

theorem resumed_token {tail : Text} {lines : Nat} {token : Token} {next : Cursor} {step : Step}
    (resumed : Resumed tail lines (.token token next) step) :
    ∃ next', step = .token ((token.later lines).behind tail) next' ∧ Moved [] lines next next' := by
  cases step with
  | token token' next' =>
      obtain ⟨rfl, onward⟩ := resumed
      exact ⟨next', rfl, onward⟩
  | finish left last => exact absurd resumed id
  | fault error => exact absurd resumed id

theorem starts_line_append (a b : Text) (start : startsLine b = true) :
    startsLine (a ++ b) = startsLine a := by
  cases a with
  | nil => exact start
  | cons c rest => rfl

-- Padding before a tag ends with the line, so what ends a line before it does not count.
theorem drop_padding_append (tail chunk : Text) (ends : Text.EndsLine tail) :
    (tail ++ chunk).reverse.dropWhile Text.isPadding =
      chunk.reverse.dropWhile Text.isPadding ++ tail.reverse := by
  have stop : tail.reverse.dropWhile Text.isPadding = tail.reverse := by
    rw [Text.ends_line_iff] at ends
    cases back : tail.reverse with
    | nil => rfl
    | cons char rest =>
        have newline : char = '\n' := by simpa [back, startsLine] using ends
        simp [newline, Text.isPadding]
  rw [List.reverse_append, List.dropWhile_append, stop]
  split
  · next blank => rw [List.isEmpty_iff.mp blank, List.nil_append]
  · rfl

theorem take_padding_append (tail chunk : Text) (ends : Text.EndsLine tail) :
    (tail ++ chunk).reverse.takeWhile Text.isPadding = chunk.reverse.takeWhile Text.isPadding := by
  have stop : tail.reverse.takeWhile Text.isPadding = [] := by
    rw [Text.ends_line_iff] at ends
    cases back : tail.reverse with
    | nil => rfl
    | cons char rest =>
        have newline : char = '\n' := by simpa [back, startsLine] using ends
        simp [newline, Text.isPadding]
  rw [List.reverse_append, List.takeWhile_append, stop, List.append_nil]
  split
  · next whole => exact (List.IsPrefix.eq_of_length (List.takeWhile_prefix _) whole).symm
  · rfl

theorem split_moved {tail : Text} {lines : Nat} {c d : Cursor} (moved : Moved tail lines c d)
    (chunk : Text) :
    atLineStart (tail ++ chunk) d.before = atLineStart chunk c.before ∧
      (∀ start, textOf start (tail ++ chunk) = tail ++ textOf start chunk) ∧
      (∀ start, paddingOf start (tail ++ chunk) = paddingOf start chunk) := by
  have drop := drop_padding_append tail chunk moved.ends
  have take := take_padding_append tail chunk moved.ends
  obtain ⟨earlier, before, start⟩ := moved.before
  refine ⟨?_, ?_, ?_⟩
  · rw [atLineStart, atLineStart, drop, List.append_assoc, before, ← List.append_assoc,
      starts_line_append _ _ start]
  · intro start
    cases start with
    | false => rfl
    | true =>
        rw [textOf, textOf, if_pos rfl, if_pos rfl, drop, List.reverse_append, List.reverse_reverse]
  · intro start
    cases start with
    | false => rfl
    | true => simp only [paddingOf, take, if_true]

theorem moved_over {tail : Text} {lines : Nat} {c d : Cursor} (moved : Moved tail lines c d)
    (read ahead : Text) (split : c.rest = read ++ ahead) :
    Moved [] lines (c.advance read.length) (d.advance (tail ++ read).length) := by
  obtain ⟨earlier, before, start⟩ := moved.before
  have line := moved.line
  rw [advance_over c read ahead split, advance_over d (tail ++ read) ahead (by
    rw [moved.rest, split, List.append_assoc])]
  exact {
    rest := rfl
    delimiters := moved.delimiters
    line := by
      simp only [Text.newlines_append, Text.newlines_nil]
      omega
    before := ⟨earlier, by simp [before], start⟩
    ends := Or.inl rfl
    across := by simp }

theorem moved_advance {lines : Nat} {c d : Cursor} (moved : Moved [] lines c d) (count : Nat) :
    Moved [] lines (c.advance count) (d.advance count) := by
  obtain ⟨earlier, before, start⟩ := moved.before
  have line := moved.line
  have rest : d.rest = c.rest := moved.rest
  exact {
    rest := by simp [advance, rest]
    delimiters := moved.delimiters
    line := by
      simp only [advance, rest, Text.newlines_nil] at line ⊢
      omega
    before := ⟨earlier, by simpa [advance, rest] using before, start⟩
    ends := Or.inl rfl
    across := by simp }

theorem moved_delimiters {lines : Nat} {c d : Cursor} (moved : Moved [] lines c d)
    (pair : Delimiters) : Moved [] lines (c.setDelimiters pair) (d.setDelimiters pair) :=
  { moved with delimiters := rfl, across := by simp }

theorem step_moved {tail : Text} {lines : Nat} {c d : Cursor} (moved : Moved tail lines c d) :
    Resumed tail lines c.step d.step := by
  rw [step_eq c, step_eq d, moved.delimiters, moved.rest, moved.across]
  cases found : Text.upTo? c.delimiters.opening c.rest with
  | none => exact ⟨rfl, moved.delimiters, moved.line⟩
  | some chunk =>
      obtain ⟨same_start, same_text, same_padding⟩ := split_moved moved chunk
      -- Once the tail is read the two cursors differ in nothing but their lines.
      have opened := moved_over moved (chunk ++ c.delimiters.opening) _ (Text.eq_of_up_to found)
      rw [← List.append_assoc] at opened
      simp only [Option.map_some, ← List.length_append]
      generalize at_tag : c.advance (chunk ++ c.delimiters.opening).length = atTag at opened
      generalize at_tag' : d.advance (tail ++ chunk ++ c.delimiters.opening).length = atTag'
        at opened
      rw [raw_tag_congr atTag' atTag opened.rest (by rw [opened.delimiters]), same_start]
      cases atTag.rawTag? with
      | none => exact congrArg _ opened.line
      | some raw =>
          have closed := moved_advance opened (raw ++ c.delimiters.closing).length
          dsimp only
          generalize atTag.advance (raw ++ c.delimiters.closing).length = after at closed
          generalize atTag'.advance (raw ++ c.delimiters.closing).length = after' at closed
          by_cases visible : raw.trim = []
          · rw [if_pos visible, if_pos visible]
            exact congrArg _ closed.line
          · have same_rest : after'.rest = after.rest := closed.rest
            rw [if_neg visible, if_neg visible, same_rest]
            generalize soloTrail? (atLineStart chunk c.before) raw after.rest = trail
            have past := moved_advance closed (trail.getD []).length
            generalize after.advance (trail.getD []).length = next at past
            generalize after'.advance (trail.getD []).length = next' at past
            cases Tag.ofBody raw.trim with
            | error fault => exact congrArg _ past.line
            | ok tag =>
                refine ⟨?_, moved_delimiters past _⟩
                have line := opened.line
                have end_line := past.line
                simp only [Text.newlines_nil, Nat.add_zero] at line end_line
                simp only [tokenAt, Token.later, Token.behind, same_start, same_text, same_padding,
                  moved.delimiters, ← List.length_append, at_tag, at_tag', line, end_line]

theorem scan_moved {lines : Nat} {c d : Cursor} (moved : Moved [] lines c d) :
    d.scan = c.scan.later lines := by
  -- After the first token no text is left over, and the two scans stay side by side.
  induction c using scan_induct generalizing d with
  | finish c left last stepped =>
      obtain ⟨last', stepped', pair, line⟩ := resumed_finish (stepped ▸ step_moved moved)
      simp only [Text.newlines_nil, Nat.add_zero] at line
      rw [scan_finish stepped, scan_finish stepped', pair, line]
      rfl
  | fault c error stepped =>
      have stepped' := resumed_fault (stepped ▸ step_moved moved)
      rw [scan_fault stepped, scan_fault stepped']
      rfl
  | token c token next stepped ih =>
      obtain ⟨next', stepped', onward⟩ := resumed_token (stepped ▸ step_moved moved)
      rw [scan_token stepped, scan_token stepped', ih onward]
      rfl

theorem scan_at_line (source : Text) (line lines : Nat) (pair : Delimiters) :
    (⟨[], source, line + lines, pair⟩ : Cursor).scan =
      (⟨[], source, line, pair⟩ : Cursor).scan.later lines :=
  scan_moved
    { rest := rfl
      delimiters := rfl
      line := rfl
      before := ⟨[], rfl, rfl⟩
      ends := Or.inl rfl
      across := by simp }

theorem moved_of_stops {s more : Text} {line lines : Nat} {pair : Delimiters} {ending : Ending}
    {last : Cursor} (stops : Stops ⟨[], s, line + lines, pair⟩ ending last)
    (ends : Text.EndsLine s) :
    Moved ending.tail (lines + Text.newlines s) ⟨[], more, line, ending.delimiters⟩
      (last.onto more) := by
  have source := congrArg Text.newlines stops.source
  have counted := stops.line
  have reversed : ending.tail.reverse ++ last.before = s.reverse := by
    have whole : last.source = s := stops.source
    rw [stops.tail, ← whole, Cursor.source, List.reverse_append, List.reverse_reverse]
  simp only [Cursor.source, Text.newlines_append, Text.newlines_reverse, Text.newlines_nil,
    List.reverse_nil, List.nil_append, Nat.add_zero] at source counted
  exact {
    rest := by rw [stops.tail]; rfl
    delimiters := stops.delimiters.symm
    line := by
      rw [stops.tail]
      dsimp only [Cursor.onto]
      omega
    before := ⟨s.reverse, reversed, (Text.ends_line_iff s).mp ends⟩
    ends := stops.tail ▸ stops.ends
    across := by
      rw [stops.tail, stops.delimiters]
      exact Text.up_to_across _ _ more stops.inline.opening stops.ends stops.absent }

end Cursor
end Mustache
