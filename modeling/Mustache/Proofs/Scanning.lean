import Mustache.Proofs.Lines
import Mustache.Token

/-!
What one step of a scan reads. The characters of a token are taken off the text ahead
and put on the text behind, the token tells where its tag starts and ends, and the
lines are those of the characters read.
-/

namespace Mustache
namespace Cursor

theorem advance_over (c : Cursor) (read ahead : Text) (split : c.rest = read ++ ahead) :
    c.advance read.length =
      ⟨read.reverse ++ c.before, ahead, c.line + Text.newlines read, c.delimiters⟩ := by
  simp [advance, split]

def Counted (c : Cursor) : Prop := c.line = c.source.lineAt c.position

structure Passes (c : Cursor) (read : Text) (next : Cursor) : Prop where
  rest : c.rest = read ++ next.rest
  before : next.before = read.reverse ++ c.before
  line : next.line = c.line + Text.newlines read

section Passing
variable {c between next : Cursor} {read more : Text}

theorem passes_advance (n : Nat) (c : Cursor) : c.Passes (c.rest.take n) (c.advance n) where
  rest := (List.take_append_drop n c.rest).symm
  before := rfl
  line := rfl

theorem passes_nothing (c : Cursor) : c.Passes [] c := ⟨rfl, rfl, rfl⟩

theorem passes_over (first : c.Passes read between) (second : between.Passes more next) :
    c.Passes (read ++ more) next where
  rest := by rw [first.rest, second.rest, List.append_assoc]
  before := by rw [second.before, first.before, List.reverse_append, List.append_assoc]
  line := by rw [second.line, first.line, Text.newlines_append, Nat.add_assoc]

theorem passes_source (passes : c.Passes read next) : next.source = c.source := by
  rw [source, source, passes.rest, passes.before, List.reverse_append, List.reverse_reverse,
    List.append_assoc]

theorem passes_position (passes : c.Passes read next) :
    next.position = c.position + read.length := by
  rw [position, position, passes.before, List.length_append, List.length_reverse, Nat.add_comm]

theorem line_at_position (c : Cursor) :
    c.source.lineAt c.position = 1 + Text.newlines c.before := by
  have front : (c.before.reverse ++ c.rest).take c.before.reverse.length = c.before.reverse :=
    List.take_left
  rw [List.length_reverse] at front
  rw [Text.lineAt, source, position, front, Text.newlines_reverse]

theorem counted_passes (counted : c.Counted) (passes : c.Passes read next) : next.Counted := by
  rw [Counted, line_at_position] at counted ⊢
  rw [passes.line, passes.before, Text.newlines_append, Text.newlines_reverse, counted]
  omega

end Passing

def atLineStart (chunk before : Text) : Bool :=
  startsLine (chunk.reverse.dropWhile Text.isPadding ++ before)

def paddingOf (lineStart : Bool) (chunk : Text) : Text :=
  if lineStart then (chunk.reverse.takeWhile Text.isPadding).reverse else []

def textOf (lineStart : Bool) (chunk : Text) : Text :=
  if lineStart then (chunk.reverse.dropWhile Text.isPadding).reverse else chunk

/-- What a tag takes of its line, if it stands alone. -/
def soloTrail? (lineStart : Bool) (raw ahead : Text) : Option Text :=
  if lineStart && raw.trim.head?.any standaloneSigils.contains then lineEnd? ahead else none

theorem of_solo_trail {lineStart : Bool} {raw ahead trail : Text}
    (found : soloTrail? lineStart raw ahead = some trail) :
    lineStart = true ∧ raw.trim.head?.any standaloneSigils.contains = true ∧
      lineEnd? ahead = some trail := by
  unfold soloTrail? at found
  split at found
  · next may =>
      obtain ⟨start, sigil⟩ := Bool.and_eq_true_iff.mp may
      exact ⟨start, sigil, found⟩
  · cases found

theorem text_append_padding (lineStart : Bool) (chunk : Text) :
    textOf lineStart chunk ++ paddingOf lineStart chunk = chunk := by
  cases lineStart with
  | false => exact List.append_nil chunk
  | true =>
      rw [textOf, paddingOf, if_pos rfl, if_pos rfl, ← List.reverse_append,
        List.takeWhile_append_dropWhile, List.reverse_reverse]

theorem read_text_eq (c : Cursor) : c.readText =
    match Text.upTo? c.delimiters.opening c.rest with
    | none => (.toEnd c.rest, c.runOut)
    | some chunk =>
        let lineStart := atLineStart chunk c.before
        (.beforeTag (textOf lineStart chunk) (paddingOf lineStart chunk) lineStart,
          c.advance (chunk.length + c.delimiters.opening.length)) := by
  rw [readText]
  cases Text.upTo? c.delimiters.opening c.rest with
  | none => rfl
  | some chunk =>
      by_cases start : atLineStart chunk c.before = true
      · simp only [start, textOf, paddingOf, if_true]
        exact if_pos start
      · simp only [start, textOf, paddingOf]
        exact if_neg start

theorem read_tag_eq (lineStart : Bool) (c : Cursor) : c.readTag lineStart =
    match c.rawTag? with
    | none => (.error ⟨.unmatchedOpenTag, c.line⟩, c.runOut)
    | some raw =>
        let next := c.advance (raw.length + c.delimiters.closing.length)
        if raw.trim = [] then (.error ⟨.emptyTag, next.line⟩, next)
        else
          let trail := soloTrail? lineStart raw next.rest
          (.ok ⟨raw, trail.getD [], trail.isSome, c.line⟩,
            next.advance (trail.getD []).length) := by
  rw [readTag]
  cases c.rawTag? with
  | none => rfl
  | some raw =>
      cases body : raw.trim with
      | nil => simp [body]
      | cons sigil tail =>
          simp only [soloTrail?, body, List.head?_cons, Option.any_some, reduceCtorEq, if_false]
          by_cases solo : (lineStart && standaloneSigils.contains sigil) = true
          · rw [if_pos solo, if_pos solo]
            cases lineEnd? (c.advance (raw.length + c.delimiters.closing.length)).rest with
            | none => simp [advance, Text.newlines]
            | some trail => rfl
          · rw [if_neg solo, if_neg solo]
            simp [advance, Text.newlines]

def tokenAt (c next : Cursor) (chunk raw : Text) (trail : Option Text) (tag : Tag) : Token :=
  let lineStart := atLineStart chunk c.before
  { text := textOf lineStart chunk
    padding := paddingOf lineStart chunk
    lineStart
    raw
    trail := trail.getD []
    standalone := trail.isSome
    delimiters := c.delimiters
    line := (c.advance (chunk.length + c.delimiters.opening.length)).line
    endLine := next.line
    tag }

theorem step_eq (c : Cursor) : c.step =
    match Text.upTo? c.delimiters.opening c.rest with
    | none => .finish c.rest c.runOut
    | some chunk =>
        let atTag := c.advance (chunk.length + c.delimiters.opening.length)
        match atTag.rawTag? with
        | none => .fault ⟨.unmatchedOpenTag, atTag.line⟩
        | some raw =>
            let closed := atTag.advance (raw.length + c.delimiters.closing.length)
            if raw.trim = [] then .fault ⟨.emptyTag, closed.line⟩
            else
              let trail := soloTrail? (atLineStart chunk c.before) raw closed.rest
              let next := closed.advance (trail.getD []).length
              match Tag.ofBody raw.trim with
              | .error fault => .fault ⟨fault, next.line⟩
              | .ok tag =>
                  .token (tokenAt c next chunk raw trail tag)
                    (next.setDelimiters (tag.delimitersAfter c.delimiters)) := by
  rw [step, read_text_eq]
  cases Text.upTo? c.delimiters.opening c.rest with
  | none => rfl
  | some chunk =>
      dsimp only
      rw [read_tag_eq]
      cases rawTag? (c.advance (chunk.length + c.delimiters.opening.length)) with
      | none => rfl
      | some raw =>
          by_cases empty : raw.trim = []
          · simp only [empty, if_true]
            rfl
          · simp only [empty, if_false, TagSpan.body]
            cases Tag.ofBody raw.trim with
            | error fault => rfl
            | ok tag => rfl

theorem step_finish {c last : Cursor} {tail : Text} (stepped : c.step = .finish tail last) :
    Text.upTo? c.delimiters.opening c.rest = none ∧ tail = c.rest ∧ last = c.runOut := by
  rw [step_eq] at stepped
  split at stepped
  · next absent =>
      cases stepped
      exact ⟨absent, rfl, rfl⟩
  · dsimp only at stepped
    split at stepped
    · cases stepped
    · split at stepped
      · cases stepped
      · split at stepped <;> cases stepped

structure Reads (c : Cursor) (token : Token) (next : Cursor) : Prop where
  chunk : Text.upTo? c.delimiters.opening c.rest = some (token.text ++ token.padding)
  lineStart : token.lineStart = atLineStart (token.text ++ token.padding) c.before
  padding : token.padding = paddingOf token.lineStart (token.text ++ token.padding)
  raw : (c.advance (token.text ++ token.padding ++ c.delimiters.opening).length).rawTag? =
    some token.raw
  visible : token.raw.trim ≠ []
  tag : Tag.ofBody token.raw.trim = .ok token.tag
  trail : soloTrail? token.lineStart token.raw (token.trail ++ next.rest) =
    if token.standalone then some token.trail else none
  noTrail : token.standalone = false → token.trail = []
  rest : c.rest = token.source ++ next.rest
  before : next.before = token.source.reverse ++ c.before
  delimiters : token.delimiters = c.delimiters
  delimitersAfter : next.delimiters = token.tag.delimitersAfter c.delimiters
  line : token.line = c.line +
    Text.newlines (token.text ++ token.padding ++ token.delimiters.opening)
  endLine : token.endLine = c.line + Text.newlines token.source
  lineAfter : next.line = token.endLine

theorem reads_passes {c next : Cursor} {token : Token} (reads : Reads c token next) :
    c.Passes token.source next :=
  ⟨reads.rest, reads.before, reads.lineAfter.trans reads.endLine⟩

theorem raw_nonempty {c next : Cursor} {token : Token} (reads : Reads c token next) :
    token.raw ≠ [] := by
  intro empty
  exact reads.visible (by rw [empty]; rfl)

theorem of_standalone {c next : Cursor} {token : Token} (reads : Reads c token next)
    (solo : token.standalone = true) :
    token.lineStart = true ∧ token.raw.trim.head?.any standaloneSigils.contains = true ∧
      lineEnd? (token.trail ++ next.rest) = some token.trail := by
  have trail := reads.trail
  rw [solo, if_pos rfl] at trail
  exact of_solo_trail trail

theorem split_of_raw_tag {c : Cursor} {raw : Text} (found : c.rawTag? = some raw) :
    c.rest = raw ++ c.delimiters.closing ++
      c.rest.drop (raw.length + c.delimiters.closing.length) := by
  unfold rawTag? at found
  split at found
  · next rest start =>
      obtain ⟨name, name_found, rfl⟩ := Option.map_eq_some_iff.mp found
      have split := Text.eq_of_up_to name_found
      simpa [Nat.add_assoc, Nat.add_comm 1] using split
  · exact Text.eq_of_up_to found

theorem split_of_solo_trail {lineStart : Bool} {raw ahead trail : Text}
    (found : soloTrail? lineStart raw ahead = some trail) :
    ahead = trail ++ ahead.drop trail.length := by
  obtain ⟨padding, brk, later, rfl, _, _, rfl⟩ :=
    (line_end_iff ahead trail).mp (of_solo_trail found).2.2
  rw [List.drop_left]

theorem step_reads {c next : Cursor} {token : Token} (stepped : c.step = .token token next) :
    Reads c token next := by
  rw [step_eq] at stepped
  split at stepped
  · cases stepped
  · next chunk found =>
      have opened := Text.eq_of_up_to found
      rw [← List.length_append] at opened stepped
      generalize c.rest.drop (chunk ++ c.delimiters.opening).length = tagged at opened
      rw [advance_over c _ tagged opened] at stepped
      dsimp only at stepped
      split at stepped
      · cases stepped
      · next raw raw_found =>
          have closed := split_of_raw_tag raw_found
          rw [← List.length_append] at closed stepped
          dsimp only at closed
          generalize tagged.drop (raw ++ c.delimiters.closing).length = after at closed
          rw [advance_over _ _ after closed] at stepped
          split at stepped
          · cases stepped
          · next visible =>
              dsimp only at stepped
              generalize solo : soloTrail? (atLineStart chunk c.before) raw after = trail at stepped
              -- Each part of the token is split off in turn: chunk, tag, trail.
              have taken : after = trail.getD [] ++ after.drop (trail.getD []).length := by
                cases trail with
                | none => rfl
                | some trail => exact split_of_solo_trail solo
              generalize after.drop (trail.getD []).length = ahead at taken
              rw [advance_over _ _ ahead taken] at stepped
              split at stepped
              · cases stepped
              · next tag classified =>
                  cases stepped
                  have joined := text_append_padding (atLineStart chunk c.before) chunk
                  have source : c.rest = chunk ++ c.delimiters.opening ++
                      (raw ++ c.delimiters.closing) ++ trail.getD [] ++ ahead := by
                    rw [opened, closed, taken]
                    simp only [List.append_assoc]
                  exact {
                    chunk := by simpa only [tokenAt, joined] using found
                    lineStart := by simp only [tokenAt, joined]
                    padding := by simp only [tokenAt, joined]
                    raw := by
                      simp only [tokenAt, joined]
                      rw [advance_over c _ tagged opened]
                      exact raw_found
                    visible
                    tag := classified
                    trail := by
                      dsimp only [tokenAt, setDelimiters]
                      rw [← taken, solo]
                      cases trail <;> rfl
                    noTrail := by
                      dsimp only [tokenAt]
                      cases trail <;> simp
                    rest := by simp [source, Token.source, tokenAt, joined, setDelimiters]
                    before := by
                      simp only [Token.source, tokenAt, joined, setDelimiters, List.reverse_append,
                        List.append_assoc]
                    delimiters := rfl
                    delimitersAfter := rfl
                    line := by
                      simp only [tokenAt, joined]
                      rw [← List.length_append, advance_over c _ tagged opened]
                    endLine := by
                      simp [Token.source, tokenAt, joined, Text.newlines_append, Nat.add_assoc]
                    lineAfter := rfl }

theorem step_of_reads {c next : Cursor} {token : Token} (reads : Reads c token next) :
    c.step = .token token next := by
  obtain ⟨text, padding, lineStart, raw, trail, standalone, delimiters, line, endLine, tag⟩ := token
  obtain ⟨behind, ahead, next_line, next_pair⟩ := next
  obtain ⟨chunk, start, split, found, visible, classified, solo, noTrail, rest, before, pair, after,
    at_line, end_line, line_after⟩ := reads
  dsimp only [Token.source] at *
  subst pair line_after start after before at_line end_line
  have opened : c.rest = text ++ padding ++ c.delimiters.opening ++
      (raw ++ c.delimiters.closing ++ (trail ++ ahead)) := by simp [rest]
  -- The chunk can be split in one way only.
  have joined := text_append_padding (atLineStart (text ++ padding) c.before) (text ++ padding)
  rw [← split] at joined
  have text_eq := List.append_cancel_right joined
  generalize taken : soloTrail? (atLineStart (text ++ padding) c.before) raw (trail ++ ahead) =
    trail? at solo
  have trailing : trail?.getD [] = trail := by
    cases standalone with
    | true => rw [solo, if_pos rfl, Option.getD_some]
    | false => rw [solo, if_neg Bool.false_ne_true, Option.getD_none, noTrail rfl]
  have flag : trail?.isSome = standalone := by
    cases standalone <;> rw [solo] <;> rfl
  rw [step_eq, chunk]
  dsimp only
  rw [← List.length_append, found, advance_over c _ _ opened]
  dsimp only
  rw [← List.length_append, advance_over _ _ (trail ++ ahead) rfl, if_neg visible, classified]
  dsimp only
  rw [taken, trailing, advance_over _ _ ahead rfl]
  simp only [tokenAt, setDelimiters, Step.token.injEq, Token.mk.injEq, Cursor.mk.injEq]
  refine ⟨⟨text_eq, split.symm, trivial, trivial, trailing, flag, trivial, ?_, ?_, trivial⟩,
    ?_, trivial, ?_, trivial⟩
  · rw [← List.length_append, advance_over c _ _ opened]
  · simp only [Text.newlines_append, Nat.add_assoc]
  · simp only [List.reverse_append, List.append_assoc]
  · simp only [Text.newlines_append, Nat.add_assoc]

theorem scan_finish {c last : Cursor} {tail : Text} (stepped : c.step = .finish tail last) :
    c.scan = ⟨[], .ok ⟨tail, last.line, last.delimiters⟩⟩ := by
  rw [scan]
  split <;> simp_all

theorem scan_fault {c : Cursor} {error : ParseError} (stepped : c.step = .fault error) :
    c.scan = ⟨[], .error error⟩ := by
  rw [scan]
  split <;> simp_all

theorem scan_token {c next : Cursor} {token : Token} (stepped : c.step = .token token next) :
    c.scan = ⟨token :: next.scan.tokens, next.scan.ending⟩ := by
  rw [scan]
  split <;> simp_all

/-- Induction along a scan. -/
theorem scan_induct {motive : Cursor → Prop}
    (finish : ∀ c tail last, c.step = .finish tail last → motive c)
    (fault : ∀ c error, c.step = .fault error → motive c)
    (token : ∀ c token next, c.step = .token token next → motive next → motive c)
    (c : Cursor) : motive c := by
  cases stepped : c.step with
  | finish tail last => exact finish c tail last stepped
  | fault error => exact fault c error stepped
  | token read next =>
      have ahead := length_step_lt stepped
      exact token c read next stepped (scan_induct finish fault token next)
termination_by c.rest.length

/-- The tokens of a scan, written one after the other, and the text behind the last of them
give back what was ahead. -/
theorem source_of_scan {c : Cursor} {ending : Ending} (ended : c.scan.ending = .ok ending) :
    c.rest = c.scan.tokens.flatMap Token.source ++ ending.tail := by
  induction c using scan_induct with
  | finish c tail last stepped =>
      rw [scan_finish stepped] at ended ⊢
      cases ended
      exact (step_finish stepped).2.1.symm
  | fault c error stepped =>
      rw [scan_fault stepped] at ended
      cases ended
  | token c token next stepped ih =>
      rw [scan_token stepped] at ended ⊢
      rw [(step_reads stepped).rest, ih ended]
      simp

section Amid
variable {c : Cursor} {earlier later : List Token} {token : Token}

theorem reads_first (tokens : c.scan.tokens = token :: later) :
    ∃ next, Reads c token next ∧ next.scan = ⟨later, c.scan.ending⟩ := by
  cases stepped : c.step with
  | finish tail last =>
      rw [scan_finish stepped] at tokens
      cases tokens
  | fault error =>
      rw [scan_fault stepped] at tokens
      cases tokens
  | token first next =>
      rw [scan_token stepped] at tokens ⊢
      cases tokens
      exact ⟨next, step_reads stepped, rfl⟩

theorem reads_amid (tokens : c.scan.tokens = earlier ++ token :: later) :
    ∃ here next, Reads here token next ∧ next.scan = ⟨later, c.scan.ending⟩ := by
  induction earlier generalizing c with
  | nil =>
      obtain ⟨next, reads, behind⟩ := reads_first tokens
      exact ⟨c, next, reads, behind⟩
  | cons first earlier ih =>
      obtain ⟨after, reads, behind⟩ := reads_first tokens
      have remaining : after.scan.tokens = earlier ++ token :: later := by
        rw [behind]
        rfl
      obtain ⟨here, next, found, last⟩ := ih remaining
      rw [behind] at last
      exact ⟨here, next, found, last⟩

end Amid

end Cursor

/-! Delimiters that a tag puts in force: the first has no space in it, and the second
ends with no space. -/
section Changed

theorem trim_last_visible (t : Text) (c : Char) (last : t.trim.getLast? = some c) :
    Text.isSpace c = false := by
  rw [Text.trim, Text.trimRight, List.getLast?_reverse] at last
  have stop := List.head?_dropWhile_not Text.isSpace t.trimLeft.reverse
  rw [last] at stop
  simpa using stop

structure Delimiters.Named (d : Delimiters) : Prop where
  opens : d.opening ≠ []
  closes : d.closing ≠ []
  opening : ∀ c ∈ d.opening, Text.isSpace c = false
  closing : ∀ c, d.closing.getLast? = some c → Text.isSpace c = false

theorem of_meta_named (inner : Text) (d : Delimiters) (found : Delimiters.ofMeta inner = some d) :
    d.Named := by
  unfold Delimiters.ofMeta at found
  dsimp only at found
  split at found
  · cases found
  · next visible =>
      rw [not_or] at visible
      cases found
      refine ⟨visible.1, visible.2, ?_, ?_⟩
      · intro c member
        have named := List.all_eq_true.mp List.all_takeWhile c member
        simpa using named
      · intro c last
        have inside : inner.trim.getLast? = some c := by
          have tail := (List.dropWhile_suffix Text.isSpace).trans
            (List.dropWhile_suffix (l := inner.trim) (!Text.isSpace ·))
          obtain ⟨front, split⟩ := tail
          rw [← split, List.getLast?_append]
          exact Option.or_eq_some_iff.mpr (Or.inl last)
        exact trim_last_visible inner c inside

theorem of_body_named (body : Text) (d : Delimiters)
    (classified : Tag.ofBody body = .ok (.delimiters (some d))) : d.Named := by
  unfold Tag.ofBody at classified
  split at classified
  case h_7 inner =>
    split at classified
    · exact of_meta_named inner.dropLast d (by simpa using classified)
    · cases classified
  case h_8 name => split at classified <;> cases classified
  all_goals cases classified

theorem delimiters_kept {kept : Delimiters → Prop} (named : ∀ d, d.Named → kept d)
    {c next : Cursor} {token : Token} (reads : Cursor.Reads c token next)
    (now : kept c.delimiters) : kept next.delimiters := by
  rw [reads.delimitersAfter]
  have classified := reads.tag
  cases tag : token.tag with
  | delimiters pair =>
      cases pair with
      | none => exact now
      | some d => exact named d (of_body_named _ d (tag ▸ classified))
  | _ => exact now

end Changed
end Mustache
