import Mustache.Proofs.IndentedScan

/-!
Indenting a source leaves its tags as they are. The tree of the indented source has the
same tags in the same nesting, a partial that begins its line is indented further, and the
indent is written before each line of text that is not empty and holds no tag standing alone.
-/

namespace Mustache

namespace Place

def beginsLine (source : Text) (place : Place) : Bool :=
  Cursor.startsLine ((source.take place.start).reverse.dropWhile Text.isPadding)

def onLine (source : Text) (place : Place) (position : Nat) : Bool :=
  Text.newlines (source.take position) = Text.newlines (source.take place.start)

end Place

def Mark.indented (indent : Text) (begins : Bool) : Mark → Mark
  | .partialTag name old => .partialTag name ((if begins then indent else []) ++ old)
  | mark => mark

/-- What is left of a text that starts at `position`, without the positions `gone`, with
`indent` before each line that is not empty, unless it starts at a `bare` position. The
text itself does or does not start a line. -/
def Text.outsideIndented (indent : Text) (gone bare : Nat → Bool) :
    Nat → Bool → Text → Text
  | _, _, [] => []
  | position, fresh, c :: rest =>
      (if fresh && c ≠ '\n' && !bare position then indent else []) ++
        (if gone position then [] else [c]) ++
        outsideIndented indent gone bare (position + 1) (c = '\n') rest

section Outside
variable (indent : Text) (gone bare : Nat → Bool)

theorem outside_indented_append (position : Nat) (before a b : Text) :
    Text.outsideIndented indent gone bare position (Cursor.startsLine before) (a ++ b) =
      Text.outsideIndented indent gone bare position (Cursor.startsLine before) a ++
        Text.outsideIndented indent gone bare (position + a.length)
          (Cursor.startsLine (a.reverse ++ before)) b := by
  induction a generalizing position before with
  | nil => rfl
  | cons c rest ih =>
      have later := ih (position + 1) (c :: before)
      have fresh : Cursor.startsLine (c :: before) = decide (c = '\n') := rfl
      rw [fresh] at later
      rw [List.cons_append, Text.outsideIndented, Text.outsideIndented, later, List.reverse_cons,
        List.append_assoc rest.reverse, List.singleton_append, List.length_cons]
      simp only [List.append_assoc, Nat.add_assoc, Nat.add_comm 1]

theorem outside_indented_kept (position : Nat) (fresh : Bool) (t : Text)
    (kept : ∀ p, position ≤ p → p < position + t.length → gone p = false ∧ bare p = false) :
    Text.outsideIndented indent gone bare position fresh t = Text.indentFrom indent fresh t := by
  induction t generalizing position fresh with
  | nil => rfl
  | cons c rest ih =>
      simp only [List.length_cons] at kept
      obtain ⟨stays, lined⟩ := kept position (Nat.le_refl _) (by omega)
      have later (fresh : Bool) := ih (position + 1) fresh fun p low high =>
        kept p (by omega) (by omega)
      by_cases feed : c = '\n'
      · subst feed
        simp [Text.outsideIndented, Text.indent_line_break, stays, later]
      · simp [Text.outsideIndented, Text.indent_cons _ _ _ _ feed, stays, lined, later, feed]

theorem outside_indented_gone (position : Nat) (fresh : Bool) (t : Text)
    (out : ∀ p, position ≤ p → p < position + t.length → gone p = true ∧ bare p = true) :
    Text.outsideIndented indent gone bare position fresh t = [] := by
  induction t generalizing position fresh with
  | nil => rfl
  | cons c rest ih =>
      simp only [List.length_cons] at out
      obtain ⟨goes, alone⟩ := out position (Nat.le_refl _) (by omega)
      have later (fresh : Bool) := ih (position + 1) fresh fun p low high =>
        out p (by omega) (by omega)
      simp [Text.outsideIndented, goes, alone, later]

theorem outside_indented_inline (position : Nat) (fresh : Bool) (t : Text) (nonempty : t ≠ [])
    (inline : '\n' ∉ t)
    (out : ∀ p, position ≤ p → p < position + t.length → gone p = true ∧ bare p = false) :
    Text.outsideIndented indent gone bare position fresh t = if fresh then indent else [] := by
  induction t generalizing position fresh with
  | nil => exact absurd rfl nonempty
  | cons c rest ih =>
      rw [List.mem_cons, not_or] at inline
      simp only [List.length_cons] at out
      obtain ⟨goes, lined⟩ := out position (Nat.le_refl _) (by omega)
      -- Only the first position may have an indent before it.
      have later : Text.outsideIndented indent gone bare (position + 1) false rest = [] := by
        cases rest with
        | nil => rfl
        | cons next others =>
            have goes_on := ih (position + 1) false (List.cons_ne_nil _ _) inline.2
              fun p low high => out p (by omega) (by omega)
            exact goes_on
      simp [Text.outsideIndented, goes, lined, Ne.symm inline.1, later]

theorem outside_indented_congr (gone' bare' : Nat → Bool) (position : Nat) (fresh : Bool) (t : Text)
    (same : ∀ p, position ≤ p → p < position + t.length → gone p = gone' p ∧ bare p = bare' p) :
    Text.outsideIndented indent gone bare position fresh t =
      Text.outsideIndented indent gone' bare' position fresh t := by
  induction t generalizing position fresh with
  | nil => rfl
  | cons c rest ih =>
      simp only [List.length_cons] at same
      obtain ⟨goes, lined⟩ := same position (Nat.le_refl _) (by omega)
      have later (fresh : Bool) := ih (position + 1) fresh fun p low high =>
        same p (by omega) (by omega)
      simp [Text.outsideIndented, goes, lined, later]

end Outside

section Places
variable {source : Text}

theorem place_read (c : Cursor) (clear : c.Clear) (settled : c.Settled) (place : Place)
    (member : place ∈ placesFrom c.position c.scan.tokens) :
    ∃ here next, Cursor.Reads here place.token next ∧ here.Clear ∧ here.Settled ∧
      here.source = c.source ∧ place = placeAt here place.token ∧ '\n' ∉ place.token.raw := by
  obtain ⟨here, next, reads, ⟨clear, settled⟩, same, -, at_here⟩ :=
    place_kept (fun c => c.Clear ∧ c.Settled)
      (fun reads now => ⟨(Cursor.clear_next (Cursor.step_of_reads reads) now.1).2,
        settled_next (Cursor.visible_of_clear now.1).closes_visibly reads⟩) c ⟨clear, settled⟩
      place member
  have inline := (Cursor.clear_next (Cursor.step_of_reads reads) clear).1
  exact ⟨here, next, reads, clear, settled, same, at_here, inline⟩

variable {c next : Cursor} {token : Token}

theorem token_text_eq (reads : Cursor.Reads c token next) :
    token.text = Cursor.textOf token.lineStart (token.text ++ token.padding) := by
  have joined := Cursor.text_append_padding token.lineStart (token.text ++ token.padding)
  rw [← reads.padding] at joined
  exact (List.append_cancel_right joined).symm

theorem begins_line (settled : c.Settled) (reads : Cursor.Reads c token next) :
    (placeAt c token).beginsLine c.source = token.lineStart := by
  rw [Place.beginsLine, take_start reads, (look_back settled reads _).1, reads.lineStart,
    Cursor.atLineStart]

theorem text_ends_line (reads : Cursor.Reads c token next) (start : token.lineStart = true) :
    Cursor.startsLine (token.text.reverse ++ c.before) = true := by
  have text := token_text_eq reads
  have at_start := reads.lineStart
  rw [start, Cursor.textOf, if_pos rfl] at text
  rw [start, Cursor.atLineStart] at at_start
  rw [text, List.reverse_reverse, ← at_start]

theorem padding_blank (reads : Cursor.Reads c token next) :
    ∀ char ∈ token.padding, Text.isPadding char = true := by
  intro char member
  rw [reads.padding, Cursor.paddingOf] at member
  split at member
  · exact List.all_eq_true.mp List.all_takeWhile char (List.mem_reverse.mp member)
  · cases member

theorem newlines_take_break (front brk : Text) (k : Nat) (inline : '\n' ∉ front)
    (stop : brk = [] ∨ brk = ['\n'] ∨ brk = ['\r', '\n']) (inside : k < (front ++ brk).length) :
    Text.newlines ((front ++ brk).take k) = 0 := by
  have front_inline : '\n' ∉ front.take k := fun member => inline (List.mem_of_mem_take member)
  rw [List.take_append, Text.newlines_append, (Text.newlines_eq_zero_iff _).mpr front_inline]
  rw [List.length_append] at inside
  rcases stop with rfl | rfl | rfl
  · rw [List.take_nil]
    rfl
  · have none : k - front.length = 0 := by
      simp only [List.length_singleton] at inside
      omega
    rw [none]
    rfl
  · have few : k - front.length = 0 ∨ k - front.length = 1 := by
      simp only [List.length_cons, List.length_nil] at inside
      omega
    rcases few with none | one
    · rw [none]
      rfl
    · rw [one]
      rfl

theorem on_line_iff (lines taken rest : Text) (position : Nat) (ends : lines.EndsLine)
    (unbroken : ∀ k < taken.length, Text.newlines (taken.take k) = 0)
    (stops : rest = [] ∨ 0 < Text.newlines taken)
    (inside : position < (lines ++ taken ++ rest).length) :
    Text.newlines ((lines ++ taken ++ rest).take position) = Text.newlines lines ↔
      lines.length ≤ position ∧ position < lines.length + taken.length := by
  simp only [List.length_append] at inside
  rcases Nat.lt_or_ge position lines.length with earlier | reached
  · -- What is left of `lines` holds a break.
    have split := List.take_append_drop position lines
    have nonempty : lines.drop position ≠ [] := by simpa using earlier
    have feed := Text.ends_line_mem _
      (Text.ends_line_append (lines.take position) _ (split.symm ▸ ends)) nonempty
    have counted := congrArg Text.newlines split
    have broken : Text.newlines (lines.drop position) ≠ 0 :=
      fun none => (Text.newlines_eq_zero_iff _).mp none feed
    rw [Text.newlines_append] at counted
    rw [List.append_assoc, List.take_append_of_le_length (Nat.le_of_lt earlier)]
    omega
  · rcases Nat.lt_or_ge position (lines.length + taken.length) with here | later
    · have none := unbroken (position - lines.length) (by omega)
      have front : lines.take position = lines := List.take_of_length_le reached
      rw [List.append_assoc, List.take_append, front,
        List.take_append_of_le_length (by omega), Text.newlines_append, none]
      omega
    · have broken := stops.resolve_left (by
        rintro rfl
        simp only [List.length_nil] at inside
        omega)
      have front : (lines ++ taken).take position = lines ++ taken :=
        List.take_of_length_le (by rw [List.length_append]; omega)
      rw [List.take_append, front, Text.newlines_append, Text.newlines_append]
      omega

theorem covers_line (settled : c.Settled) (reads : Cursor.Reads c token next)
    (inline : '\n' ∉ token.tagText) (solo : token.standalone = true) (position : Nat)
    (inside : position < c.source.length) :
    (placeAt c token).covers c.source position = (placeAt c token).onLine c.source position := by
  obtain ⟨blank, brk, ahead, split, blanks, stop, trail⟩ :=
    (Cursor.line_end_iff _ _).mp (solo_trail_cases reads solo).1
  have starts := text_ends_line reads (Cursor.of_standalone reads solo).1
  have padded : '\n' ∉ token.padding := fun member =>
    absurd (padding_blank reads '\n' member) (by decide)
  have blanks_inline : '\n' ∉ blank := fun member => absurd (blanks '\n' member) (by decide)
  have source : c.source = (c.before.reverse ++ token.text) ++
      (token.padding ++ token.tagText ++ token.trail) ++ next.rest := by
    rw [Cursor.source, reads.rest]
    simp only [Token.source, Token.tagText, List.append_assoc]
  have ends : Text.EndsLine (c.before.reverse ++ token.text) := by
    rw [Text.ends_line_iff, List.reverse_append, List.reverse_reverse]
    exact starts
  have unbroken (k : Nat) (short : k < (token.padding ++ token.tagText ++ token.trail).length) :
      Text.newlines ((token.padding ++ token.tagText ++ token.trail).take k) = 0 := by
    rw [trail, ← List.append_assoc] at short ⊢
    apply newlines_take_break _ brk k _ _ short
    · simp only [List.mem_append, not_or]
      exact ⟨⟨padded, inline⟩, blanks_inline⟩
    · exact stop.imp_left And.left
  have stops : next.rest = [] ∨
      0 < Text.newlines (token.padding ++ token.tagText ++ token.trail) := by
    refine (solo_trail_cases reads solo).2.imp_right fun last => ?_
    have feed : '\n' ∈ token.trail := List.mem_of_getLast? last
    apply Nat.pos_of_ne_zero
    intro none
    exact (Text.newlines_eq_zero_iff _).mp none (List.mem_append_right _ feed)
  have first := first_position settled reads
  have last := last_position reads
  rw [solo, if_pos rfl, List.append_nil] at first
  rw [position_next reads] at last
  have begun : Text.newlines (c.source.take (placeAt c token).start) =
      Text.newlines (c.before.reverse ++ token.text) := by
    rw [take_start reads, ← List.append_assoc, Text.newlines_append,
      (Text.newlines_eq_zero_iff _).mpr padded]
    rfl
  -- So the line is what the tag takes with it, from its padding to the break.
  have line := on_line_iff _ _ next.rest position ends unbroken stops (source ▸ inside)
  rw [← source] at line
  rw [Place.covers, Place.onLine, begun, first, last, Bool.eq_iff_iff, Bool.and_eq_true,
    decide_eq_true_iff, decide_eq_true_iff, decide_eq_true_iff, line]
  have long := congrArg List.length source
  simp only [Token.source, Token.tagText, Cursor.position, List.length_append,
    List.length_reverse] at long ⊢
  omega

theorem tag_text_inline (visible : c.delimiters.Visible) (reads : Cursor.Reads c token next)
    (inline : '\n' ∉ token.raw) : token.tagText ≠ [] ∧ '\n' ∉ token.tagText := by
  have shown : '\n' ∉ c.delimiters.opening ++ c.delimiters.closing := by
    intro member
    exact absurd (visible.shown '\n' member) (by decide)
  have opens := visible.opens
  rw [List.mem_append, not_or] at shown
  rw [Token.tagText, reads.delimiters]
  constructor
  · simp [opens]
  · simp [shown, inline]

variable {indent : Text}

theorem indented_kept (blank : ∀ char ∈ indent, Text.isPadding char = true)
    (reads : Cursor.Reads c token next) :
    (token.indented indent (Cursor.startsLine c.before)).kept =
      if token.standalone then Text.indentFrom indent (Cursor.startsLine c.before) token.text
      else Text.indentUpTo indent c.before (token.text ++ token.padding) := by
  obtain ⟨-, text, padding⟩ :=
    chunk_indent blank c.before c.before (token.text ++ token.padding) rfl
  rw [← reads.lineStart, ← token_text_eq reads] at text
  rw [← reads.lineStart, ← reads.padding] at padding
  have joined := Cursor.text_append_padding token.lineStart
    (Text.indentUpTo indent c.before (token.text ++ token.padding))
  rw [text, padding] at joined
  rw [Token.kept, ← joined]
  cases solo : token.standalone <;> simp [Token.indented, solo]

def alone (source : Text) (places : List Place) (position : Nat) : Bool :=
  places.any fun place => place.token.standalone && place.covers source position

theorem outside_indented_token (clear : c.Clear) (settled : c.Settled)
    (blank : ∀ char ∈ indent, Text.isPadding char = true) (reads : Cursor.Reads c token next)
    (inline : '\n' ∉ token.raw) (gone bare : Nat → Bool)
    (quiet : ∀ p < next.position, gone p = false ∧ bare p = false) :
    Text.outsideIndented indent (fun p => (placeAt c token).covers c.source p || gone p)
        (fun p => token.standalone && (placeAt c token).covers c.source p || bare p)
        c.position (Cursor.startsLine c.before) c.rest =
      (token.indented indent (Cursor.startsLine c.before)).kept ++
        Text.outsideIndented indent gone bare next.position (Cursor.startsLine next.before)
          next.rest := by
  obtain ⟨nonempty, tag_inline⟩ := tag_text_inline (Cursor.visible_of_clear clear) reads inline
  -- The token in two parts: what it leaves in the text, and what the tag takes.
  obtain ⟨taken, split, tag⟩ : ∃ taken, token.source = token.kept ++ taken ∧
      (token.standalone = false → taken = token.tagText) := by
    refine ⟨(if token.standalone then token.padding else []) ++ token.tagText ++ token.trail, ?_, ?_⟩
    · cases solo : token.standalone <;> simp [Token.source, Token.kept, Token.tagText, solo]
    · intro solo
      simp [solo, reads.noTrail solo]
  have first : (placeAt c token).first c.source = c.position + token.kept.length :=
    first_position settled reads
  have last := last_position reads
  have until_next : next.position = c.position + token.kept.length + taken.length := by
    rw [position_next reads, split, List.length_append, Nat.add_assoc]
  have covered (p : Nat) : (placeAt c token).covers c.source p =
      (decide (c.position + token.kept.length ≤ p) && decide (p < next.position)) := by
    rw [Place.covers, first, last]
  have behind : taken.reverse ++ (token.kept.reverse ++ c.before) = next.before := by
    rw [reads.before, split, List.reverse_append, List.append_assoc]
  rw [reads.rest, split, List.append_assoc, outside_indented_append, outside_indented_append, behind,
    ← until_next]
  have rest := outside_indented_congr indent
    (fun p => (placeAt c token).covers c.source p || gone p)
    (fun p => token.standalone && (placeAt c token).covers c.source p || bare p) gone bare
    next.position (Cursor.startsLine next.before) next.rest fun p low _ => by
      simp [covered, Nat.not_lt.mpr low]
  have kept := outside_indented_kept indent
    (fun p => (placeAt c token).covers c.source p || gone p)
    (fun p => token.standalone && (placeAt c token).covers c.source p || bare p)
    c.position (Cursor.startsLine c.before) token.kept fun p low high => by
      simp [covered, Nat.not_le.mpr high, quiet p (by omega)]
  rw [rest, kept, indented_kept blank reads, ← List.append_assoc]
  refine congrArg (· ++ _) ?_
  -- Alone, the tag takes its line with the indent; otherwise it leaves the indent that begins the
  -- line.
  cases solo : token.standalone with
  | true =>
      have out := outside_indented_gone indent
        (fun p => (placeAt c token).covers c.source p || gone p)
        (fun p => true && (placeAt c token).covers c.source p || bare p)
        (c.position + token.kept.length) (Cursor.startsLine (token.kept.reverse ++ c.before)) taken
        fun p low high => by simp [covered, low, until_next ▸ high]
      rw [out, Token.kept, solo]
      simp
  | false =>
      have out := outside_indented_inline indent
        (fun p => (placeAt c token).covers c.source p || gone p)
        (fun p => false && (placeAt c token).covers c.source p || bare p)
        (c.position + token.kept.length) (Cursor.startsLine (token.kept.reverse ++ c.before)) taken
        (tag solo ▸ nonempty) (tag solo ▸ tag_inline)
        fun p low high => by simp [covered, low, until_next ▸ high, quiet p (by omega)]
      rw [out, Token.kept, solo]
      rfl

theorem outside_indented_scan (blank : ∀ char ∈ indent, Text.isPadding char = true)
    (clear : c.Clear) (settled : c.Settled) (ending : Ending)
    (ended : c.scan.ending = .ok ending) :
    Text.outsideIndented indent
        (fun p => (placesFrom c.position c.scan.tokens).any (·.covers c.source p))
        (alone c.source (placesFrom c.position c.scan.tokens))
        c.position (Cursor.startsLine c.before) c.rest =
      (indentTokens indent c.before c.scan.tokens).flatMap Token.kept ++
        Text.indentFrom indent
          (Cursor.startsLine ((c.scan.tokens.flatMap Token.source).reverse ++ c.before))
          ending.tail := by
  induction c using Cursor.scan_induct with
  | finish c tail last stepped =>
      rw [Cursor.scan_finish stepped] at ended ⊢
      cases ended
      rw [(Cursor.step_finish stepped).2.1]
      exact outside_indented_kept _ _ _ _ _ _ fun p _ _ => ⟨rfl, rfl⟩
  | fault c error stepped =>
      rw [Cursor.scan_fault stepped] at ended
      cases ended
  | token c token next stepped ih =>
      have reads := Cursor.step_reads stepped
      obtain ⟨inline, clear_after⟩ := Cursor.clear_next stepped clear
      have visibly := (Cursor.visible_of_clear clear).closes_visibly
      have settled_after := settled_next visibly reads
      rw [Cursor.scan_token stepped] at ended ⊢
      have rest := ih clear_after settled_after ended
      simp only [source_kept reads] at rest
      -- The places behind this tag cover nothing before the next cursor.
      have later (p : Nat) (low : p < next.position) (place : Place)
          (member : place ∈ placesFrom next.position next.scan.tokens) :
          place.covers c.source p = false := by
        have ahead := (place_facts c.source next (source_kept reads) settled_after
          (Cursor.visible_of_clear clear_after).closes_visibly place member).2.2
        rw [Place.covers, Bool.and_eq_false_iff, decide_eq_false_iff_not]
        exact Or.inl (by omega)
      have step := outside_indented_token clear settled blank reads inline
        (fun p => (placesFrom next.position next.scan.tokens).any (·.covers c.source p))
        (alone c.source (placesFrom next.position next.scan.tokens)) <| by
          intro p low
          constructor
          · rw [List.any_eq_false]
            intro place member
            simp [later p low place member]
          · rw [alone, List.any_eq_false]
            intro place member
            simp [later p low place member]
      rw [rest] at step
      simp only [indentTokens, List.flatMap_cons, List.reverse_append, List.append_assoc,
        reads.before] at step ⊢
      rw [← step]
      simp only [placesFrom, ← position_next reads]
      rfl

end Places

theorem tag_marks_indented (indent : Text) (fresh : Bool) (token : Token) :
    (token.indented indent fresh).tagMarks =
      token.tagMarks.map (·.indented indent token.lineStart) := by
  have tag : (token.indented indent fresh).tag = token.tag := rfl
  rw [Token.tagMarks, Token.tagMarks, tag]
  cases token.tag <;> rfl

theorem join_texts_tags (marks : List Mark) :
    (joinTexts marks).filter (!·.isText) = marks.filter (!·.isText) := by
  induction marks with
  | nil => rfl
  | cons mark rest ih =>
      cases mark with
      | text content =>
          have text : (Mark.text content :: rest).filter (!·.isText) = rest.filter (!·.isText) := rfl
          rw [text, ← ih, joinTexts]
          -- A text joins the text behind it, or stays alone, or leaves nothing.
          split
          · next more later joined => rw [joined]; rfl
          · next later apart =>
              by_cases empty : content = []
              · rw [if_pos empty]
              · rw [if_neg empty]
                rfl
      | _ => exact congrArg (List.cons _) ih

theorem parse_ok_tags {source : Text} {pair : Delimiters} {parsed : Parsed}
    (read : parse source pair = .ok parsed) :
    (Node.marksAll parsed.nodes).filter (!·.isText) =
      (scan source pair).tokens.flatMap Token.tagMarks := by
  obtain ⟨ending, -, marks, -⟩ := parse_ok_marks read
  have token_tags (token : Token) : token.marks.filter (!·.isText) = token.tagMarks := by
    rw [Token.marks]
    change token.tagMarks.filter (!·.isText) = _
    unfold Token.tagMarks
    cases token.tag <;> rfl
  have tail : [Mark.text ending.tail].filter (!·.isText) = [] := rfl
  rw [marks, join_texts_tags, List.filter_append, List.filter_flatMap, tail, List.append_nil]
  simp only [token_tags]

theorem parse_ok_content {source : Text} {pair : Delimiters} {parsed : Parsed}
    (read : parse source pair = .ok parsed) :
    ∃ ending, (scan source pair).ending = .ok ending ∧ parsed.delimiters = ending.delimiters ∧
      Node.contentAll parsed.nodes =
        (scan source pair).tokens.flatMap Token.kept ++ ending.tail := by
  obtain ⟨ending, ended, marks, pair⟩ := parse_ok_marks read
  refine ⟨ending, ended, pair, ?_⟩
  rw [content_marks_all, marks, join_texts_content, List.flatMap_append]
  simp [Mark.content, List.flatMap_assoc, token_content]

/-- A tree and the tree of its indented source, whose tags stand at `places`. -/
structure Reindented (indent source : Text) (places : List Place) (plain indented : Parsed) :
    Prop where
  delimiters : indented.delimiters = plain.delimiters
  tags : (Node.marksAll plain.nodes).filter (!·.isText) = places.flatMap (·.token.tagMarks)
  indentedTags : (Node.marksAll indented.nodes).filter (!·.isText) =
    places.flatMap fun place =>
      place.token.tagMarks.map (·.indented indent (place.beginsLine source))
  content : Node.contentAll plain.nodes =
    Text.outside (fun p => places.any (·.covers source p)) 0 source
  indentedContent : Node.contentAll indented.nodes =
    Text.outsideIndented indent (fun p => places.any (·.covers source p))
      (fun p => places.any fun place => place.token.standalone && place.onLine source p)
      0 true source

theorem flat_map_places {α : Type} (f : Token → List α) (position : Nat) (tokens : List Token) :
    (placesFrom position tokens).flatMap (fun place => f place.token) = tokens.flatMap f := by
  induction tokens generalizing position with
  | nil => rfl
  | cons token rest ih =>
      rw [placesFrom, List.flatMap_cons, List.flatMap_cons, ih]

theorem tags_indented (indent before : Text) (tokens : List Token) :
    (indentTokens indent before tokens).flatMap Token.tagMarks =
      tokens.flatMap fun token => token.tagMarks.map (·.indented indent token.lineStart) := by
  induction tokens generalizing before with
  | nil => rfl
  | cons token rest ih =>
      rw [indentTokens, List.flatMap_cons, List.flatMap_cons, tag_marks_indented, ih]

theorem flags_indented (indent before : Text) (tokens : List Token) :
    (indentTokens indent before tokens).map
        (fun token => (token.raw, token.tag, token.line, token.standalone)) =
      tokens.map fun token => (token.raw, token.tag, token.line, token.standalone) := by
  induction tokens generalizing before with
  | nil => rfl
  | cons token rest ih => exact congrArg (_ :: ·) (ih _)

theorem reindented_of_parse {source indent : Text} {pair : Delimiters} {plain indented : Parsed}
    (clear : (Cursor.start source pair).Clear) (blank : ∀ c ∈ indent, Text.isPadding c = true)
    (read : parse source pair = .ok plain)
    (read_indented : parse (Text.indentLines indent source) pair = .ok indented) :
    Reindented indent source (scan source pair).places plain indented := by
  have settled := settled_start source pair
  have scanned := scan_indent clear blank
  obtain ⟨ending, ended, delimiters, content⟩ := parse_ok_content read
  obtain ⟨ending', ended', delimiters', content'⟩ := parse_ok_content read_indented
  rw [scanned, Scan.indented, ended] at ended'
  cases ended'
  have visibly := (Cursor.visible_of_clear clear).closes_visibly
  -- What the flags of a token say of its place, at the cursor where it is read.
  have facts (place : Place) (member : place ∈ (scan source pair).places) :
      place.token.lineStart = place.beginsLine source ∧
        (place.token.standalone = true → ∀ p < source.length,
          place.covers source p = place.onLine source p) := by
    obtain ⟨here, next, reads, clear_here, settled_here, inside, at_place, inline⟩ :=
      place_read _ clear settled place member
    have tag := tag_text_inline (Cursor.visible_of_clear clear_here) reads inline
    have whole : here.source = source := inside
    subst whole
    constructor
    · rw [at_place]
      exact (begins_line settled_here reads).symm
    · intro solo p low
      rw [at_place]
      exact covers_line settled_here reads tag.2 solo p low
  exact {
    delimiters := by rw [delimiters', delimiters]
    tags := by rw [parse_ok_tags read, Scan.places, flat_map_places]
    indentedTags := by
      rw [parse_ok_tags read_indented, scanned]
      refine (tags_indented indent [] _).trans ((flat_map_places _ 0 _).symm.trans ?_)
      apply List.flatMap_congr
      intro place member
      rw [(facts place member).1]
    content := by
      rw [content]
      exact (outside_scan source _ rfl settled visibly ending ended).symm
    indentedContent := by
      rw [content', scanned]
      refine (outside_indented_scan blank clear settled ending ended).symm.trans ?_
      apply outside_indented_congr
      intro p low high
      refine ⟨rfl, ?_⟩
      have within : p < source.length := by simpa [Cursor.start, Cursor.position] using high
      rw [alone, Bool.eq_iff_iff, List.any_eq_true, List.any_eq_true]
      apply exists_congr
      intro place
      apply and_congr_right
      intro member
      cases solo : place.token.standalone with
      | false => exact Iff.rfl
      | true =>
          have line := (facts place member).2 solo p within
          rw [← line]
          rfl }

/-- Indenting a source by spaces and tabs, with an opening delimiter and no white space in
any of the delimiters, where no tag goes on in the next line: reading it fails as it did, or
gives the same tags, and each tag stands alone just if it did. -/
theorem parse_indent_lines {source indent : Text} {pair : Delimiters} (opens : pair.opening ≠ [])
    (visible : ∀ d ∈ (scan source pair).inForce pair, ∀ c ∈ d.opening ++ d.closing,
      Text.isSpace c = false)
    (inline : ∀ token ∈ (scan source pair).tokens, '\n' ∉ token.raw)
    (blank : ∀ c ∈ indent, Text.isPadding c = true) :
    (∀ error, parse (Text.indentLines indent source) pair = .error error ↔
        parse source pair = .error error) ∧
      (scan (Text.indentLines indent source) pair).tokens.map
          (fun token => (token.raw, token.tag, token.line, token.standalone)) =
        (scan source pair).tokens.map
          (fun token => (token.raw, token.tag, token.line, token.standalone)) ∧
      ∀ plain, parse source pair = .ok plain →
        ∃ indented, parse (Text.indentLines indent source) pair = .ok indented ∧
          Reindented indent source (scan source pair).places plain indented := by
  have clear : (Cursor.start source pair).Clear := ⟨opens, visible, inline⟩
  have scanned := scan_indent clear blank
  have errors (error : ParseError) : parse (Text.indentLines indent source) pair = .error error ↔
      parse source pair = .error error := by
    rw [parse_error_iff, parse_error_iff, scanned]
    exact flat_indented_error _ _ error
  refine ⟨errors, ?_, ?_⟩
  · rw [scanned]
    exact flags_indented indent [] _
  · intro plain read
    cases read_indented : parse (Text.indentLines indent source) pair with
    | error error =>
        rw [(errors error).mp read_indented] at read
        cases read
    | ok indented => exact ⟨indented, rfl, reindented_of_parse clear blank read read_indented⟩

theorem inline_of_raws {tokens : List Token} {raws : List Text}
    (same : tokens.map (·.raw) = raws) (inline : ∀ raw ∈ raws, '\n' ∉ raw) :
    ∀ token ∈ tokens, '\n' ∉ token.raw := by
  intro token member
  apply inline
  rw [← same]
  exact List.mem_map_of_mem member

def mixedPage : Text := " \x7b\x7b>p\x7d\x7d b\n\n\x7b\x7b#s\x7d\x7d\nc\x7b\x7b/s\x7d\x7d".toList

theorem mixed_page_indented :
    (∀ d ∈ (scan mixedPage .standard).inForce .standard, ∀ c ∈ d.opening ++ d.closing,
      Text.isSpace c = false) ∧
    (∀ token ∈ (scan mixedPage .standard).tokens, '\n' ∉ token.raw) ∧
    ∃ plain indented, parse mixedPage .standard = .ok plain ∧
      parse (Text.indentLines ['\t'] mixedPage) .standard = .ok indented ∧
      Node.contentAll indented.nodes = "\t  b\n\n\tc".toList ∧
      Reindented ['\t'] mixedPage (scan mixedPage .standard).places plain indented := by
  have shown : ((scan mixedPage .standard).inForce .standard).all
      (fun d => (d.opening ++ d.closing).all (!Text.isSpace ·)) = true := by cbv
  have raws : (scan mixedPage .standard).tokens.map (·.raw) =
      [">p".toList, "#s".toList, "/s".toList] := by cbv
  have visible : ∀ d ∈ (scan mixedPage .standard).inForce .standard,
      ∀ c ∈ d.opening ++ d.closing, Text.isSpace c = false :=
    fun d member => Text.visible_of_all (List.all_eq_true.mp shown d member)
  have inline := inline_of_raws raws (by decide)
  have read : parse mixedPage .standard =
      .ok ⟨[.text [' '], .partialTag ['p'] [' '] true, .text [' ', 'b', '\n', '\n'],
        .sectionTag ['s'] false 3 [.text ['c']]], .standard⟩ := by cbv
  have again : parse (Text.indentLines ['\t'] mixedPage) .standard =
      .ok ⟨[.text ['\t', ' '], .partialTag ['p'] ['\t', ' '] true, .text [' ', 'b', '\n', '\n'],
        .sectionTag ['s'] false 3 [.text ['\t', 'c']]], .standard⟩ := by cbv
  have blank : ∀ c ∈ ['\t'], Text.isPadding c = true := List.forall_mem_singleton.mpr rfl
  obtain ⟨indented, read_indented, reindented⟩ :=
    (parse_indent_lines (by decide) visible inline blank).2.2 _ read
  refine ⟨visible, inline, _, indented, read, read_indented, ?_, reindented⟩
  rw [again, Except.ok.injEq] at read_indented
  rw [← read_indented]
  rfl

def unopened : Delimiters := ⟨[], ['}', '}']⟩

def unopenedPage : Text := ">p\x7d\x7d=< >=\x7d\x7d".toList

theorem unopened_page_not_reindented :
    (∀ d ∈ (scan unopenedPage unopened).inForce unopened, ∀ c ∈ d.opening ++ d.closing,
      Text.isSpace c = false) ∧
    (∀ token ∈ (scan unopenedPage unopened).tokens, '\n' ∉ token.raw) ∧
    ∃ plain indented, parse unopenedPage unopened = .ok plain ∧
      parse (Text.indentLines [' ', ' '] unopenedPage) unopened = .ok indented ∧
      ¬ Reindented [' ', ' '] unopenedPage (scan unopenedPage unopened).places plain indented := by
  have shown : ((scan unopenedPage unopened).inForce unopened).all
      (fun d => (d.opening ++ d.closing).all (!Text.isSpace ·)) = true := by cbv
  have raws : (scan unopenedPage unopened).tokens.map (·.raw) =
      [">p".toList, "=< >=".toList] := by cbv
  have marks : (scan unopenedPage unopened).places.flatMap (fun place =>
      place.token.tagMarks.map (·.indented [' ', ' '] (place.beginsLine unopenedPage))) =
      [.partialTag ['p'] [' ', ' ']] := by cbv
  have read : parse unopenedPage unopened =
      .ok ⟨[.partialTag ['p'] [] true], ⟨['<'], ['>']⟩⟩ := by cbv
  have read_indented : parse (Text.indentLines [' ', ' '] unopenedPage) unopened =
      .ok ⟨[.partialTag ['p'] [] true], ⟨['<'], ['>']⟩⟩ := by cbv
  refine ⟨?_, ?_, _, _, read, read_indented, ?_⟩
  · intro d member
    exact Text.visible_of_all (List.all_eq_true.mp shown d member)
  · exact inline_of_raws raws (by decide)
  · intro reindented
    have tags := reindented.indentedTags
    rw [marks] at tags
    exact absurd tags (by simp [Node.marksAll, Node.marks, Mark.isText])

end Mustache
