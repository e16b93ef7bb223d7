import Mustache.Proofs.MatchedTags
import Mustache.Proofs.ParserStates

/-!
The lines that parse errors name. A tag that is at fault occupies the lines from its opening
delimiter to its closing one. An error is noticed when the tag has been read, and then names the
line that the cursor is on. This is a line of the tag, unless the tag stands alone: then the line
break behind it has been read as well, and the error names the line below.
-/

namespace Mustache

/-- Where a tag stands: from its opening delimiter up to the position after its closing one.
`trail` is what it takes with it of the rest of its line. -/
structure Site where
  start : Nat
  stop : Nat
  trail : Text

def Cursor.siteOf (c : Cursor) (chunk raw trail : Text) : Site :=
  let start := c.position + chunk.length
  ⟨start, start + (c.delimiters.opening ++ raw ++ c.delimiters.closing).length, trail⟩

open ParserState

/-- A tag that is at fault, and where it stands. -/
inductive FaultyTag (source : Text) (delimiters : Delimiters) : ParseFault → Site → Prop
  /-- No closing delimiter follows the opening one, so the tag goes on to the end. -/
  | unmatchedOpen {state : ParserState} {chunk : Text} : Reached source delimiters state →
      Text.upTo? state.cursor.delimiters.opening state.cursor.rest = some chunk →
      (state.cursor.advance (chunk ++ state.cursor.delimiters.opening).length).rawTag? = none →
      FaultyTag source delimiters .unmatchedOpenTag
        ⟨state.cursor.position + chunk.length, source.length, []⟩
  /-- Nothing but spaces stands between the delimiters. -/
  | empty {state : ParserState} {chunk raw : Text} : Reached source delimiters state →
      Text.upTo? state.cursor.delimiters.opening state.cursor.rest = some chunk →
      (state.cursor.advance (chunk ++ state.cursor.delimiters.opening).length).rawTag? = some raw →
      raw.trim = [] →
      FaultyTag source delimiters .emptyTag (state.cursor.siteOf chunk raw [])
  /-- The tag can be read, but not what it asks for. -/
  | invalidMeta {state : ParserState} {chunk raw ahead : Text} {trail : Option Text} :
      Reached source delimiters state →
      state.cursor.rest = chunk ++
        (state.cursor.delimiters.opening ++ raw ++ state.cursor.delimiters.closing) ++ ahead →
      Text.upTo? state.cursor.delimiters.opening state.cursor.rest = some chunk →
      (state.cursor.advance (chunk ++ state.cursor.delimiters.opening).length).rawTag? = some raw →
      raw.trim ≠ [] → Tag.ofBody raw.trim = .error .invalidMetaTag →
      trail = Cursor.soloTrail? (Cursor.atLineStart chunk state.cursor.before) raw ahead →
      FaultyTag source delimiters .invalidMetaTag (state.cursor.siteOf chunk raw (trail.getD []))
  /-- A closing tag where no section is open. -/
  | unmatchedClose {state : ParserState} {token : Token} {next : Cursor} {name : Text} :
      Reached source delimiters state → state.cursor.step = .token token next →
      token.tag = .closing name → state.stack.frames = [] →
      FaultyTag source delimiters .unmatchedCloseTag
        (state.cursor.siteOf (token.text ++ token.padding) token.raw token.trail)
  /-- A closing tag of another section than the innermost open one. -/
  | interleaved {state : ParserState} {token : Token} {next : Cursor} {name : Text}
      {frame : Frame} {outer : List Frame} :
      Reached source delimiters state → state.cursor.step = .token token next →
      token.tag = .closing name → state.stack.frames = frame :: outer → name ≠ frame.opened.name →
      FaultyTag source delimiters (.interleavedClosingTag name)
        (state.cursor.siteOf (token.text ++ token.padding) token.raw token.trail)
  /-- The opening tag of a section, after which no section but those opened later is closed. -/
  | unclosed {state last : ParserState} {token : Token} {next final : Cursor} {later : List Token}
      {inverted : Bool} {name tail : Text} :
      Reached source delimiters state → state.cursor.step = .token token next →
      token.tag = .opening inverted name → Reached source delimiters last →
      last.cursor.step = .finish tail final → last.tokens = state.tokens ++ token :: later →
      matchTags [] later = .ok [] →
      FaultyTag source delimiters (.unclosedSection name)
        (state.cursor.siteOf (token.text ++ token.padding) token.raw token.trail)

/-- The lines that an error may name: that of the opening delimiter if the tag or the section
does not end, and otherwise any line that the tag occupies. -/
def Site.Named (source : Text) (site : Site) (error : ParseError) : Prop :=
  match error.fault with
  | .unmatchedOpenTag | .unclosedSection _ => error.line = source.lineAt site.start
  | .emptyTag | .invalidMetaTag | .unmatchedCloseTag | .interleavedClosingTag _ =>
      source.lineAt site.start ≤ error.line ∧ error.line ≤ source.lineAt site.stop

/-- The line that the error names. It is counted on over the rest of the tag's line, where that
is read before the fault is noticed. -/
def Site.lineNamed (source : Text) (site : Site) : ParseFault → Nat
  | .unmatchedOpenTag | .unclosedSection _ => source.lineAt site.start
  | .emptyTag => source.lineAt site.stop
  | .invalidMetaTag | .unmatchedCloseTag | .interleavedClosingTag _ =>
      source.lineAt site.stop + if '\n' ∈ site.trail then 1 else 0

def ParseFault.isLate : ParseFault → Bool
  | .invalidMetaTag | .unmatchedCloseTag | .interleavedClosingTag _ => true
  | .unmatchedOpenTag | .emptyTag | .unclosedSection _ => false

/-! The lines of positions. -/
section Lines

theorem line_at_read {c : Cursor} {read ahead : Text} (line : c.line = 1 + Text.newlines c.before)
    (split : c.rest = read ++ ahead) :
    c.source.lineAt (c.position + read.length) = c.line + Text.newlines read := by
  have whole : c.source = (c.before.reverse ++ read) ++ ahead := by
    rw [Cursor.source, split, List.append_assoc]
  have length : c.position + read.length = (c.before.reverse ++ read).length := by
    simp [Cursor.position]
  rw [Text.lineAt, whole, length, List.take_left, Text.newlines_append, Text.newlines_reverse, line]
  omega

theorem trail_newlines {lineStart : Bool} {raw ahead : Text} {trail : Option Text}
    (solo : trail = Cursor.soloTrail? lineStart raw ahead) :
    Text.newlines (trail.getD []) = if '\n' ∈ trail.getD [] then 1 else 0 := by
  cases trail with
  | none => rfl
  | some trail =>
      obtain ⟨padding, brk, later, -, blank, stop, rfl⟩ :=
        (Cursor.line_end_iff _ _).mp (Cursor.of_solo_trail solo.symm).2.2
      have inline : '\n' ∉ padding := fun feed => absurd (blank _ feed) (by decide)
      have none := (Text.newlines_eq_zero_iff padding).mpr inline
      rw [Option.getD_some, Text.newlines_append, none]
      rcases stop with ⟨rfl, -⟩ | rfl | rfl <;> simp [inline, Text.newlines]

/-- A pair whose opening delimiter is on one line, and whose closing delimiter ends no line. -/
def Delimiters.Unbroken (d : Delimiters) : Prop :=
  '\n' ∉ d.opening ∧ d.closing.getLast? ≠ some '\n'

theorem unbroken_of_named (d : Delimiters) (named : d.Named) : d.Unbroken :=
  ⟨fun feed => absurd (named.opening _ feed) (by decide),
    fun feed => absurd (named.closing _ feed) (by decide)⟩

variable {source : Text} {delimiters : Delimiters} {state : ParserState}

theorem reached_line (reached : Reached source delimiters state) :
    state.cursor.line = 1 + Text.newlines state.cursor.before := by
  induction reached with
  | start => rfl
  | next _ turn ih =>
      obtain ⟨read, -⟩ := turn
      have reads := Cursor.step_reads read
      dsimp only at ih ⊢
      rw [reads.lineAfter, reads.endLine, reads.before, Text.newlines_append,
        Text.newlines_reverse, ih]
      omega

theorem reached_earlier {earlier later : List Token} {token : Token}
    (reached : Reached source delimiters state)
    (split : state.tokens = earlier ++ token :: later) :
    ∃ before next, Reached source delimiters before ∧ before.tokens = earlier ∧
      before.cursor.step = .token token next := by
  induction reached generalizing later with
  | start => simp [ParserState.start] at split
  | next reached turn ih =>
      cases turn with
      | @read tokens stack after c next last read stepped =>
          -- The tag is the last one that was read, or was read before the last one.
          rcases List.eq_nil_or_concat later with rfl | ⟨later, final, rfl⟩
          · obtain ⟨rfl, same⟩ := List.append_inj' split rfl
            cases same
            exact ⟨_, next, reached, rfl, read⟩
          · have shorter : tokens = earlier ++ token :: later := by
              have whole : tokens ++ [last] = (earlier ++ token :: later) ++ [final] := by
                simpa using split
              exact (List.append_inj' whole rfl).1
            exact ih shorter

theorem reached_opens (reached : Reached source delimiters state) :
    matchTags [] state.tokens = .ok state.stack.opens := by
  have opens := run_opens state.tokens .bottom
  rw [reached_run reached] at opens
  exact opens.symm

end Lines

/-! What a tag does to the lines, in terms of the cursor before it. -/
section Tags
variable {c : Cursor} {chunk raw trail ahead : Text}

structure Site.Lines (source : Text) (site : Site) (first last after : Nat) : Prop where
  start : source.lineAt site.start = first
  stop : source.lineAt site.stop = last
  trail : source.lineAt (site.stop + site.trail.length) = after

theorem site_lines (line : c.line = 1 + Text.newlines c.before)
    (split : c.rest =
      chunk ++ (c.delimiters.opening ++ raw ++ c.delimiters.closing) ++ trail ++ ahead) :
    (c.siteOf chunk raw trail).Lines c.source (c.line + Text.newlines chunk)
      (c.line + Text.newlines (chunk ++ (c.delimiters.opening ++ raw ++ c.delimiters.closing)))
      (c.line + Text.newlines
        (chunk ++ (c.delimiters.opening ++ raw ++ c.delimiters.closing) ++ trail)) where
  start := by
    have split' : c.rest =
        chunk ++ ((c.delimiters.opening ++ raw ++ c.delimiters.closing) ++ trail ++ ahead) := by
      rw [split]
      simp only [List.append_assoc]
    exact line_at_read line split'
  stop := by
    have split' := split
    rw [List.append_assoc] at split'
    have read := line_at_read line split'
    rwa [List.length_append, ← Nat.add_assoc] at read
  trail := by
    have read := line_at_read line split
    rwa [List.length_append, List.length_append, ← Nat.add_assoc, ← Nat.add_assoc] at read

/-- A tag with its delimiters stands ahead of the cursor. -/
theorem split_of_tag (found : Text.upTo? c.delimiters.opening c.rest = some chunk)
    (read : (c.advance (chunk ++ c.delimiters.opening).length).rawTag? = some raw) :
    ∃ ahead, c.rest =
      chunk ++ (c.delimiters.opening ++ raw ++ c.delimiters.closing) ++ ahead := by
  have opened := Text.eq_of_up_to found
  have closed := Cursor.split_of_raw_tag read
  rw [← List.length_append] at opened
  rw [Cursor.advance_over c _ _ opened] at closed
  dsimp only at closed
  rw [closed] at opened
  exact ⟨_, by simpa only [List.append_assoc] using opened⟩

theorem step_unmatched (found : Text.upTo? c.delimiters.opening c.rest = some chunk)
    (unclosed : (c.advance (chunk ++ c.delimiters.opening).length).rawTag? = none) :
    c.step = .fault ⟨.unmatchedOpenTag,
      c.line + Text.newlines (chunk ++ c.delimiters.opening)⟩ := by
  have opened := Text.eq_of_up_to found
  rw [Cursor.step_eq, found]
  dsimp only
  rw [← List.length_append, unclosed, Cursor.advance_over c _ _ opened]

theorem step_empty (found : Text.upTo? c.delimiters.opening c.rest = some chunk)
    (read : (c.advance (chunk ++ c.delimiters.opening).length).rawTag? = some raw)
    (empty : raw.trim = []) :
    c.step = .fault ⟨.emptyTag, c.line +
      Text.newlines (chunk ++ (c.delimiters.opening ++ raw ++ c.delimiters.closing))⟩ := by
  have opened := Text.eq_of_up_to found
  have closed := Cursor.split_of_raw_tag read
  rw [Cursor.step_eq, found]
  dsimp only
  rw [← List.length_append, read]
  dsimp only
  rw [if_pos empty, ← List.length_append]
  rw [Cursor.advance_over c _ _ opened] at closed ⊢
  rw [Cursor.advance_over _ _ _ closed]
  simp [Text.newlines_append, Nat.add_assoc]

theorem step_invalid {trail : Option Text} {fault : ParseFault}
    (split : c.rest = chunk ++ (c.delimiters.opening ++ raw ++ c.delimiters.closing) ++ ahead)
    (found : Text.upTo? c.delimiters.opening c.rest = some chunk)
    (read : (c.advance (chunk ++ c.delimiters.opening).length).rawTag? = some raw)
    (visible : raw.trim ≠ []) (refused : Tag.ofBody raw.trim = .error fault)
    (solo : trail = Cursor.soloTrail? (Cursor.atLineStart chunk c.before) raw ahead) :
    c.step = .fault ⟨fault, c.line + Text.newlines
      (chunk ++ (c.delimiters.opening ++ raw ++ c.delimiters.closing) ++ trail.getD [])⟩ := by
  have opened : c.rest = chunk ++ c.delimiters.opening ++
      (raw ++ c.delimiters.closing ++ ahead) := by
    rw [split]
    simp only [List.append_assoc]
  have taken : ahead = trail.getD [] ++ ahead.drop (trail.getD []).length := by
    cases trail with
    | none => rfl
    | some trail => exact Cursor.split_of_solo_trail solo.symm
  rw [Cursor.step_eq, found]
  dsimp only
  rw [← List.length_append, read]
  dsimp only
  rw [if_neg visible, refused, ← List.length_append, Cursor.advance_over c _ _ opened,
    Cursor.advance_over _ (raw ++ c.delimiters.closing) ahead rfl]
  dsimp only
  rw [← solo, Cursor.advance_over _ _ _ taken]
  simp [Text.newlines_append, Nat.add_assoc]

theorem body_fault {body : Text} {fault : ParseFault} (refused : Tag.ofBody body = .error fault) :
    fault = .invalidMetaTag := by
  unfold Tag.ofBody at refused
  split at refused
  case h_7 =>
    split at refused <;> cases refused
    rfl
  case h_8 => split at refused <;> cases refused
  all_goals cases refused

/-- Each fault of a step is that of a tag. -/
theorem step_faulty {source : Text} {delimiters : Delimiters} {state : ParserState}
    {error : ParseError} (reached : Reached source delimiters state)
    (failed : state.cursor.step = .fault error) :
    ∃ site, FaultyTag source delimiters error.fault site := by
  have stepped := failed
  rw [Cursor.step_eq] at stepped
  -- A step can fail in three ways, each of which is a tag that stands here.
  cases found : Text.upTo? state.cursor.delimiters.opening state.cursor.rest with
  | none =>
      rw [found] at stepped
      cases stepped
  | some chunk =>
      rw [found] at stepped
      dsimp only at stepped
      rw [← List.length_append] at stepped
      cases read : (state.cursor.advance
          (chunk ++ state.cursor.delimiters.opening).length).rawTag? with
      | none =>
          rw [read] at stepped
          cases stepped
          exact ⟨_, .unmatchedOpen reached found read⟩
      | some raw =>
          rw [read] at stepped
          dsimp only at stepped
          by_cases visible : raw.trim = []
          · rw [if_pos visible] at stepped
            cases stepped
            exact ⟨_, .empty reached found read visible⟩
          · rw [if_neg visible] at stepped
            cases refused : Tag.ofBody raw.trim with
            | ok tag =>
                rw [refused] at stepped
                cases stepped
            | error fault =>
                rw [refused] at stepped
                cases stepped
                cases body_fault refused
                obtain ⟨ahead, split⟩ := split_of_tag found read
                exact ⟨_, .invalidMeta reached split found read visible refused rfl⟩

theorem split_of_token {c next : Cursor} {token : Token} (reads : Cursor.Reads c token next) :
    c.rest = (token.text ++ token.padding) ++
      (c.delimiters.opening ++ token.raw ++ c.delimiters.closing) ++ token.trail ++ next.rest := by
  rw [reads.rest, Token.source, reads.delimiters]
  simp only [List.append_assoc]

theorem token_trail_newlines {c next : Cursor} {token : Token} (reads : Cursor.Reads c token next) :
    Text.newlines token.trail = if '\n' ∈ token.trail then 1 else 0 := by
  have solo := trail_newlines reads.trail.symm
  cases standalone : token.standalone with
  | true => simpa [standalone] using solo
  | false => simp [reads.noTrail standalone]

end Tags

/-! The line of each fault. -/
section Faults
variable {source : Text} {delimiters : Delimiters} {state : ParserState}

theorem parse_of_fault {error : ParseError} (reached : Reached source delimiters state)
    (failed : state.cursor.step = .fault error) : parse source delimiters = .error error := by
  rw [parse_continues reached, Cursor.scan_fault failed]
  rfl

theorem parse_of_refused {token : Token} {next : Cursor} {error : ParseError}
    (reached : Reached source delimiters state) (read : state.cursor.step = .token token next)
    (refused : state.stack.step token = .error error) : parse source delimiters = .error error := by
  rw [parse_continues reached, tree_token read, refused]
  rfl

theorem reached_site {chunk raw trail ahead : Text} (reached : Reached source delimiters state)
    (split : state.cursor.rest = chunk ++
      (state.cursor.delimiters.opening ++ raw ++ state.cursor.delimiters.closing) ++ trail ++
        ahead) :
    (state.cursor.siteOf chunk raw trail).Lines source
      (state.cursor.line + Text.newlines chunk)
      (state.cursor.line + Text.newlines (chunk ++
        (state.cursor.delimiters.opening ++ raw ++ state.cursor.delimiters.closing)))
      (state.cursor.line + Text.newlines (chunk ++
        (state.cursor.delimiters.opening ++ raw ++ state.cursor.delimiters.closing) ++ trail)) :=
  reached_source reached ▸ site_lines (reached_line reached) split

theorem late_line {token : Token} {next : Cursor} (reached : Reached source delimiters state)
    (read : state.cursor.step = .token token next) :
    let site := state.cursor.siteOf (token.text ++ token.padding) token.raw token.trail
    token.endLine = source.lineAt (site.stop + site.trail.length) ∧
      token.endLine = source.lineAt site.stop + if '\n' ∈ site.trail then 1 else 0 := by
  have reads := Cursor.step_reads read
  have lines := reached_site reached (split_of_token reads)
  have taken := token_trail_newlines reads
  have whole : token.endLine = state.cursor.line + Text.newlines (token.text ++ token.padding ++
      (state.cursor.delimiters.opening ++ token.raw ++ state.cursor.delimiters.closing) ++
        token.trail) := by
    rw [reads.endLine, Token.source, reads.delimiters]
    simp only [List.append_assoc]
  constructor
  · rw [whole, lines.trail]
  · rw [lines.stop, whole, Text.newlines_append _ token.trail, taken, ← Nat.add_assoc]
    rfl

/-- The section that is opened by a tag is the innermost one, once all that is opened after it
is closed. -/
theorem opened_innermost {last : ParserState} {token : Token} {later : List Token}
    {inverted : Bool} {name : Text} (reached : Reached source delimiters state)
    (opens : token.tag = .opening inverted name) (ended : Reached source delimiters last)
    (split : last.tokens = state.tokens ++ token :: later) (closed : matchTags [] later = .ok []) :
    last.stack.opens = ⟨name, token.line⟩ :: state.stack.opens := by
  have whole := reached_opens ended
  rw [split, match_tags_append, reached_opens reached] at whole
  have inner := match_tags_onto (⟨name, token.line⟩ :: state.stack.opens) closed
  simp only [Except.bind, matchTags, opens] at whole
  exact Except.ok.inj (whole.symm.trans inner)

theorem opened_line {token : Token} {next : Cursor} (unbroken : delimiters.Unbroken)
    (reached : Reached source delimiters state) (read : state.cursor.step = .token token next) :
    token.line = source.lineAt
      (state.cursor.siteOf (token.text ++ token.padding) token.raw token.trail).start := by
  have reads := Cursor.step_reads read
  have lines := reached_site reached (split_of_token reads)
  have kept := reached_delimiters unbroken_of_named unbroken reached
  have none := (Text.newlines_eq_zero_iff _).mpr kept.1
  rw [lines.start, reads.line, reads.delimiters, Text.newlines_append _ _, none]
  rfl

/-- A tag that is at fault makes the parse fail, with the fault at the line that is named. -/
theorem faulty_fails {fault : ParseFault} {site : Site} (unbroken : delimiters.Unbroken)
    (faulty : FaultyTag source delimiters fault site) :
    parse source delimiters = .error ⟨fault, site.lineNamed source fault⟩ ∧
      ∃ position, site.lineNamed source fault = source.lineAt position := by
  -- The first three faults come from a step, the next two from a closing tag, the last from the
  -- end.
  cases faulty with
  | @unmatchedOpen state chunk reached found unclosed =>
      have failed := parse_of_fault reached (step_unmatched found unclosed)
      have kept := reached_delimiters unbroken_of_named unbroken reached
      have none := (Text.newlines_eq_zero_iff _).mpr kept.1
      have opened := Text.eq_of_up_to found
      rw [List.append_assoc] at opened
      have start := line_at_read (reached_line reached) opened
      rw [reached_source reached] at start
      have named : state.cursor.line + Text.newlines (chunk ++ state.cursor.delimiters.opening) =
          source.lineAt (state.cursor.position + chunk.length) := by
        rw [start, Text.newlines_append, none, Nat.add_zero]
      refine ⟨?_, _, rfl⟩
      rw [failed, named]
      rfl
  | @empty state chunk raw reached found read empty =>
      have failed := parse_of_fault reached (step_empty found read empty)
      obtain ⟨ahead, split⟩ := split_of_tag found read
      rw [← List.append_nil (chunk ++ _)] at split
      have lines := reached_site reached split
      refine ⟨?_, _, rfl⟩
      rw [failed, ← lines.stop]
      rfl
  | @invalidMeta state chunk raw ahead trail reached split found read visible refused solo =>
      have failed := parse_of_fault reached (step_invalid split found read visible refused solo)
      have taken : ahead = trail.getD [] ++ ahead.drop (trail.getD []).length := by
        cases trail with
        | none => rfl
        | some trail => exact Cursor.split_of_solo_trail solo.symm
      have whole := split
      rw [taken, ← List.append_assoc] at whole
      have lines := reached_site reached whole
      have breaks := trail_newlines solo
      have named : state.cursor.line + Text.newlines (chunk ++ (state.cursor.delimiters.opening ++
          raw ++ state.cursor.delimiters.closing) ++ trail.getD []) =
          (state.cursor.siteOf chunk raw (trail.getD [])).lineNamed source .invalidMetaTag := by
        rw [Site.lineNamed, lines.stop, Text.newlines_append _ (trail.getD []), breaks,
          ← Nat.add_assoc]
        rfl
      refine ⟨?_, _, named.symm.trans lines.trail.symm⟩
      rw [failed, named]
  | @unmatchedClose state token next name reached read tag frames =>
      obtain ⟨ended, named⟩ := late_line reached read
      have refused : state.stack.step token = .error ⟨.unmatchedCloseTag, token.endLine⟩ := by
        simp [Stack.step, tag, frames]
      refine ⟨?_, _, named.symm.trans ended⟩
      rw [parse_of_refused reached read refused, named]
      rfl
  | @interleaved state token next name frame outer reached read tag frames other =>
      obtain ⟨ended, named⟩ := late_line reached read
      have refused : state.stack.step token =
          .error ⟨.interleavedClosingTag name, token.endLine⟩ := by
        simp [Stack.step, tag, frames, other]
      refine ⟨?_, _, named.symm.trans ended⟩
      rw [parse_of_refused reached read refused, named]
      rfl
  | @unclosed state last token next final later inverted name tail reached read tag ended finish
      split closed =>
      have opens := opened_innermost reached tag ended split closed
      refine ⟨?_, _, rfl⟩
      rw [parse_continues ended, Cursor.scan_finish finish, Site.lineNamed,
        ← opened_line unbroken reached read]
      obtain ⟨tokens, ⟨_ | ⟨frame, outer⟩, before⟩, c⟩ := last
      · cases opens
      · -- The innermost frame holds the section that this tag opened.
        have innermost : frame.opened = ⟨name, token.line⟩ := (List.cons.inj opens).1
        show Except.error (ParseError.mk (.unclosedSection frame.opened.name) frame.opened.line) = _
        rw [innermost]

/-- Every error of a parse is the fault of a tag. -/
theorem failed_faulty {error : ParseError} (failed : parse source delimiters = .error error) :
    ∃ site, FaultyTag source delimiters error.fault site := by
  obtain ⟨last, reached, ends⟩ := parse_ends source delimiters
  rw [failed] at ends
  generalize given : Except.error error = result at ends
  cases ends with
  | @finish tokens stack c final tail finish =>
      obtain ⟨_ | ⟨frame, outer⟩, before⟩ := stack
      · cases given
      · cases given
        -- The innermost open section has an opening tag, and that tag was read.
        rcases innermost_origin (reached_opens reached) with ⟨inside, none, -⟩ | origin
        · simp at none
        · obtain ⟨earlier, token, later, inverted, split, tag, -, closed⟩ := origin
          obtain ⟨state, next, first, rfl, read⟩ := reached_earlier reached split
          exact ⟨_, .unclosed first read tag reached finish split closed⟩
  | @fault tokens stack c error stepped =>
      cases given
      exact step_faulty reached stepped
  | @refused tokens stack c next token error read refused =>
      cases given
      unfold Stack.step at refused
      cases tag : token.tag with
      | closing name =>
          rw [tag] at refused
          obtain ⟨_ | ⟨frame, outer⟩, before⟩ := stack
          · cases refused
            exact ⟨_, .unmatchedClose reached read tag rfl⟩
          · by_cases fits : name = frame.opened.name
            · simp [fits] at refused
            · simp only [fits, if_false] at refused
              cases refused
              exact ⟨_, .interleaved reached read tag rfl fits⟩
      | _ =>
          rw [tag] at refused
          cases refused

theorem site_order {fault : ParseFault} {site : Site}
    (faulty : FaultyTag source delimiters fault site) : site.start ≤ site.stop := by
  cases faulty with
  | @unmatchedOpen state chunk reached found _ =>
      have fits := Text.length_of_up_to found
      have whole := congrArg List.length (reached_source reached)
      simp only [Cursor.source, List.length_append, List.length_reverse] at whole
      simp only [Cursor.position]
      omega
  | _ => exact Nat.le_add_right _ _

end Faults

/-- Every error of a parse is the fault of a tag, and names a line of the source. This is a line
that the tag occupies, from its opening delimiter to its closing one, or the line of its opening
delimiter where it or its section does not end; but if the tag stands alone and its fault is
noticed only after the line break behind it, then it is the line after that. -/
theorem fault_lines (source : Text) (delimiters : Delimiters) (opening : '\n' ∉ delimiters.opening)
    (closing : '\n' ∉ delimiters.closing) {error : ParseError}
    (failed : parse source delimiters = .error error) :
    (∃ site, FaultyTag source delimiters error.fault site) ∧
      (∀ state, Reached source delimiters state → state.cursor.delimiters.Unbroken) ∧
      ∀ site, FaultyTag source delimiters error.fault site →
        1 ≤ error.line ∧ error.line ≤ 1 + source.newlines ∧
        (site.Named source error ↔ ¬ (error.fault.isLate = true ∧ '\n' ∈ site.trail)) ∧
        (error.fault.isLate = true → '\n' ∈ site.trail →
          error.line = source.lineAt site.stop + 1) := by
  have unbroken : delimiters.Unbroken := ⟨opening, fun feed => closing (List.mem_of_getLast? feed)⟩
  refine ⟨failed_faulty failed, fun state => reached_delimiters unbroken_of_named unbroken, ?_⟩
  intro site faulty
  obtain ⟨fails, position, inside⟩ := faulty_fails unbroken faulty
  have order := Text.line_at_mono source (site_order faulty)
  have line : error.line = site.lineNamed source error.fault := by
    have same := Except.error.inj (failed.symm.trans fails)
    exact congrArg ParseError.line same
  have least := Text.line_at_le source position
  have first : 1 ≤ source.lineAt position := Nat.le_add_right 1 _
  rw [← inside, ← line] at least first
  -- What is left is to compare the line that is named with the lines of the tag.
  refine ⟨first, least, ?_, ?_⟩
  · unfold Site.Named
    cases fault : error.fault with
    | unmatchedOpenTag | unclosedSection name =>
        rw [fault] at line
        simpa [ParseFault.isLate, Site.lineNamed] using line
    | emptyTag =>
        rw [fault] at line
        rw [line]
        simpa [ParseFault.isLate, Site.lineNamed] using order
    | invalidMetaTag | unmatchedCloseTag | interleavedClosingTag name =>
        rw [fault] at line
        by_cases broken : '\n' ∈ site.trail
        · simp [line, Site.lineNamed, ParseFault.isLate, broken]
        · simpa [line, Site.lineNamed, ParseFault.isLate, broken] using order
  · intro late broken
    cases fault : error.fault with
    | unmatchedOpenTag | unclosedSection name | emptyTag =>
        rw [fault] at late
        cases late
    | invalidMetaTag | unmatchedCloseTag | interleavedClosingTag name =>
        rw [line, fault, Site.lineNamed, if_pos broken]

def closedPage : Text := "a\n\n\x7b\x7b/x\x7d\x7d".toList

theorem closed_page_fault :
    '\n' ∉ Delimiters.standard.opening ∧ '\n' ∉ Delimiters.standard.closing ∧
      parse closedPage .standard = .error ⟨.unmatchedCloseTag, 3⟩ ∧
      FaultyTag closedPage .standard .unmatchedCloseTag ⟨3, 9, []⟩ ∧
      Site.Named closedPage ⟨3, 9, []⟩ ⟨.unmatchedCloseTag, 3⟩ := by
  have opening : '\n' ∉ Delimiters.standard.opening := by decide
  have closing : '\n' ∉ Delimiters.standard.closing := by decide
  have failed : parse closedPage .standard = .error ⟨.unmatchedCloseTag, 3⟩ := by cbv
  have read : (Cursor.start closedPage .standard).step =
      .token ⟨['a', '\n', '\n'], [], true, ['/', 'x'], [], true, .standard, 3, 3, .closing ['x']⟩
        ⟨closedPage.reverse, [], 3, .standard⟩ := by cbv
  have faulty : FaultyTag closedPage .standard .unmatchedCloseTag ⟨3, 9, []⟩ :=
    .unmatchedClose .start read rfl rfl
  obtain ⟨-, -, lines⟩ := fault_lines closedPage .standard opening closing failed
  obtain ⟨-, -, named, -⟩ := lines _ faulty
  exact ⟨opening, closing, failed, faulty, named.mpr (by simp)⟩

def brokenPage : Text := "\x7b\x7b/a\x7d\x7d\n".toList

/-- The tag is on the first line, and the error names the second one. -/
theorem broken_page_fault :
    parse brokenPage .standard = .error ⟨.unmatchedCloseTag, 2⟩ ∧
      FaultyTag brokenPage .standard .unmatchedCloseTag ⟨0, 6, ['\n']⟩ ∧
      brokenPage.lineAt 6 = 1 ∧ ¬ Site.Named brokenPage ⟨0, 6, ['\n']⟩ ⟨.unmatchedCloseTag, 2⟩ := by
  have read : (Cursor.start brokenPage .standard).step =
      .token ⟨[], [], true, ['/', 'a'], ['\n'], true, .standard, 1, 2, .closing ['a']⟩
        ⟨brokenPage.reverse, [], 2, .standard⟩ := by cbv
  have stop : brokenPage.lineAt 6 = 1 := by cbv
  refine ⟨by cbv, .unmatchedClose .start read rfl rfl, stop, ?_⟩
  rintro ⟨-, last⟩
  have within : (2 : Nat) ≤ brokenPage.lineAt 6 := last
  omega

end Mustache
