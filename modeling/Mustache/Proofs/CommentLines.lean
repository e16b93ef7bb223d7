import Mustache.Proofs.TagLines

/-!
A comment on lines of its own. Put in between two lines it leaves the tree as it is, with
whatever sections are open and delimiters in force there. Only the lines behind it are
counted on.
-/

namespace Mustache

/-- A comment that stands alone, as it is written with the delimiters `pair`. -/
structure CommentLine (pair : Delimiters) where
  pad : Text
  body : Text
  trail : Text
  brk : Text
  padded : ∀ c ∈ pad, Text.isPadding c = true
  trailing : ∀ c ∈ trail, Text.isPadding c = true
  /-- The closing delimiter is not found within the comment. -/
  closed : Text.upTo? pair.closing ('!' :: body ++ pair.closing) = some ('!' :: body)
  ended : brk = ['\n'] ∨ brk = ['\r', '\n']

namespace CommentLine
variable {pair : Delimiters} (line : CommentLine pair)

def source : Text :=
  line.pad ++ pair.opening ++ ('!' :: line.body) ++ pair.closing ++ (line.trail ++ line.brk)

def tagLine (named : pair.Named) : TagLine pair where
  pad := line.pad
  sigil := '!'
  body := line.body
  trail := line.trail
  brk := line.brk
  tag := .comment
  opened := up_to_after_spaces _ _ named.opens named.opening fun c member =>
    Text.is_space_of_padding c (line.padded c member)
  closed := line.closed
  alone := by decide
  classified := by
    rw [Text.trim_cons _ _ (by decide)]
    rfl
  padded := line.padded
  trailing := line.trailing
  ended := line.ended

theorem tree_source (named : pair.Named) (post : Text) (lines : Nat) (outer : Stack) :
    ((scan (line.source ++ post) pair).later lines).tree outer =
      ((scan post pair).later (Text.newlines line.source + lines)).tree outer :=
  (line.tagLine named).tree_silent (.inl rfl) post lines outer

end CommentLine

/-! The lines before and behind a line break. -/
section Lines

theorem relined_behind (s : Text) (pair : Delimiters) (last lines : Nat) :
    ((scan s pair).later last).relined (.behind last lines) = (scan s pair).later (lines + last) := by
  -- The first line has the number one, so counting could as well start before it.
  have counted : scan s pair = (⟨[], s, 0, pair⟩ : Cursor).scan.later 1 :=
    Cursor.scan_at_line s 0 1 pair
  have raised (line : Nat) : (Relining.behind last lines).line (line + (1 + last)) =
      line + (1 + (lines + last)) := by
    simp only [Relining.behind]
    rw [if_pos (by omega)]
    omega
  rw [counted, Scan.later_later, Scan.later_later]
  generalize (⟨[], s, 0, pair⟩ : Cursor).scan = scanned
  obtain ⟨tokens, ending⟩ := scanned
  have same : Token.relined (.behind last lines) ∘ Token.later (1 + last) =
      Token.later (1 + (lines + last)) := by
    funext token
    simp only [Function.comp, Token.relined, Token.later, raised]
  simp only [Scan.relined, Scan.later, List.map_map, same]
  cases ending with
  | error error => simp only [outcomeRelined, outcomeLater, ParseError.relined, ParseError.later, raised]
  | ok ending => simp only [outcomeRelined, outcomeLater, Ending.relined, Ending.later, raised]

variable {lines : Relining} {token : Token} {stack after : Stack}

theorem step_end_line (count : Nat) (stepped : stack.step token = .ok after) :
    stack.step { token with endLine := count } = .ok after := by
  obtain ⟨frames, before⟩ := stack
  rw [Stack.step] at stepped ⊢
  cases tag : token.tag with
  | closing name =>
      rw [tag] at stepped
      cases frames with
      | nil => cases stepped
      | cons frame outer =>
          by_cases fits : name = frame.opened.name
          · simp only [fits, if_true] at stepped ⊢
            exact stepped
          · simp [fits] at stepped
  | _ =>
      rw [tag] at stepped
      exact stepped

theorem step_stays (stays : lines.line token.line = token.line)
    (kept : stack.relined lines = stack) (stepped : stack.step token = .ok after) :
    after.relined lines = after := by
  have moved := Stack.step_relined lines token stack
  have same : token.relined lines = { token with endLine := lines.line token.endLine } := by
    rw [Token.relined, stays]
  rw [kept, same, step_end_line _ stepped, stepped] at moved
  exact (Except.ok.inj moved).symm

theorem Stack.after_relined (lines : Relining) (tail : Text) (stack : Stack) :
    (stack.after tail).relined lines = (stack.relined lines).after tail := by
  rw [Stack.relined, Stack.relined, Stack.after, Stack.after, Node.push_text_relined]

theorem line_before_end {c next : Cursor} (reads : Cursor.Reads c token next)
    (ends : Text.EndsLine c.rest) : token.line < c.line + Text.newlines c.rest := by
  have opened : c.rest = token.text ++ token.padding ++ token.delimiters.opening ++
      (token.raw ++ token.delimiters.closing ++ token.trail ++ next.rest) := by
    rw [reads.rest, Token.source]
    simp only [List.append_assoc]
  have goes_on : token.raw ++ token.delimiters.closing ++ token.trail ++ next.rest ≠ [] := by
    simp [Cursor.raw_nonempty reads]
  have broken := Text.ends_line_mem _ (Text.ends_line_append _ _ (opened ▸ ends)) goes_on
  have counted := congrArg Text.newlines opened
  have positive : 0 < Text.newlines (token.raw ++ token.delimiters.closing ++ token.trail ++
      next.rest) := List.count_pos_iff.mpr broken
  rw [Text.newlines_append] at counted
  rw [reads.line, counted]
  omega

/-- The tags of a text that ends a line put nothing on the stack that is on a line behind it. -/
theorem run_stays (last count : Nat) (c : Cursor) (ends : Text.EndsLine c.rest)
    (within : c.line + Text.newlines c.rest = last + 1)
    (kept : stack.relined (.behind last count) = stack)
    (ran : stack.run c.scan.tokens = .ok after) :
    after.relined (.behind last count) = after := by
  induction c using Cursor.scan_induct generalizing stack with
  | finish c tail final stepped =>
      rw [Cursor.scan_finish stepped] at ran
      cases ran
      exact kept
  | fault c error stepped =>
      rw [Cursor.scan_fault stepped] at ran
      cases ran
      exact kept
  | token c token next stepped ih =>
      have reads := Cursor.step_reads stepped
      have stays : (Relining.behind last count).line token.line = token.line := by
        have before := line_before_end reads ends
        exact if_neg (by omega)
      have counted : next.line + Text.newlines next.rest = last + 1 := by
        rw [← within, reads.lineAfter, reads.endLine, reads.rest, Text.newlines_append]
        omega
      rw [Cursor.scan_token stepped, Stack.run] at ran
      -- The line that is counted up to stays the same: `next` is behind the lines of the tag.
      cases turned : stack.step token with
      | error error => simp [turned, Except.bind] at ran
      | ok next_stack =>
          rw [turned] at ran
          exact ih (Cursor.ends_line_next ends reads) counted (step_stays stays kept turned) ran

end Lines

theorem ending_kept {kept : Delimiters → Prop} (named : ∀ d, d.Named → kept d) {c : Cursor}
    {ending : Ending} (now : kept c.delimiters) (ended : c.scan.ending = .ok ending) :
    kept ending.delimiters := by
  induction c using Cursor.scan_induct with
  | finish c tail last stepped =>
      obtain ⟨-, -, rfl⟩ := Cursor.step_finish stepped
      rw [Cursor.scan_finish stepped] at ended
      cases ended
      exact now
  | fault c error stepped =>
      rw [Cursor.scan_fault stepped] at ended
      cases ended
  | token c token next stepped ih =>
      rw [Cursor.scan_token stepped] at ended
      exact ih (delimiters_kept named (Cursor.step_reads stepped) now) ended

theorem run_refuses {tokens : List Token} {stack : Stack} {error : ParseError}
    (ran : stack.run tokens = .error error) (name : Text) : error.fault ≠ .unclosedSection name := by
  induction tokens generalizing stack with
  | nil => cases ran
  | cons token rest ih =>
      rw [Stack.run] at ran
      cases stepped : stack.step token with
      | ok after =>
          rw [stepped] at ran
          exact ih ran
      | error refused =>
          rw [stepped] at ran
          cases ran
          rw [Stack.step] at stepped
          -- Only a closing tag is ever refused, and never because a section is left open.
          cases tag : token.tag with
          | closing closed =>
              rw [tag] at stepped
              dsimp only at stepped
              split at stepped
              · cases stepped
                simp
              · split at stepped
                · cases stepped
                · cases stepped
                  simp
          | _ =>
              rw [tag] at stepped
              cases stepped

/-- A text in which no tag is left open fails because of its closing tags, or because a section
is left open. -/
theorem refused_iff {text : Text} {pair : Delimiters} {ending : Ending}
    (ended : (scan text pair).ending = .ok ending) (error : ParseError) :
    Stack.bottom.run (scan text pair).tokens = .error error ↔
      parse text pair = .error error ∧ ∀ name, error.fault ≠ .unclosedSection name := by
  rw [parse_eq_tree, Scan.tree, ended]
  cases ran : Stack.bottom.run (scan text pair).tokens with
  | error refused =>
      constructor
      · rintro ⟨⟩
        exact ⟨rfl, run_refuses ran⟩
      · rintro ⟨⟨⟩, -⟩
        rfl
  | ok after =>
      obtain ⟨frames, before⟩ := after
      constructor
      · rintro ⟨⟩
      · rintro ⟨failed, closed⟩
        cases frames with
        | nil => cases failed
        | cons frame outer =>
            cases failed
            exact absurd rfl (closed frame.opened.name)

/-- A comment on lines of its own may be put in between two lines, wherever no tag is open. If
the tags before it do not fit, the error is the same. If they do, whatever sections they leave
open, there is the same tree or the same error, with the lines behind the place counted on. -/
theorem comment_lines_are_invisible {pair : Delimiters} (named : pair.Named) (pre post : Text)
    {ending : Ending} (starts : pre.EndsLine) (outside : (scan pre pair).ending = .ok ending)
    (line : CommentLine ending.delimiters) :
    (∀ error, parse pre pair = .error error → (∀ name, error.fault ≠ .unclosedSection name) →
      parse (pre ++ post) pair = .error error ∧
        parse (pre ++ line.source ++ post) pair = .error error) ∧
    ((∀ error, parse pre pair = .error error → ∃ name, error.fault = .unclosedSection name) →
      let lines := Relining.behind (Text.newlines pre) (Text.newlines line.source)
      parse (pre ++ line.source ++ post) pair =
        outcomeRelined lines (·.relined lines) (parse (pre ++ post) pair)) := by
  have inline := named_inline pair named
  have active : ending.delimiters.Named := ending_kept (fun _ => id) named outside
  -- Both sources are read as far as `pre` goes, and then what is behind it, from the same stack.
  have without := tree_append pre post pair 0 ending inline starts outside .bottom
  have inserted := tree_append pre (line.source ++ post) pair 0 ending inline starts outside .bottom
  rw [Scan.later_zero, Scan.later_zero, Nat.zero_add, ← parse_eq_tree] at without inserted
  rw [List.append_assoc, without, inserted]
  cases ran : Stack.bottom.run (scan pre pair).tokens with
  | error refused =>
      obtain ⟨failed, closed⟩ := (refused_iff outside refused).mp ran
      constructor
      · intro error here _
        cases failed.symm.trans here
        exact ⟨rfl, rfl⟩
      · intro open_only
        obtain ⟨name, unclosed⟩ := open_only refused failed
        exact absurd unclosed (closed name)
  | ok after =>
      constructor
      · intro error here closed
        have refused := (refused_iff outside error).mpr ⟨here, closed⟩
        cases ran.symm.trans refused
      · intro _ lines
        have kept : after.relined lines = after :=
          run_stays _ _ _ starts (Nat.add_comm _ _) rfl ran
        have spaced : (after.after ending.tail).relined lines = after.after ending.tail := by
          rw [Stack.after_relined, kept]
        have moved := tree_relined lines ((scan post ending.delimiters).later (Text.newlines pre))
          (after.after ending.tail)
        rw [spaced, relined_behind] at moved
        exact (line.tree_source active post _ _).trans moved

def openPage : Text := "\x7b\x7b#s\x7d\x7d\n\x7b\x7b=| |=\x7d\x7d\n".toList

def noteLine : CommentLine ⟨['|'], ['|']⟩ where
  pad := [' ', '\t']
  body := "a note\n".toList
  trail := [' ']
  brk := ['\r', '\n']
  padded := padding_space_tab
  trailing := by simp [Text.isPadding]
  closed := by decide
  ended := by decide

-- The section that is open keeps its line, and the one behind the comment is two lines later.
theorem note_in_open_page :
    parse (openPage ++ noteLine.source ++ "b|/s||#t||/t|".toList) .standard =
      .ok ⟨[.sectionTag ['s'] false 1 [.text ['b']], .sectionTag ['t'] false 5 []],
        ⟨['|'], ['|']⟩⟩ := by
  have named : Delimiters.standard.Named :=
    ⟨by decide, by decide, Text.visible_of_all rfl, by rintro c ⟨⟩; rfl⟩
  have outside : (scan openPage .standard).ending = .ok ⟨[], 3, ⟨['|'], ['|']⟩⟩ := by cbv
  have left_open : parse openPage .standard = .error ⟨.unclosedSection ['s'], 1⟩ := by cbv
  have without : parse (openPage ++ "b|/s||#t||/t|".toList) .standard =
      .ok ⟨[.sectionTag ['s'] false 1 [.text ['b']], .sectionTag ['t'] false 3 []],
        ⟨['|'], ['|']⟩⟩ := by cbv
  rw [(comment_lines_are_invisible named openPage _ (by decide) outside noteLine).2, without]
  · rfl
  · intro error failed
    cases left_open.symm.trans failed
    exact ⟨_, rfl⟩

end Mustache
