import Mustache.Proofs.Indenting
import Mustache.Proofs.Remainder

/-!
The scan of an indented source beside the scan of the source as it was. Both read the same
tags on the same lines, as long as no tag is spread over lines; what is indented is the
text between the tags, and the padding of those that begin a line.
-/

namespace Mustache

structure Delimiters.Visible (d : Delimiters) : Prop where
  opens : d.opening ≠ []
  shown : ∀ c ∈ d.opening ++ d.closing, Text.isSpace c = false

theorem Delimiters.Visible.closes_visibly {d : Delimiters} (visible : d.Visible) :
    d.ClosesVisibly := by
  intro c last
  have space := visible.shown c (List.mem_append_right _ (List.mem_of_getLast? last))
  rw [Bool.eq_false_iff] at space ⊢
  exact fun padding => space (Text.is_space_of_padding c padding)

def Token.indented (indent : Text) (fresh : Bool) (token : Token) : Token :=
  { token with
    text := Text.indentFrom indent fresh token.text
    padding := (if token.lineStart then indent else []) ++ token.padding }

def indentTokens (indent before : Text) : List Token → List Token
  | [] => []
  | token :: rest =>
      token.indented indent (Cursor.startsLine before) ::
        indentTokens indent (token.source.reverse ++ before) rest

def Scan.indented (indent before : Text) (scanned : Scan) : Scan where
  tokens := indentTokens indent before scanned.tokens
  ending := scanned.ending.map fun ending =>
    { ending with
      tail := Text.indentFrom indent
        (Cursor.startsLine ((scanned.tokens.flatMap Token.source).reverse ++ before)) ending.tail }

/-- The pairs of delimiters in force one after the other, of which `pair` is the first. -/
def Scan.inForce (pair : Delimiters) (scanned : Scan) : List Delimiters :=
  pair :: scanned.tokens.map fun token => token.tag.delimitersAfter token.delimiters

namespace Cursor

/-- All that is read from `c` on can be told from an indent: the delimiters can be seen, and
no tag goes on in the next line. -/
structure Clear (c : Cursor) : Prop where
  opens : c.delimiters.opening ≠ []
  visible : ∀ pair ∈ c.scan.inForce c.delimiters, ∀ char ∈ pair.opening ++ pair.closing,
    Text.isSpace char = false
  inline : ∀ token ∈ c.scan.tokens, '\n' ∉ token.raw

theorem visible_of_clear {c : Cursor} (clear : c.Clear) : c.delimiters.Visible :=
  ⟨clear.opens, clear.visible _ List.mem_cons_self⟩

theorem clear_next {c next : Cursor} {token : Token} (stepped : c.step = .token token next)
    (clear : c.Clear) : '\n' ∉ token.raw ∧ next.Clear := by
  have reads := step_reads stepped
  obtain ⟨opens, visible, inline⟩ := clear
  rw [scan_token stepped] at visible inline
  refine ⟨inline token List.mem_cons_self, ?_, ?_, ?_⟩
  · have kept (pair : Delimiters) (named : pair.Named) : pair.opening ≠ [] := named.opens
    exact delimiters_kept kept reads opens
  · intro pair member
    have in_force : next.delimiters = token.tag.delimitersAfter token.delimiters := by
      rw [reads.delimitersAfter, reads.delimiters]
    apply visible pair
    apply List.mem_cons_of_mem
    rcases List.mem_cons.mp member with rfl | later
    · rw [in_force]
      exact List.mem_cons_self
    · exact List.mem_cons_of_mem _ later
  · intro later member
    exact inline later (List.mem_cons_of_mem _ member)

/-- Two cursors at the same place, one of them in the indented source. -/
structure Shifted (indent : Text) (c d : Cursor) : Prop where
  rest : d.rest = Text.indentFrom indent (startsLine c.before) c.rest
  fresh : startsLine d.before = startsLine c.before
  line : d.line = c.line
  delimiters : d.delimiters = c.delimiters

/-- What the steps at two such cursors have in common. -/
def Indented (indent before : Text) : Step → Step → Prop
  | .finish tail last, .finish tail' last' =>
      tail' = Text.indentFrom indent (startsLine before) tail ∧ last'.line = last.line ∧
        last'.delimiters = last.delimiters
  | .fault error, .fault error' => error' = error
  | .token token next, .token token' next' =>
      token' = token.indented indent (startsLine before) ∧ Shifted indent next next'
  | _, _ => False

section Steps
variable {indent : Text} {c d : Cursor}

theorem indented_finish {before tail : Text} {last : Cursor} {step : Step}
    (indented : Indented indent before (.finish tail last) step) :
    ∃ last', step = .finish (Text.indentFrom indent (startsLine before) tail) last' ∧
      last'.line = last.line ∧ last'.delimiters = last.delimiters := by
  cases step with
  | finish tail' last' =>
      obtain ⟨rfl, line, pair⟩ := indented
      exact ⟨last', rfl, line, pair⟩
  | fault error => exact absurd indented id
  | token token next => exact absurd indented id

theorem indented_fault {before : Text} {error : ParseError} {step : Step}
    (indented : Indented indent before (.fault error) step) : step = .fault error := by
  cases step with
  | fault error' => exact congrArg Step.fault indented
  | finish tail last => exact absurd indented id
  | token token next => exact absurd indented id

theorem indented_token {before : Text} {token : Token} {next : Cursor} {step : Step}
    (indented : Indented indent before (.token token next) step) :
    ∃ next', step = .token (token.indented indent (startsLine before)) next' ∧
      Shifted indent next next' := by
  cases step with
  | token token' next' =>
      obtain ⟨rfl, onward⟩ := indented
      exact ⟨next', rfl, onward⟩
  | finish tail last => exact absurd indented id
  | fault error => exact absurd indented id

variable (blank : ∀ char ∈ indent, Text.isPadding char = true)
include blank

/-- The two cursors stay together over a text and what it is indented to. -/
theorem shifted_over (shift : Shifted indent c d) (read ahead read' : Text)
    (split : c.rest = read ++ ahead)
    (same : Text.indentFrom indent (startsLine c.before) read = read') :
    Shifted indent (c.advance read.length) (d.advance read'.length) := by
  have rest : d.rest =
      read' ++ Text.indentFrom indent (startsLine (read.reverse ++ c.before)) ahead := by
    rw [shift.rest, split, Text.indent_append, same]
  rw [advance_over c read ahead split, advance_over d read' _ rest]
  exact {
    rest := rfl
    fresh := by
      rw [← same]
      exact Text.starts_line_indent indent _ read _ _ shift.fresh
    line := by
      rw [← same, Text.newlines_indent blank, shift.line]
    delimiters := shift.delimiters }

omit blank

theorem visible_inline (marker : Text) (nonempty : marker ≠ [])
    (visible : ∀ char ∈ marker, Text.isSpace char = false) (earlier before : Text) :
    startsLine ((earlier ++ marker).reverse ++ before) = false := by
  obtain ⟨front, last, rfl⟩ := List.eq_nil_or_concat marker |>.resolve_left nonempty
  have shown := visible last (by simp)
  have feed : last ≠ '\n' := by
    rintro rfl
    exact absurd shown (by decide)
  simp [startsLine, feed]

theorem closed_inline (visible : ∀ char ∈ c.delimiters.closing, Text.isSpace char = false)
    {raw : Text} (found : c.rawTag? = some raw) (shown : raw.trim ≠ []) (before : Text) :
    startsLine ((raw ++ c.delimiters.closing).reverse ++ before) = false := by
  by_cases empty : c.delimiters.closing = []
  · rw [raw_tag_eq, empty] at found
    rw [empty, List.append_nil]
    split at found
    · obtain ⟨name, -, rfl⟩ := Option.map_eq_some_iff.mp found
      exact visible_inline ['}'] (by decide) (Text.visible_of_all rfl) name before
    · have nothing : raw = [] := by cases rest : c.rest <;> simp_all [Text.upTo?]
      exact absurd (by rw [nothing]; rfl) shown
  · exact visible_inline _ empty visible raw before

theorem closed_indent (indent : Text) (visible : ∀ char ∈ c.delimiters.closing, Text.isSpace char = false)
    {raw : Text} (found : c.rawTag? = some raw) (shown : raw.trim ≠ []) (before : Text) :
    Text.indentFrom indent (startsLine before) (raw ++ c.delimiters.closing) =
      Text.indentUpTo indent before raw ++ c.delimiters.closing := by
  have ends := closed_inline visible found shown before
  cases closing : c.delimiters.closing with
  | nil =>
      rw [closing, List.append_nil] at ends
      rw [List.append_nil, List.append_nil, Text.indentUpTo, ends]
      exact (List.append_nil _).symm
  | cons first others =>
      have inline : '\n' ∉ first :: others := by
        intro member
        exact absurd (visible '\n' (closing ▸ member)) (by decide)
      rw [List.mem_cons, not_or] at inline
      rw [Text.indent_up_to_cons _ _ _ _ _ (Ne.symm inline.1),
        Text.indent_inline indent others inline.2]

theorem trail_indent {t trail : Text} (found : lineEnd? t = some trail) :
    Text.indentFrom indent false trail = trail := by
  obtain ⟨padding, brk, ahead, -, padded, stop, rfl⟩ := (line_end_iff t trail).mp found
  have inline : '\n' ∉ padding := fun member => absurd (padded '\n' member) (by decide)
  have goes_on : startsLine [' '] = false := rfl
  rw [← goes_on, Text.indent_append, goes_on, Text.indent_inline indent padding inline]
  have inside : startsLine (padding.reverse ++ [' ']) = false := by
    have same := Text.starts_line_last padding [' ']
    cases last : padding.getLast? with
    | none => rwa [last] at same
    | some char =>
        have feed : char ≠ '\n' := fun same => inline (same ▸ List.mem_of_getLast? last)
        rw [last] at same
        simpa [feed] using same
  rw [inside]
  rcases stop with ⟨rfl, -⟩ | rfl | rfl
  · rfl
  · rw [Text.indent_line_break]
    rfl
  · rw [Text.indent_cons _ _ _ _ (by decide), Text.indent_line_break]
    rfl

theorem solo_trail_indent (start : Bool) (raw raw' ahead : Text)
    (head : raw'.trim.head? = raw.trim.head?) :
    soloTrail? start raw' (Text.indentFrom indent false ahead) = soloTrail? start raw ahead := by
  rw [soloTrail?, soloTrail?, head, line_end_indent]

include blank

theorem chunk_shifted (shift : Shifted indent c d) (visible : c.delimiters.Visible) {chunk : Text}
    (found : Text.upTo? c.delimiters.opening c.rest = some chunk) :
    Shifted indent (c.advance (chunk ++ c.delimiters.opening).length)
        (d.advance (Text.indentUpTo indent c.before chunk ++ c.delimiters.opening).length) ∧
      startsLine (c.advance (chunk ++ c.delimiters.opening).length).before = false := by
  have opening_shown : ∀ char ∈ c.delimiters.opening, Text.isSpace char = false :=
    fun char member => visible.shown char (List.mem_append_left _ member)
  have split := Text.eq_of_up_to found
  constructor
  · obtain ⟨first, others, opening⟩ := List.exists_cons_of_ne_nil visible.opens
    have unbroken : '\n' ∉ c.delimiters.opening := by
      intro member
      exact absurd (opening_shown '\n' member) (by decide)
    have read : Text.indentFrom indent (startsLine c.before) (chunk ++ c.delimiters.opening) =
        Text.indentUpTo indent c.before chunk ++ c.delimiters.opening := by
      rw [opening, List.mem_cons, not_or] at unbroken
      rw [opening, Text.indent_up_to_cons _ _ _ _ _ (Ne.symm unbroken.1),
        Text.indent_inline indent others unbroken.2]
    exact shifted_over blank shift _ _ _ split read
  · rw [advance_over c _ _ split]
    exact visible_inline _ visible.opens opening_shown chunk c.before

theorem trail_shifted (shift : Shifted indent c d) (inside : startsLine c.before = false)
    (start : Bool) {raw raw' : Text} (head : raw'.trim.head? = raw.trim.head?) :
    soloTrail? start raw' d.rest = soloTrail? start raw c.rest ∧
      ∀ trail, soloTrail? start raw c.rest = trail →
        Shifted indent (c.advance (trail.getD []).length) (d.advance (trail.getD []).length) := by
  constructor
  · rw [shift.rest, inside, solo_trail_indent _ raw _ _ head]
  · intro trail solo
    -- Only the next line has an indent before it.
    cases trail with
    | none => exact shifted_over blank shift [] c.rest [] rfl rfl
    | some trail =>
        apply shifted_over blank shift _ _ _ (split_of_solo_trail solo)
        rw [inside]
        exact trail_indent (of_solo_trail solo).2.2

theorem step_shifted (shift : Shifted indent c d) (visible : c.delimiters.Visible)
    (inline : ∀ token next, c.step = .token token next → '\n' ∉ token.raw) :
    Indented indent c.before c.step d.step := by
  have spaces : ∀ char ∈ indent, Text.isSpace char = true := fun char member =>
    Text.is_space_of_padding char (blank char member)
  have opening_shown : ∀ char ∈ c.delimiters.opening, Text.isSpace char = false :=
    fun char member => visible.shown char (List.mem_append_left _ member)
  have closing : ∀ char ∈ c.delimiters.closing, Text.isSpace char = false :=
    fun char member => visible.shown char (List.mem_append_right _ member)
  have finds := Text.up_to_indent spaces _ visible.opens opening_shown c.before c.rest
  revert inline
  rw [step_eq c, step_eq d, shift.delimiters, shift.rest, finds]
  cases found : Text.upTo? c.delimiters.opening c.rest with
  | none =>
      intro inline
      exact ⟨rfl, shift.line, shift.delimiters⟩
  | some chunk =>
      -- The chunk before the tag starts a line in both sources or in neither.
      obtain ⟨same_start, same_text, same_padding⟩ :=
        chunk_indent blank c.before d.before chunk shift.fresh
      obtain ⟨opened, inside⟩ := chunk_shifted blank shift visible found
      have pair : (c.advance (chunk ++ c.delimiters.opening).length).delimiters = c.delimiters := rfl
      simp only [Option.map_some, ← List.length_append]
      generalize at_tag : c.advance (chunk ++ c.delimiters.opening).length = atTag
        at opened inside pair
      generalize at_tag' : d.advance
        (Text.indentUpTo indent c.before chunk ++ c.delimiters.opening).length = atTag' at opened
      rw [← pair] at closing ⊢
      have ahead := opened.rest
      rw [inside] at ahead
      have raws := raw_tag_indent spaces atTag atTag' inside ahead opened.delimiters closing
      rw [raws]
      cases raw_found : atTag.rawTag? with
      | none =>
          intro inline
          exact congrArg _ opened.line
      | some raw =>
          have seen := Text.filter_indent_up_to _ (Text.padding_invisible blank) atTag.before raw
          have head : (Text.indentUpTo indent atTag.before raw).trim.head? = raw.trim.head? := by
            rw [Text.trim_head, Text.trim_head, seen]
          have same_empty : (Text.indentUpTo indent atTag.before raw).trim = [] ↔ raw.trim = [] := by
            rw [← List.head?_eq_none_iff, head, List.head?_eq_none_iff]
          have split := split_of_raw_tag raw_found
          have split' := split_of_raw_tag (raws.trans (congrArg _ raw_found))
          rw [opened.delimiters] at split'
          simp only [Option.map_some, ← List.length_append] at split split' ⊢
          by_cases shown : raw.trim = []
          · intro inline
            rw [if_pos shown, if_pos (same_empty.mpr shown), advance_over atTag _ _ split,
              advance_over atTag' _ _ split']
            simp only [Text.newlines_append, Text.newlines_indent_up_to blank, opened.line]
            rfl
          · have read := closed_indent indent closing raw_found shown atTag.before
            have closed := shifted_over blank opened _ _ _ split read
            have after_inside : startsLine
                (atTag.advance (raw ++ atTag.delimiters.closing).length).before = false := by
              rw [advance_over atTag _ _ split]
              exact closed_inline closing raw_found shown atTag.before
            rw [if_neg shown, if_neg (mt same_empty.mp shown)]
            generalize atTag.advance (raw ++ atTag.delimiters.closing).length = after
              at closed after_inside
            generalize atTag'.advance (Text.indentUpTo indent atTag.before raw ++
              atTag.delimiters.closing).length = after' at closed
            obtain ⟨same_trail, onward⟩ :=
              trail_shifted blank closed after_inside (atLineStart chunk c.before) head
            rw [same_start, same_trail]
            generalize soloTrail? (atLineStart chunk c.before) raw after.rest = trail at onward
            have past := onward trail rfl
            generalize after.advance (trail.getD []).length = next at past
            generalize after'.advance (trail.getD []).length = next' at past
            cases classified : Tag.ofBody raw.trim with
            | error fault =>
                intro inline
                rw [of_body_error_iff, ← seen, ← of_body_error_iff] at classified
                rw [classified]
                exact congrArg _ past.line
            | ok tag =>
                intro inline
                -- A tag on one line holds no indent, so it is classified alike.
                have same_raw : Text.indentUpTo indent atTag.before raw = raw :=
                  Text.indent_up_to_inline _ _ _ inside (inline _ _ rfl)
                rw [same_raw, classified]
                refine ⟨?_, ?_⟩
                · simp only [tokenAt, Token.indented, same_start, same_text, same_padding,
                    shift.delimiters, ← List.length_append, at_tag, at_tag', opened.line, past.line]
                · exact { past with delimiters := rfl }

theorem scan_shifted (shift : Shifted indent c d) (clear : c.Clear) :
    d.scan = c.scan.indented indent c.before := by
  induction c using scan_induct generalizing d with
  | finish c tail last stepped =>
      have same := step_shifted blank shift (visible_of_clear clear)
        fun token next read => by simp [stepped] at read
      obtain ⟨last', stepped', line, pair⟩ := indented_finish (stepped ▸ same)
      rw [scan_finish stepped, scan_finish stepped', line, pair]
      rfl
  | fault c error stepped =>
      have same := step_shifted blank shift (visible_of_clear clear)
        fun token next read => by simp [stepped] at read
      rw [scan_fault stepped, scan_fault (indented_fault (stepped ▸ same))]
      rfl
  | token c token next stepped ih =>
      obtain ⟨inline, clear_after⟩ := clear_next stepped clear
      have same := step_shifted blank shift (visible_of_clear clear) <| by
        intro read after stepped_again
        rw [stepped, Step.token.injEq] at stepped_again
        rwa [← stepped_again.1]
      -- Both cursors read a tag and are shifted again behind it, so the induction goes on there.
      obtain ⟨next', stepped', onward⟩ := indented_token (stepped ▸ same)
      rw [scan_token stepped, scan_token stepped', ih onward clear_after,
        (step_reads stepped).before]
      simp only [Scan.indented, indentTokens, List.flatMap_cons, List.reverse_append,
        List.append_assoc]

end Steps
end Cursor

section Sources
variable {source indent : Text} {pair : Delimiters}

theorem scan_indent (clear : (Cursor.start source pair).Clear)
    (blank : ∀ c ∈ indent, Text.isPadding c = true) :
    scan (Text.indentLines indent source) pair = (scan source pair).indented indent [] := by
  have shift : Cursor.Shifted indent (Cursor.start source pair)
      (Cursor.start (Text.indentLines indent source) pair) := ⟨rfl, rfl, rfl, rfl⟩
  exact Cursor.scan_shifted blank shift clear

theorem match_indented (tokens : List Token) (before : Text) (opened : List OpenSection) :
    matchTags opened (indentTokens indent before tokens) = matchTags opened tokens := by
  induction tokens generalizing before opened with
  | nil => rfl
  | cons token rest ih =>
      have tag : (token.indented indent (Cursor.startsLine before)).tag = token.tag := rfl
      rw [indentTokens, matchTags, matchTags, tag]
      cases token.tag with
      | opening inverted name => exact ih _ _
      | closing name =>
          cases opened with
          | nil => rfl
          | cons innermost outer =>
              by_cases fits : name = innermost.name
              · simp only [fits, if_true]
                exact ih _ _
              · simp only [fits, if_false]
                rfl
      | comment | stray | delimiters | value | inclusion => exact ih _ _

/-- An indented source fails where the source fails, and in the same way. -/
theorem flat_indented_error (scanned : Scan) (before : Text) (error : ParseError) :
    (scanned.indented indent before).flat = .error error ↔ scanned.flat = .error error := by
  rw [Scan.flat, Scan.flat, Scan.indented, match_indented]
  cases matchTags [] scanned.tokens with
  | error other => exact Iff.rfl
  | ok opened => cases scanned.ending <;> cases opened <;> simp [Except.map]

theorem parse_error_iff (source : Text) (pair : Delimiters) (error : ParseError) :
    parse source pair = .error error ↔ (scan source pair).flat = .error error := by
  rw [parse_eq_tree, ← tree_flat]
  cases (scan source pair).tree .bottom <;> simp [Except.map]

end Sources
end Mustache
