import Mustache.Options
import Mustache.Proofs.Positions
import Mustache.Proofs.Remainder

/-!
The states that a parse goes through. Between two tags the parser holds its cursor and the
sections that are open; each open section is a reading of siblings that waits for the one inside
it. One turn of the reader reads a tag and opens or closes a section if the tag says so. What a
turn keeps is true in every state, and since each turn moves the cursor on, a parse comes to an
end.
-/

namespace Mustache

structure ParserState where
  tokens : List Token
  stack : Stack
  cursor : Cursor

namespace ParserState

def start (source : Text) (delimiters : Delimiters) : ParserState :=
  ⟨[], .bottom, .start source delimiters⟩

/-- One turn of the reader. -/
inductive Next : ParserState → ParserState → Prop
  | read {tokens : List Token} {stack after : Stack} {c next : Cursor} {token : Token} :
      c.step = .token token next → stack.step token = .ok after →
      Next ⟨tokens, stack, c⟩ ⟨tokens ++ [token], after, next⟩

/-- The states of a parse. -/
inductive Reached (source : Text) (delimiters : Delimiters) : ParserState → Prop
  | start : Reached source delimiters (.start source delimiters)
  | next {state after : ParserState} : Reached source delimiters state → Next state after →
      Reached source delimiters after

/-- What a parse gives that comes to an end in a state: the source is used up, no tag can be
read, or the tag that is read closes no open section. -/
inductive Ends : ParserState → Except ParseError Parsed → Prop
  | finish {tokens : List Token} {stack : Stack} {c last : Cursor} {tail : Text} :
      c.step = .finish tail last →
      Ends ⟨tokens, stack, c⟩ (stack.finish (.ok ⟨tail, last.line, last.delimiters⟩))
  | fault {tokens : List Token} {stack : Stack} {c : Cursor} {error : ParseError} :
      c.step = .fault error → Ends ⟨tokens, stack, c⟩ (.error error)
  | refused {tokens : List Token} {stack : Stack} {c next : Cursor} {token : Token}
      {error : ParseError} :
      c.step = .token token next → stack.step token = .error error →
      Ends ⟨tokens, stack, c⟩ (.error error)

section Runs
variable {source : Text} {delimiters : Delimiters} {state : ParserState}

/-- From every state on, the parse comes to what the whole parse comes to. -/
theorem parse_continues (reached : Reached source delimiters state) :
    parse source delimiters = state.cursor.scan.tree state.stack := by
  induction reached with
  | start => exact parse_eq_tree source delimiters
  | next _ turn ih =>
      obtain ⟨read, stepped⟩ := turn
      rw [ih, tree_token read, stepped]
      rfl

theorem parse_reads_siblings (reached : Reached source delimiters state) :
    parse source delimiters =
      (state.cursor.siblings (state.stack.frames.head?.map (·.opened)) state.stack.before).bind
        (resume state.stack.frames) :=
  (parse_continues reached).trans (tree_siblings state.cursor state.stack.frames state.stack.before)

theorem ends_from (c : Cursor) (tokens : List Token) (stack : Stack)
    (reached : Reached source delimiters ⟨tokens, stack, c⟩) :
    ∃ last, Reached source delimiters last ∧ last.Ends (c.scan.tree stack) := by
  -- The induction is along the scan, whose tokens use the source up.
  induction c using Cursor.scan_induct generalizing tokens stack with
  | finish c tail last stepped =>
      refine ⟨_, reached, ?_⟩
      rw [Cursor.scan_finish stepped]
      exact .finish stepped
  | fault c error stepped =>
      refine ⟨_, reached, ?_⟩
      rw [Cursor.scan_fault stepped]
      exact .fault stepped
  | token c token next stepped ih =>
      rw [tree_token stepped]
      cases turned : stack.step token with
      | error error => exact ⟨_, reached, .refused stepped turned⟩
      | ok after => exact ih _ after (reached.next (.read stepped turned))

/-- Every parse comes to an end, with a tree or with an error. -/
theorem parse_ends (source : Text) (delimiters : Delimiters) :
    ∃ last, Reached source delimiters last ∧ last.Ends (parse source delimiters) := by
  rw [parse_eq_tree]
  exact ends_from (.start source delimiters) [] .bottom .start

/-- The tags that were read gave the open sections. -/
theorem reached_run (reached : Reached source delimiters state) :
    Stack.bottom.run state.tokens = .ok state.stack := by
  induction reached with
  | start => rfl
  | next _ turn ih =>
      obtain ⟨-, stepped⟩ := turn
      dsimp only at ih ⊢
      rw [Stack.run_append, ih]
      simp [Except.bind, Stack.run, stepped]

theorem reached_source (reached : Reached source delimiters state) :
    state.cursor.source = source := by
  induction reached with
  | start => rfl
  | next _ turn ih =>
      obtain ⟨read, -⟩ := turn
      exact (source_kept (Cursor.step_reads read)).trans ih

/-- What holds of the first pair, and of every pair that a tag can name, holds in every state. -/
theorem reached_delimiters {kept : Delimiters → Prop} (named : ∀ d, d.Named → kept d)
    (first : kept delimiters) (reached : Reached source delimiters state) :
    kept state.cursor.delimiters := by
  induction reached with
  | start => exact first
  | next _ turn ih =>
      obtain ⟨read, -⟩ := turn
      exact delimiters_kept named (Cursor.step_reads read) ih

end Runs

end ParserState

/-! Delimiters that are not empty keep the parser going. -/

def Delimiters.Accepted (d : Delimiters) : Prop := d.opening ≠ [] ∧ d.closing ≠ []

theorem accepted_of_named (d : Delimiters) (named : d.Named) : d.Accepted :=
  ⟨named.opens, named.closes⟩

theorem make_accepts {flag : Bool} {pair : List Text} {options : Options}
    (made : Options.make flag pair = .ok options) : options.delimiters.Accepted := by
  unfold Options.make at made
  split at made
  · split at made
    · cases made
    · next filled =>
        cases made
        exact not_or.mp filled
  · cases made

theorem accepted_makes {d : Delimiters} (accepted : d.Accepted) (flag : Bool) :
    Options.make flag [d.opening, d.closing] = .ok ⟨flag, d⟩ := by
  have filled : ¬ (d.opening = [] ∨ d.closing = []) := not_or.mpr accepted
  rw [Options.make, if_neg filled]

theorem three_of_reads {c next : Cursor} {token : Token} (reads : Cursor.Reads c token next)
    (accepted : c.delimiters.Accepted) : 3 ≤ token.source.length := by
  have opening := List.length_pos_iff.mpr accepted.1
  have closing := List.length_pos_iff.mpr accepted.2
  have body := List.length_pos_iff.mpr (Cursor.raw_nonempty reads)
  simp only [Token.source, reads.delimiters, List.length_append]
  omega

theorem frames_step {token : Token} {stack after : Stack} (stepped : stack.step token = .ok after) :
    after.frames.length ≤ stack.frames.length + 1 := by
  unfold Stack.step at stepped
  cases tag : token.tag with
  | comment | stray | delimiters | value | inclusion | opening =>
      rw [tag] at stepped
      cases stepped
      simp
  | closing name =>
      rw [tag] at stepped
      dsimp only at stepped
      split at stepped
      · cases stepped
      · next frame outer frames =>
          split at stepped
          · cases stepped
            rw [frames]
            show outer.length ≤ outer.length + 1 + 1
            omega
          · cases stepped

namespace ParserState

/-- What makes the parser go on: delimiters that are not empty, a cursor in the source that has
moved three characters for every tag, and no more open sections than tags. -/
structure Sound (source : Text) (state : ParserState) : Prop where
  source : state.cursor.source = source
  delimiters : state.cursor.delimiters.Accepted
  moved : 3 * state.tokens.length ≤ state.cursor.position
  nested : state.stack.frames.length ≤ state.tokens.length

variable {source : Text} {delimiters : Delimiters} {state : ParserState}

theorem sound_next {after : ParserState} (turn : Next state after) (sound : state.Sound source) :
    after.Sound source := by
  obtain ⟨read, stepped⟩ := turn
  have reads := Cursor.step_reads read
  have three := three_of_reads reads sound.delimiters
  have moved := sound.moved
  have deeper := frames_step stepped
  have nested := sound.nested
  dsimp only at moved nested
  constructor
  · exact (source_kept reads).trans sound.source
  · exact delimiters_kept accepted_of_named reads sound.delimiters
  · rw [position_next reads, List.length_append, List.length_singleton]
    omega
  · rw [List.length_append, List.length_singleton]
    dsimp only
    omega

theorem reached_sound (accepted : delimiters.Accepted) (reached : Reached source delimiters state) :
    state.Sound source := by
  induction reached with
  | start => exact ⟨rfl, accepted, Nat.le_refl 0, Nat.le_refl 0⟩
  | next _ turn ih => exact sound_next turn ih

theorem ends_delimiters {parsed : Parsed} (ends : state.Ends (.ok parsed)) :
    parsed.delimiters = state.cursor.delimiters := by
  generalize result : Except.ok parsed = given at ends
  cases ends with
  | @finish tokens stack c last tail stepped =>
      obtain ⟨-, -, rfl⟩ := Cursor.step_finish stepped
      obtain ⟨_ | ⟨frame, outer⟩, before⟩ := stack
      · cases result
        rfl
      · cases result
  | fault | refused => cases result

end ParserState

open ParserState

/-- Every source with a pair that options take is parsed to an end, to a tree or to an error. In
every state on the way both delimiters have characters; every character that is looked at is in
the source, and no tag is empty; each tag moves the cursor by three characters or more, so tags
and sections nested in each other are no more than a third of the characters. The pair that is
left at the end is one that options take. -/
theorem parse_always_ends {flag : Bool} {pair : List Text} {options : Options}
    (accepted : Options.make flag pair = .ok options) (source : Text) :
    (∃ last, Reached source options.delimiters last ∧
      last.Ends (parse source options.delimiters)) ∧
    (∀ state, Reached source options.delimiters state →
      state.cursor.delimiters.opening ≠ [] ∧ state.cursor.delimiters.closing ≠ [] ∧
      parse source options.delimiters =
        (state.cursor.siblings (state.stack.frames.head?.map (·.opened)) state.stack.before).bind
          (resume state.stack.frames) ∧
      3 * state.tokens.length ≤ source.length ∧ 3 * state.stack.frames.length ≤ source.length ∧
      state.cursor.stepAt? = some state.cursor.step ∧
      ∀ token next, state.cursor.step = .token token next →
        state.cursor.position + 3 ≤ next.position ∧ next.position ≤ source.length ∧
          token.raw.trim ≠ []) ∧
    ∀ parsed, parse source options.delimiters = .ok parsed → ∀ strict,
      Options.make strict [parsed.delimiters.opening, parsed.delimiters.closing] =
        .ok ⟨strict, parsed.delimiters⟩ := by
  have pair_accepted := make_accepts accepted
  obtain ⟨last, reached, ends⟩ := parse_ends source options.delimiters
  refine ⟨⟨last, reached, ends⟩, ?_, ?_⟩
  · intro state reached
    -- All bounds are read off what is sound of a reached state.
    have sound := reached_sound pair_accepted reached
    have inside : state.cursor.position ≤ source.length := by
      rw [← sound.source]
      exact Cursor.position_le state.cursor
    have moved := sound.moved
    have nested := sound.nested
    refine ⟨sound.delimiters.1, sound.delimiters.2, parse_reads_siblings reached, by omega,
      by omega, Cursor.step_at state.cursor, ?_⟩
    intro token next read
    have reads := Cursor.step_reads read
    have three := three_of_reads reads sound.delimiters
    have further := position_next reads
    have within : next.position ≤ source.length := by
      rw [← sound.source, ← source_kept reads]
      exact Cursor.position_le next
    exact ⟨by omega, within, reads.visible⟩
  · intro parsed read strict
    rw [read] at ends
    rw [ends_delimiters ends]
    exact accepted_makes (reached_sound pair_accepted reached).delimiters strict

def changedPage : Text :=
  "\x7b\x7b#a\x7d\x7d\x7b\x7b=< >=\x7d\x7d</a>".toList

theorem changed_page_ends :
    Options.make true [['{', '{'], ['}', '}']] = .ok ⟨true, .standard⟩ ∧
      (∃ last, Reached changedPage .standard last ∧
        last.Ends (.ok ⟨[.sectionTag ['a'] false 1 []], ⟨['<'], ['>']⟩⟩)) ∧
      (∀ state, Reached changedPage .standard state → 3 * state.stack.frames.length ≤ 19) ∧
      Options.make false [['<'], ['>']] = .ok ⟨false, ⟨['<'], ['>']⟩⟩ := by
  have accepted : Options.make true [['{', '{'], ['}', '}']] = .ok ⟨true, .standard⟩ := rfl
  have read : parse changedPage .standard =
      .ok ⟨[.sectionTag ['a'] false 1 []], ⟨['<'], ['>']⟩⟩ := by cbv
  obtain ⟨ends, states, taken⟩ := parse_always_ends accepted changedPage
  refine ⟨accepted, read ▸ ends, ?_, taken _ read false⟩
  intro state reached
  obtain ⟨-, -, -, -, nested, -⟩ := states state reached
  exact nested

end Mustache
