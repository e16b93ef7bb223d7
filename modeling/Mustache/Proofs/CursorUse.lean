import Mustache.Proofs.Positions

/-!
A cursor in use. Whatever it is asked, and in whatever order, it moves in one of two ways: over a
text that stands ahead, whose lines it counts, or to the end of the source without counting, when
it looks for a marker that does not come. So its line is right until it runs out, and from then on
both its position and its line stay as they are.
-/

namespace Mustache

namespace Text

def OccursAt (marker t : Text) (position : Nat) : Prop :=
  ∃ behind ahead, t = behind ++ marker ++ ahead ∧ behind.length = position

structure FirstFrom (marker t : Text) (start position : Nat) : Prop where
  reached : start ≤ position
  occurs : OccursAt marker t position
  first : ∀ earlier, start ≤ earlier → earlier < position → ¬ OccursAt marker t earlier

theorem occurs_ahead {marker behind t : Text} {position : Nat}
    (occurs : OccursAt marker (behind ++ t) position) (reached : behind.length ≤ position) :
    ∃ between ahead, t = between ++ marker ++ ahead ∧
      position = behind.length + between.length := by
  obtain ⟨front, ahead, split, rfl⟩ := occurs
  rw [List.append_assoc] at split
  rcases List.append_eq_append_iff.mp split with ⟨between, rfl, rest⟩ | ⟨tail, rfl, rest⟩
  · exact ⟨between, ahead, by rw [rest, List.append_assoc], List.length_append⟩
  · have none : tail = [] := by
      rw [List.length_append] at reached
      exact List.length_eq_zero_iff.mp (by omega)
    subst none
    exact ⟨[], ahead, by simpa using rest.symm, by simp⟩

theorem not_occurs_ahead {marker behind t : Text} (absent : upTo? marker t = none)
    {position : Nat} (reached : behind.length ≤ position) :
    ¬ OccursAt marker (behind ++ t) position := by
  intro occurs
  obtain ⟨between, ahead, split, -⟩ := occurs_ahead occurs reached
  exact (up_to_none_iff marker t).mp absent ⟨between, ahead, split.symm⟩

theorem first_ahead {marker t chunk : Text} (behind : Text) (found : upTo? marker t = some chunk) :
    FirstFrom marker (behind ++ t) behind.length (behind.length + chunk.length) where
  reached := Nat.le_add_right _ _
  occurs := by
    refine ⟨behind ++ chunk, t.drop (chunk.length + marker.length), ?_, List.length_append⟩
    rw [List.append_assoc, List.append_assoc, ← List.append_assoc chunk, ← eq_of_up_to found]
  first := by
    intro earlier reached before occurs
    obtain ⟨between, ahead, split, rfl⟩ := occurs_ahead occurs reached
    have none := first_of_up_to found between.length (by omega)
    rw [split, List.append_assoc, List.drop_left] at none
    rw [List.isPrefixOf_iff_prefix.mpr (List.prefix_append marker ahead)] at none
    cases none

end Text

/-- What a cursor can be asked to do. -/
inductive Use where
  | readUntil (marker : Text)
  | readText
  | readTag (lineStart : Bool)
  | consumeLineEnd
  | setDelimiters (delimiters : Delimiters)

namespace Use

def next : Use → Cursor → Cursor
  | .readUntil marker, c => (c.readUntil marker).2
  | .readText, c => c.readText.2
  | .readTag lineStart, c => (c.readTag lineStart).2
  | .consumeLineEnd, c => c.consumeLineEnd.2
  | .setDelimiters delimiters, c => c.setDelimiters delimiters

def runsOut : Use → Cursor → Bool
  | .readUntil marker, c =>
      match (c.readUntil marker).1 with
      | .error _ => true
      | .ok _ => false
  | .readText, c =>
      match c.readText.1 with
      | .toEnd _ => true
      | .beforeTag _ _ _ => false
  | .readTag lineStart, c =>
      match (c.readTag lineStart).1 with
      | .error error => error.fault = .unmatchedOpenTag
      | .ok _ => false
  | .consumeLineEnd, _ | .setDelimiters _, _ => false

end Use

namespace Cursor

def after (c : Cursor) (uses : List Use) : Cursor := uses.foldl (fun c use => use.next c) c

def lasts (c : Cursor) : List Use → Bool
  | [] => true
  | use :: rest => !use.runsOut c && (use.next c).lasts rest

theorem passes_slice {c next : Cursor} {read : Text} (passes : c.Passes read next) :
    c.source.slice c.position next.position = read := by
  have middle := Text.slice_middle c.before.reverse read next.rest
  rw [List.append_assoc, ← passes.rest, List.length_reverse] at middle
  rw [passes_position passes]
  exact middle

theorem use_moves (use : Use) (c : Cursor) :
    (use.runsOut c = true ∧ (use.next c) = c.runOut) ∨
      (use.runsOut c = false ∧ ∃ read, c.Passes read (use.next c)) := by
  cases use with
  | readUntil marker =>
      rw [Use.runsOut, Use.next, readUntil]
      cases Text.upTo? marker c.rest with
      | none => exact .inl ⟨rfl, rfl⟩
      | some chunk => exact .inr ⟨rfl, _, passes_advance _ c⟩
  | readText =>
      rw [Use.runsOut, Use.next, read_text_eq]
      cases Text.upTo? c.delimiters.opening c.rest with
      | none => exact .inl ⟨rfl, rfl⟩
      | some chunk => exact .inr ⟨rfl, _, passes_advance _ c⟩
  | readTag lineStart =>
      rw [Use.runsOut, Use.next, read_tag_eq]
      cases c.rawTag? with
      | none => exact .inl ⟨rfl, rfl⟩
      | some raw =>
          -- An empty tag is passed like any other, only the rest of its line is not.
          by_cases empty : raw.trim = []
          · simp only [empty, if_true]
            exact .inr ⟨rfl, _, passes_advance _ c⟩
          · simp only [empty, if_false]
            exact .inr ⟨trivial, _, passes_over (passes_advance _ c) (passes_advance _ _)⟩
  | consumeLineEnd =>
      rw [Use.runsOut, Use.next, consumeLineEnd]
      cases lineEnd? c.rest with
      | none => exact .inr ⟨rfl, _, passes_nothing c⟩
      | some trail => exact .inr ⟨rfl, _, passes_advance _ c⟩
  | setDelimiters delimiters => exact .inr ⟨rfl, [], rfl, rfl, rfl⟩

/-! One use. -/

theorem use_source (use : Use) (c : Cursor) : (use.next c).source = c.source := by
  rcases use_moves use c with ⟨-, out⟩ | ⟨-, read, passes⟩
  · rw [out, source_run_out]
  · exact passes_source passes

theorem use_position (use : Use) (c : Cursor) : c.position ≤ (use.next c).position := by
  rcases use_moves use c with ⟨-, out⟩ | ⟨-, read, passes⟩
  · rw [out]
    simp [runOut, position]
  · rw [passes_position passes]
    exact Nat.le_add_right _ _

theorem use_counted {use : Use} {c : Cursor} (counted : c.Counted)
    (lasts : use.runsOut c = false) : (use.next c).Counted := by
  rcases use_moves use c with ⟨out, -⟩ | ⟨-, read, passes⟩
  · rw [lasts] at out
    cases out
  · exact counted_passes counted passes

theorem use_run_out {use : Use} {c : Cursor} (out : use.runsOut c = true) :
    use.next c = c.runOut := by
  rcases use_moves use c with ⟨-, moved⟩ | ⟨lasts, -⟩
  · exact moved
  · rw [out] at lasts
    cases lasts

theorem use_at_end (use : Use) {c : Cursor} (ended : c.rest = []) :
    (use.next c).rest = [] ∧ (use.next c).line = c.line := by
  rcases use_moves use c with ⟨-, out⟩ | ⟨-, read, passes⟩
  · rw [out]
    exact ⟨rfl, rfl⟩
  · obtain ⟨nothing, last⟩ := List.append_eq_nil_iff.mp (passes.rest.symm.trans ended)
    exact ⟨last, by rw [passes.line, nothing, Text.newlines_nil, Nat.add_zero]⟩

/-! Any run of uses. -/

theorem after_append (c : Cursor) (uses more : List Use) :
    c.after (uses ++ more) = (c.after uses).after more := List.foldl_append

theorem after_source (uses : List Use) (c : Cursor) : (c.after uses).source = c.source := by
  induction uses generalizing c with
  | nil => rfl
  | cons use rest ih => exact (ih (use.next c)).trans (use_source use c)

theorem after_position (uses : List Use) (c : Cursor) :
    c.position ≤ (c.after uses).position := by
  induction uses generalizing c with
  | nil => exact Nat.le_refl _
  | cons use rest ih => exact Nat.le_trans (use_position use c) (ih (use.next c))

theorem after_counted {uses : List Use} {c : Cursor} (counted : c.Counted)
    (lasts : c.lasts uses = true) : (c.after uses).Counted := by
  induction uses generalizing c with
  | nil => exact counted
  | cons use rest ih =>
      rw [Cursor.lasts, Bool.and_eq_true, Bool.not_eq_true'] at lasts
      exact ih (use_counted counted lasts.1) lasts.2

theorem after_at_end (uses : List Use) {c : Cursor} (ended : c.rest = []) :
    (c.after uses).rest = [] ∧ (c.after uses).line = c.line := by
  induction uses generalizing c with
  | nil => exact ⟨ended, rfl⟩
  | cons use rest ih =>
      obtain ⟨still, line⟩ := use_at_end use ended
      obtain ⟨last, kept⟩ := ih still
      exact ⟨last, kept.trans line⟩

theorem position_at_end {c : Cursor} (ended : c.rest = []) : c.position = c.source.length := by
  simp [position, source, ended]

theorem counted_start (source : Text) (delimiters : Delimiters) :
    (start source delimiters).Counted := rfl

/-- Once a use has run out, nothing moves any more. -/
theorem after_run_out {uses later : List Use} {use : Use} {c : Cursor} (counted : c.Counted)
    (lasts : c.lasts uses = true) (out : use.runsOut (c.after uses) = true) :
    (c.after (uses ++ use :: later)).position = c.source.length ∧
      (c.after (uses ++ use :: later)).line = c.source.lineAt (c.after uses).position := by
  have here := after_counted counted lasts
  rw [Counted, after_source] at here
  obtain ⟨ended, line⟩ := after_at_end later (c := use.next (c.after uses))
    (by rw [use_run_out out]; rfl)
  have moved : c.after (uses ++ use :: later) = (use.next (c.after uses)).after later :=
    after_append c uses (use :: later)
  rw [← moved] at ended line
  refine ⟨?_, ?_⟩
  · rw [position_at_end ended, after_source]
  · rw [line, use_run_out out]
    exact here

/-! What is read. -/

/-- Reading up to a marker takes all that is ahead, up to and with the first place of the marker.
Without such a place all that is ahead is the error. -/
inductive ReadsUntil (marker : Text) (c : Cursor) : Except Text Text × Cursor → Prop
  | found {position : Nat} {next : Cursor} :
      Text.FirstFrom marker c.source c.position position →
      next.position = position + marker.length →
      ReadsUntil marker c (.ok (c.source.slice c.position next.position), next)
  | absent {next : Cursor} : (∀ position, c.position ≤ position →
      ¬ Text.OccursAt marker c.source position) → next.position = c.source.length →
      ReadsUntil marker c (.error (c.source.drop c.position), next)

/-- What stands before a tag and its opening delimiter are what has been passed. -/
inductive ReadsText (c : Cursor) : TextSpan × Cursor → Prop
  | beforeTag {text padding : Text} {lineStart : Bool} {next : Cursor} :
      text ++ padding ++ c.delimiters.opening = c.source.slice c.position next.position →
      ReadsText c (.beforeTag text padding lineStart, next)
  | toEnd {next : Cursor} : next.position = c.source.length →
      ReadsText c (.toEnd (c.source.drop c.position), next)

theorem drop_position (c : Cursor) : c.source.drop c.position = c.rest := by
  have back : (c.before.reverse ++ c.rest).drop c.before.reverse.length = c.rest := List.drop_left
  rw [List.length_reverse] at back
  exact back

theorem reads_until (marker : Text) (c : Cursor) : c.ReadsUntil marker (c.readUntil marker) := by
  have behind : c.before.reverse.length = c.position := List.length_reverse
  rw [readUntil]
  cases found : Text.upTo? marker c.rest with
  | none =>
      dsimp only
      rw [← drop_position]
      refine .absent (fun position reached => ?_) ?_
      · exact Text.not_occurs_ahead found (behind ▸ reached)
      · rw [position_at_end rfl, source_run_out]
  | some chunk =>
      have passed : c.rest.take (chunk.length + marker.length) = chunk ++ marker := by
        rw [← List.length_append]
        conv => lhs; rw [Text.eq_of_up_to found]
        exact List.take_left
      have passes := passes_advance (chunk.length + marker.length) c
      rw [passed] at passes
      dsimp only
      rw [← passes_slice passes]
      have first := Text.first_ahead c.before.reverse found
      rw [behind] at first
      refine .found first ?_
      rw [passes_position passes, List.length_append, Nat.add_assoc]

theorem reads_text (c : Cursor) : c.ReadsText c.readText := by
  rw [read_text_eq]
  cases found : Text.upTo? c.delimiters.opening c.rest with
  | none =>
      dsimp only
      rw [← drop_position]
      exact .toEnd (by rw [position_at_end rfl, source_run_out])
  | some chunk =>
      have passed : c.rest.take (chunk.length + c.delimiters.opening.length) =
          chunk ++ c.delimiters.opening := by
        rw [← List.length_append]
        conv => lhs; rw [Text.eq_of_up_to found]
        exact List.take_left
      have passes := passes_advance (chunk.length + c.delimiters.opening.length) c
      rw [passed] at passes
      refine .beforeTag ?_
      rw [text_append_padding, passes_slice passes]

/-- Whatever a cursor has been asked, and in whatever order, it stands in its source and never moves
back. Its line is that of its position until a use runs out. From then on it stands at the end of
the source, on the line where the search began. What it reads next is what stands between its
position and the next one. -/
theorem cursor_consistent (source : Text) (delimiters : Delimiters) (uses : List Use) :
    let first := start source delimiters
    let c := first.after uses
    c.source = source ∧ c.position ≤ source.length ∧
      (∀ more, c.position ≤ (c.after more).position) ∧
      (first.lasts uses = true → c.line = source.lineAt c.position) ∧
      (∀ earlier use later, uses = earlier ++ use :: later → first.lasts earlier = true →
        use.runsOut (first.after earlier) = true →
        c.position = source.length ∧ c.line = source.lineAt (first.after earlier).position) ∧
      (∀ marker, c.ReadsUntil marker (c.readUntil marker)) ∧ c.ReadsText c.readText := by
  intro first c
  have whole : c.source = source := after_source uses first
  refine ⟨whole, whole ▸ position_le c, fun more => after_position more c, ?_, ?_,
    fun marker => reads_until marker c, reads_text c⟩
  · intro lasts
    have counted := after_counted (counted_start source delimiters) lasts
    rw [Counted] at counted
    rw [counted, whole]
  · rintro earlier use later rfl lasts out
    exact after_run_out (counted_start source delimiters) lasts out

def cutPage : Text := "a\n \x7b\x7b#x\x7d\x7d \nb\x7b\x7by\nz".toList

def untilCut : List Use := [.readText, .readTag true, .readUntil Delimiters.standard.opening]

def pastCut : List Use :=
  [.consumeLineEnd, .setDelimiters ⟨['<'], ['>']⟩, .readText, .readUntil [], .readTag false]

theorem cut_page_runs_out :
    let first := start cutPage .standard
    let c := first.after (untilCut ++ .readTag true :: pastCut)
    first.lasts untilCut = true ∧ (Use.readTag true).runsOut (first.after untilCut) = true ∧
      c.position = cutPage.length ∧ c.line = cutPage.lineAt (first.after untilCut).position ∧
      c.line = 3 ∧ cutPage.lineAt c.position = 4 := by
  intro first c
  have lasts : first.lasts untilCut = true := by decide
  have out : (Use.readTag true).runsOut (first.after untilCut) = true := by decide
  obtain ⟨-, -, -, -, ended, -⟩ :=
    cursor_consistent cutPage .standard (untilCut ++ .readTag true :: pastCut)
  obtain ⟨position, line⟩ := ended untilCut (.readTag true) pastCut rfl lasts out
  exact ⟨lasts, out, position, line, by decide, by decide⟩

end Cursor
end Mustache
