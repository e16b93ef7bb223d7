import Mustache.Cursor

/-!
Lines of a text, and what is found in a text that goes on. A text that ends a line can
be read without looking past it: a tag found in it stays where it is whatever follows,
and so does the end of a line.
-/

namespace Mustache

namespace Text

@[simp] theorem newlines_nil : newlines [] = 0 := rfl

@[simp] theorem newlines_reverse (t : Text) : newlines t.reverse = newlines t := by
  simp [newlines]

theorem newlines_eq_zero_iff (t : Text) : newlines t = 0 ↔ '\n' ∉ t := List.count_eq_zero

/-- The line of a position, counted from one. -/
def lineAt (t : Text) (position : Nat) : Nat := 1 + newlines (t.take position)

theorem line_at_le (source : Text) (position : Nat) :
    source.lineAt position ≤ 1 + source.newlines := by
  have split := congrArg newlines (List.take_append_drop position source)
  rw [newlines_append] at split
  unfold lineAt
  omega

theorem line_at_mono (source : Text) {first last : Nat} (order : first ≤ last) :
    source.lineAt first ≤ source.lineAt last := by
  have split := congrArg newlines (List.take_append_drop first (source.take last))
  rw [newlines_append, List.take_take, Nat.min_eq_left order] at split
  unfold lineAt
  omega

def EndsLine (t : Text) : Prop := t = [] ∨ t.getLast? = some '\n'

instance (t : Text) : Decidable t.EndsLine := inferInstanceAs (Decidable (_ ∨ _))

theorem ends_line_iff (t : Text) : t.EndsLine ↔ Cursor.startsLine t.reverse = true := by
  rw [EndsLine, ← List.head?_reverse]
  cases back : t.reverse with
  | nil => simpa [Cursor.startsLine] using back
  | cons c rest =>
      have nonempty : t ≠ [] := by
        rintro rfl
        cases back
      simp [Cursor.startsLine, nonempty]

theorem ends_line_append (a b : Text) (ends : (a ++ b).EndsLine) : b.EndsLine := by
  cases b with
  | nil => exact Or.inl rfl
  | cons c rest =>
      rcases ends with none | last
      · simp at none
      · exact Or.inr (by simpa using last)

theorem ends_line_mem (t : Text) (ends : t.EndsLine) (nonempty : t ≠ []) : '\n' ∈ t := by
  rcases ends with empty | last
  · exact absurd empty nonempty
  · exact List.mem_of_getLast? last

theorem up_to_none_iff (marker t : Text) : upTo? marker t = none ↔ ¬ marker <:+: t := by
  induction t with
  | nil => simp [upTo?]
  | cons c rest ih =>
      rw [upTo?, List.infix_cons_iff, ← List.isPrefixOf_iff_prefix]
      split
      · next here => simp [here]
      · next absent => simp [absent, ih]

theorem up_to_append (marker t more before : Text) (found : upTo? marker t = some before) :
    upTo? marker (t ++ more) = some before := by
  induction t generalizing before with
  | nil =>
      simp only [upTo?] at found
      split at found
      · next empty =>
          cases found
          subst empty
          cases more <;> simp [upTo?]
      · cases found
  | cons c rest ih =>
      simp only [upTo?] at found
      split at found
      · next here =>
          cases found
          have longer : marker.isPrefixOf (c :: (rest ++ more)) = true := by
            rw [List.isPrefixOf_iff_prefix] at here ⊢
            exact here.trans (List.prefix_append (c :: rest) more)
          simp [upTo?, longer]
      · next absent =>
          obtain ⟨inner, later, rfl⟩ := Option.map_eq_some_iff.mp found
          -- A marker found later fits into the rest, so it cannot reach past its end.
          have fits := length_of_up_to later
          have still : marker.isPrefixOf (c :: (rest ++ more)) = false := by
            rw [Bool.eq_false_iff]
            intro here
            rw [List.isPrefixOf_iff_prefix] at here absent
            exact absent (List.prefix_of_prefix_length_le here (List.prefix_append (c :: rest) more)
              (by simp only [List.length_cons]; omega))
          simp [upTo?, still, ih inner later]

theorem up_to_first (first : Char) (others t ahead : Text) (absent : first ∉ t) :
    upTo? (first :: others) (t ++ (first :: others) ++ ahead) = some t := by
  induction t with
  | nil => simp [upTo?]
  | cons c rest ih =>
      rw [List.mem_cons, not_or] at absent
      have later := ih absent.2
      simp only [List.append_assoc, List.cons_append] at later ⊢
      simp [upTo?, absent.1, later]

theorem up_to_absent (first : Char) (others t : Text) (absent : first ∉ t) :
    upTo? (first :: others) t = none := by
  induction t with
  | nil => rfl
  | cons c rest ih =>
      rw [List.mem_cons, not_or] at absent
      simp [upTo?, absent.1, ih absent.2]

/-- A marker without a line break that is not found before the end of a line is not
found across it either. -/
theorem up_to_across (marker t more : Text) (inline : '\n' ∉ marker) (ends : t.EndsLine)
    (absent : upTo? marker t = none) :
    upTo? marker (t ++ more) = (upTo? marker more).map (t ++ ·) := by
  induction t with
  | nil => simp
  | cons c rest ih =>
      simp only [upTo?] at absent
      split at absent
      · cases absent
      · next here =>
          have later := ih (ends_line_append [c] rest ends) (by simpa using absent)
          -- A marker that starts here lies within the text or runs over its last line break.
          have still : marker.isPrefixOf (c :: (rest ++ more)) = false := by
            rw [Bool.eq_false_iff]
            intro across
            rw [List.isPrefixOf_iff_prefix] at across here
            rcases List.prefix_or_prefix_of_prefix across
              (List.prefix_append (c :: rest) more) with short | long
            · exact here short
            · exact inline (long.subset (ends_line_mem _ ends (by simp)))
          simp [upTo?, still, later, Function.comp_def]

end Text

namespace Cursor

theorem position_le (c : Cursor) : c.position ≤ c.source.length := by
  simp [position, source]

def LineBreak (brk ahead : Text) : Prop :=
  (brk = [] ∧ ahead = []) ∨ brk = ['\n'] ∨ brk = ['\r', '\n']

theorem line_end_iff (t trail : Text) :
    lineEnd? t = some trail ↔
      ∃ padding brk ahead, t = padding ++ brk ++ ahead ∧
        (∀ c ∈ padding, Text.isPadding c = true) ∧ LineBreak brk ahead ∧
        trail = padding ++ brk := by
  constructor
  · intro found
    have blank : ∀ c ∈ t.takeWhile Text.isPadding, Text.isPadding c = true :=
      List.all_eq_true.mp List.all_takeWhile
    have split := List.takeWhile_append_dropWhile (p := Text.isPadding) (l := t)
    unfold lineEnd? at found
    dsimp only at found
    split at found
    · next rest =>
        cases found
        exact ⟨_, [], [], by simpa [rest] using split.symm, blank, Or.inl ⟨rfl, rfl⟩, by simp⟩
    · next ahead rest =>
        cases found
        exact ⟨_, ['\n'], ahead, by simpa [rest] using split.symm, blank, Or.inr (Or.inl rfl), rfl⟩
    · next ahead rest =>
        cases found
        exact ⟨_, ['\r', '\n'], ahead, by simpa [rest] using split.symm, blank,
          Or.inr (Or.inr rfl), rfl⟩
    · cases found
  · rintro ⟨padding, brk, ahead, rfl, blank, stop, rfl⟩
    -- A line break is no padding, so the padding is just what comes before it.
    have front : ((padding ++ brk ++ ahead).takeWhile Text.isPadding) = padding := by
      rw [List.append_assoc, List.takeWhile_append_of_pos blank]
      rcases stop with ⟨rfl, rfl⟩ | rfl | rfl <;> simp [Text.isPadding]
    have back : ((padding ++ brk ++ ahead).dropWhile Text.isPadding) = brk ++ ahead := by
      rw [List.append_assoc, List.dropWhile_append_of_pos blank]
      rcases stop with ⟨rfl, rfl⟩ | rfl | rfl <;> simp [Text.isPadding]
    unfold lineEnd?
    rw [front, back]
    rcases stop with ⟨rfl, rfl⟩ | rfl | rfl <;> simp

theorem line_end_append (t more : Text) (nonempty : t ≠ []) (ends : t.EndsLine) :
    lineEnd? (t ++ more) = lineEnd? t := by
  have split := List.takeWhile_append_dropWhile (p := Text.isPadding) (l := t)
  have blank : ∀ c ∈ t.takeWhile Text.isPadding, Text.isPadding c = true :=
    List.all_eq_true.mp List.all_takeWhile
  have rest_ends : Text.EndsLine (t.dropWhile Text.isPadding) :=
    Text.ends_line_append (t.takeWhile Text.isPadding) _ (split.symm ▸ ends)
  cases rest : t.dropWhile Text.isPadding with
  | nil =>
      rw [rest, List.append_nil] at split
      have newline := blank '\n' (split.symm ▸ Text.ends_line_mem t ends nonempty)
      exact absurd newline (by decide)
  | cons c later =>
      have stop : ¬ Text.isPadding c = true := by
        have := List.head_dropWhile_not (p := Text.isPadding) (l := t) (by simp [rest])
        simpa [rest] using this
      have whole : t ++ more = t.takeWhile Text.isPadding ++ c :: (later ++ more) := by
        rw [← List.cons_append, ← rest, ← List.append_assoc, split]
      have front : (t ++ more).takeWhile Text.isPadding = t.takeWhile Text.isPadding := by
        rw [whole, List.takeWhile_append_of_pos blank]
        simp [stop]
      have back : (t ++ more).dropWhile Text.isPadding = c :: (later ++ more) := by
        rw [whole, List.dropWhile_append_of_pos blank]
        simp [stop]
      unfold lineEnd?
      rw [front, back, rest]
      rw [rest] at rest_ends
      cases later with
      | nil =>
          have newline : c = '\n' := by simpa [Text.EndsLine] using rest_ends
          simp [newline]
      | cons next later =>
          -- Two characters decide, and both stand in `t`.
          dsimp only [List.cons_append]
          by_cases newline : c = '\n'
          · simp [newline]
          · by_cases carriage : c = '\r'
            · by_cases feed : next = '\n' <;> simp [carriage, feed]
            · simp [newline, carriage]

end Cursor
end Mustache
