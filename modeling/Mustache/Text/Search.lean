import Mustache.Text.Basic

/-!
The first occurrence of a marker in a text. An empty marker occurs at once, also
in the empty text.
-/

namespace Mustache.Text

def upTo? (marker : Text) : Text → Option Text
  | [] => if marker = [] then some [] else none
  | c :: rest =>
      if marker.isPrefixOf (c :: rest) then some []
      else (upTo? marker rest).map (c :: ·)

theorem eq_of_up_to {marker t before : Text} (found : upTo? marker t = some before) :
    t = before ++ marker ++ t.drop (before.length + marker.length) := by
  induction t generalizing before with
  | nil =>
      simp only [upTo?] at found
      split at found
      · next empty => cases found; simp [empty]
      · cases found
  | cons c rest ih =>
      simp only [upTo?] at found
      split at found
      · next here =>
          cases found
          obtain ⟨tail, split⟩ := List.isPrefixOf_iff_prefix.mp here
          rw [← split]
          simp
      · obtain ⟨inner, later, rfl⟩ := Option.map_eq_some_iff.mp found
        have step := ih later
        simp only [List.cons_append, List.length_cons, Nat.succ_add, List.drop_succ_cons]
        exact congrArg (c :: ·) step

theorem length_of_up_to {marker t before : Text} (found : upTo? marker t = some before) :
    before.length + marker.length ≤ t.length := by
  have parts := congrArg List.length (eq_of_up_to found)
  simp only [List.length_append, List.length_drop] at parts
  omega

theorem first_of_up_to {marker t before : Text} (found : upTo? marker t = some before)
    (n : Nat) (earlier : n < before.length) : marker.isPrefixOf (t.drop n) = false := by
  induction t generalizing before n with
  | nil =>
      simp only [upTo?] at found
      split at found
      · cases found; simp at earlier
      · cases found
  | cons c rest ih =>
      simp only [upTo?] at found
      split at found
      · cases found; simp at earlier
      · next absent =>
          obtain ⟨inner, later, rfl⟩ := Option.map_eq_some_iff.mp found
          -- The marker is not here, so no earlier place is left but those behind the first
          -- character.
          cases n with
          | zero => simpa only [List.drop_zero, Bool.not_eq_true] using absent
          | succ n =>
              simp only [List.length_cons, Nat.succ_lt_succ_iff] at earlier
              simpa using ih later n earlier

end Mustache.Text
