import Mathlib.Data.List.Basic
import Mustache.Value.Order

/-!
Sorting by a comparison that may fail. It moves values and makes up none, and fails only where
a comparison of two of them does.
-/

namespace Mustache

section Steps
variable {ε α β : Type} {act : Except ε α} {next : α → Except ε β}

theorem bind_succeeds {result : β} (ran : act >>= next = .ok result) :
    ∃ first, act = .ok first ∧ next first = .ok result := by
  cases act with
  | error error => cases ran
  | ok first => exact ⟨first, rfl, ran⟩

theorem bind_fails {error : ε} (failed : act >>= next = .error error) :
    act = .error error ∨ ∃ first, act = .ok first ∧ next first = .error error := by
  cases act with
  | error error' =>
      cases failed
      exact .inl rfl
  | ok first => exact .inr ⟨first, rfl, failed⟩

end Steps

namespace Sorting
variable {α ε : Type} {less : α → α → Except ε Bool}

section Moving

theorem run_perm {falling : Bool} {last : α} {taken rest : List α} {split : List α × List α}
    (ran : run less falling last taken rest = .ok split) :
    (split.1 ++ split.2).Perm (taken ++ last :: rest) := by
  induction rest generalizing last taken with
  | nil =>
      cases ran
      simpa using (List.perm_append_singleton last taken).symm
  | cons next rest ih =>
      obtain ⟨falls, -, goes⟩ := bind_succeeds ran
      split at goes
      · exact (ih goes).trans List.perm_middle.symm
      · cases goes
        exact List.perm_middle.symm

theorem insert_all_perm {sorted values result : List α}
    (inserted : insertAll less sorted values = .ok result) : result.Perm (sorted ++ values) := by
  induction values generalizing sorted with
  | nil =>
      cases inserted
      rw [List.append_nil]
  | cons v rest ih =>
      obtain ⟨place, -, goes⟩ := bind_succeeds inserted
      have placed : (sorted.take place ++ v :: sorted.drop place).Perm (v :: sorted) := by
        have parts := List.take_append_drop place sorted
        nth_rewrite 3 [← parts]
        exact List.perm_middle
      exact (ih goes).trans ((placed.append_right rest).trans List.perm_middle.symm)

theorem sort_perm {values result : List α} (sorted : sort less values = .ok result) :
    result.Perm values := by
  match values with
  | [] | [_] =>
      cases sorted
      exact .refl _
  | first :: second :: rest =>
      obtain ⟨falling, -, goes⟩ := bind_succeeds sorted
      obtain ⟨⟨taken, later⟩, ran, inserted⟩ := bind_succeeds goes
      have turned : (if falling then taken else taken.reverse).Perm taken := by
        split
        · exact .refl _
        · exact taken.reverse_perm
      exact (insert_all_perm inserted).trans ((turned.append_right later).trans (run_perm ran))

end Moving

def Fails (less : α → α → Except ε Bool) (inside : α → Prop) (error : ε) : Prop :=
  ∃ a b, inside a ∧ inside b ∧ less a b = .error error

section Failing
variable {inside : α → Prop} {error : ε}

theorem run_fails {falling : Bool} {last : α} {taken rest : List α} (here : inside last)
    (later : ∀ v ∈ rest, inside v) (failed : run less falling last taken rest = .error error) :
    Fails less inside error := by
  induction rest generalizing last taken with
  | nil => cases failed
  | cons next rest ih =>
      obtain ⟨known, others⟩ := List.forall_mem_cons.mp later
      rcases bind_fails failed with compared | ⟨falls, -, goes⟩
      · exact ⟨next, last, known, here, compared⟩
      · split at goes
        · exact ih known others goes
        · cases goes

theorem position_fails {sorted : Array α} {v : α} {steps low high : Nat} (here : inside v)
    (before : ∀ w ∈ sorted, inside w)
    (failed : position less sorted v steps low high = .error error) :
    Fails less inside error := by
  induction steps generalizing low high with
  | zero => cases failed
  | succ steps ih =>
      unfold position at failed
      split at failed
      · dsimp only at failed
        split at failed
        · cases failed
        · next other at_ =>
            -- The comparison in the middle fails, or the one in the half that it leads to.
            rcases bind_fails failed with compared | ⟨comes, -, goes⟩
            · exact ⟨v, other, here, before other (Array.mem_of_getElem? at_), compared⟩
            · split at goes <;> exact ih goes
      · cases failed

theorem insert_all_fails {sorted values : List α} (before : ∀ v ∈ sorted, inside v)
    (later : ∀ v ∈ values, inside v) (failed : insertAll less sorted values = .error error) :
    Fails less inside error := by
  induction values generalizing sorted with
  | nil => cases failed
  | cons v rest ih =>
      obtain ⟨here, others⟩ := List.forall_mem_cons.mp later
      rcases bind_fails failed with sought | ⟨place, -, goes⟩
      · exact position_fails here (by simpa using before) sought
      · apply ih _ others goes
        intro w member
        rcases List.mem_append.mp member with front | back
        · exact before w (List.mem_of_mem_take front)
        · rcases List.mem_cons.mp back with rfl | back
          · exact here
          · exact before w (List.mem_of_mem_drop back)

theorem sort_fails {values : List α} (all : ∀ v ∈ values, inside v)
    (failed : sort less values = .error error) : Fails less inside error := by
  match values with
  | [] | [_] => cases failed
  | first :: second :: rest =>
      simp only [List.forall_mem_cons] at all
      obtain ⟨one, two, others⟩ := all
      rcases bind_fails failed with compared | ⟨falling, -, goes⟩
      · exact ⟨second, first, two, one, compared⟩
      · rcases bind_fails goes with ran | ⟨⟨taken, later⟩, ran, inserted⟩
        · exact run_fails two others ran
        · -- What was taken and what is left are the values themselves.
          have known : ∀ v ∈ taken ++ later, inside v := by
            intro v member
            have here := (run_perm ran).mem_iff.mp member
            simp only [List.cons_append, List.nil_append, List.mem_cons] at here
            rcases here with rfl | rfl | here
            · exact one
            · exact two
            · exact others v here
          obtain ⟨front, back⟩ := List.forall_mem_append.mp known
          refine insert_all_fails ?_ back inserted
          intro v member
          apply front
          split at member
          · exact member
          · exact List.mem_reverse.mp member

end Failing
end Sorting

/-! The order of values. -/

namespace Value

theorem less_atom_fails {asking : Asking} {a b : Value} {error : HostError}
    (failed : lessAtom asking a b = .error error) : error.kind = .type := by
  have unordered : (notOrdered asking a b).kind = .type := by cases asking <;> rfl
  unfold lessAtom at failed
  split at failed
  · cases failed
  · cases failed
  · split at failed
    · cases failed
    · cases failed
      rfl
  · cases failed
  · split at failed
    · cases failed
    · cases failed
      exact unordered

mutual
theorem less_by_fails (asking : Asking) (a b : Value) {error : HostError}
    (failed : lessBy asking a b = .error error) : error.kind = .type := by
  match a with
  | .sequence .tuple items =>
      rw [lessBy] at failed
      split at failed
      · exact less_items_fails _ items _ failed
      · cases failed
        cases asking <;> rfl
  | .namedTuple className fields =>
      rw [lessBy] at failed
      split at failed
      · exact less_fields_fails _ fields _ failed
      · cases failed
        cases asking <;> rfl
  | .sequence .list _ | .sequence .set _ | .sequence .frozenSet _ | .sequence .deque _
  | .sequence .userList _ | .sequence .orderedSet _ | .null | .missing | .bool _ | .int _
  | .float _ | .exactNumber _ _ | .str _ | .bytes _ _ | .moment _ | .range _ | .mapping _ _ _
  | .filling _ _ _ | .object _ _ | .function _ _ | .wrapped _ _ _ | .reversedList _ _
  | .onceList _ | .bare _ =>
      simp only [lessBy] at failed
      exact less_atom_fails failed

theorem less_items_fails (asking : Asking) (items others : List Value) {error : HostError}
    (failed : lessItems asking items others = .error error) : error.kind = .type := by
  match items, others with
  | _, [] =>
      rw [lessItems] at failed
      cases failed
  | [], _ :: _ => cases failed
  | a :: items, b :: others =>
      rw [lessItems] at failed
      split at failed
      · exact less_items_fails asking items others failed
      · exact less_by_fails asking a b failed

theorem less_fields_fails (asking : Asking) (fields : List (Text × Value)) (others : List Value)
    {error : HostError} (failed : lessFields asking fields others = .error error) :
    error.kind = .type := by
  match fields, others with
  | _, [] =>
      rw [lessFields] at failed
      cases failed
  | [], _ :: _ => cases failed
  | (_, a) :: fields, b :: others =>
      rw [lessFields] at failed
      split at failed
      · exact less_fields_fails asking fields others failed
      · exact less_by_fails asking a b failed
end

theorem sorted_fails {values : List Value} {error : HostError}
    (failed : sorted values = .error error) : error.kind = .type := by
  obtain ⟨a, b, -, -, compared⟩ := Sorting.sort_fails (fun _ _ => trivial) failed
  exact less_by_fails .below a b compared

theorem texts_sorted {values : List Value} (texts : ∀ v ∈ values, ∃ text, v = .str text) :
    ∃ result, sorted values = .ok result := by
  cases ran : sorted values with
  | ok result => exact ⟨result, rfl⟩
  | error error =>
      obtain ⟨_, _, ⟨s, rfl⟩, ⟨t, rfl⟩, compared⟩ := Sorting.sort_fails texts ran
      cases compared

end Value
end Mustache
