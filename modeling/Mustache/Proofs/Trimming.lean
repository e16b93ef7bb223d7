import Mustache.Text.Basic
import Mathlib.Data.List.DropRight

/-!
White space around a text. What is trimmed off makes no difference to what is left, and a
character that is no white space keeps what lies behind it.
-/

namespace Mustache.Text

def Blank (t : Text) : Prop := ∀ c ∈ t, isSpace c = true

instance (t : Text) : Decidable (Blank t) := List.decidableBAll (isSpace · = true) t

theorem visible_of_all {t : Text} (all : t.all (!isSpace ·) = true) :
    ∀ c ∈ t, isSpace c = false := by
  simpa using all

theorem trim_left_blank (blank t : Text) (spaces : Blank blank) :
    trimLeft (blank ++ t) = trimLeft t := by
  rw [trimLeft, List.dropWhile_append_of_pos spaces]
  rfl

theorem trim_right_blank (t blank : Text) (spaces : Blank blank) :
    trimRight (t ++ blank) = trimRight t := by
  have back : ∀ c ∈ blank.reverse, isSpace c = true := by
    intro c member
    exact spaces c (List.mem_reverse.mp member)
  rw [trimRight, List.reverse_append, List.dropWhile_append_of_pos back]
  rfl

theorem trim_right_split (t : Text) : ∃ blank, Blank blank ∧ t = trimRight t ++ blank := by
  refine ⟨(t.reverse.takeWhile isSpace).reverse, ?_, ?_⟩
  · intro c member
    exact List.all_eq_true.mp List.all_takeWhile c (List.mem_reverse.mp member)
  · rw [trimRight, ← List.reverse_append, List.takeWhile_append_dropWhile, List.reverse_reverse]

theorem trim_left_append (t blank : Text) (spaces : Blank blank) :
    ∃ rest, Blank rest ∧ trimLeft (t ++ blank) = trimLeft t ++ rest := by
  rw [trimLeft, List.dropWhile_append]
  split
  · next empty =>
      have none : trimLeft t = [] := List.isEmpty_iff.mp empty
      refine ⟨[], by simp [Blank], ?_⟩
      rw [none, List.dropWhile_eq_nil_iff.mpr spaces]
      rfl
  · exact ⟨blank, spaces, rfl⟩

theorem trim_blank (before t after : Text) (left : Blank before) (right : Blank after) :
    trim (before ++ t ++ after) = trim t := by
  obtain ⟨rest, spaces, split⟩ := trim_left_append t after right
  rw [trim, List.append_assoc, trim_left_blank before _ left, split, trim_right_blank _ _ spaces]
  rfl

theorem trim_trim_right (t : Text) : trim (trimRight t) = trim t := by
  obtain ⟨blank, spaces, split⟩ := trim_right_split t
  have same := trim_blank [] (trimRight t) blank (by simp [Blank]) spaces
  rw [List.nil_append, ← split] at same
  exact same.symm

theorem trim_trim (t : Text) : trim (trim t) = trim t := by
  have left : trimLeft (trimLeft t) = trimLeft t := List.dropWhile_idempotent isSpace t
  rw [trim.eq_1 t, trim_trim_right, trim, left]

theorem trim_right_idem (t : Text) : trimRight (trimRight t) = trimRight t := by
  obtain ⟨blank, spaces, split⟩ := trim_right_split t
  have same := trim_right_blank (trimRight t) blank spaces
  rw [← split] at same
  exact same.symm

theorem trim_right_cons (c : Char) (t : Text) (visible : isSpace c = false) :
    trimRight (c :: t) = c :: trimRight t := by
  rw [trimRight, List.reverse_cons, List.dropWhile_append]
  split
  · next empty =>
      rw [trimRight, List.isEmpty_iff.mp empty]
      simp [visible]
  · simp [trimRight]

theorem trim_cons (c : Char) (t : Text) (visible : isSpace c = false) :
    trim (c :: t) = c :: trimRight t := by
  have left : trimLeft (c :: t) = c :: t := by simp [trimLeft, visible]
  rw [trim, left, trim_right_cons c t visible]

theorem trim_enclosed (first last : Char) (t : Text) (opens : isSpace first = false)
    (closes : isSpace last = false) : trim (first :: t ++ [last]) = first :: t ++ [last] := by
  rw [List.cons_append, trim_cons first _ opens, trimRight, List.reverse_append]
  simp [closes]

theorem visible_trim (t : Text) : (trim t).filter (!isSpace ·) = t.filter (!isSpace ·) := by
  have left (t : Text) : (trimLeft t).filter (!isSpace ·) = t.filter (!isSpace ·) := by
    induction t with
    | nil => rfl
    | cons c rest ih => cases space : isSpace c <;> simp_all [trimLeft]
  have right (t : Text) : (trimRight t).filter (!isSpace ·) = t.filter (!isSpace ·) := by
    have back := left t.reverse
    rw [List.filter_reverse] at back
    rw [trimRight, List.filter_reverse]
    exact (congrArg List.reverse back).trans (List.reverse_reverse _)
  rw [trim, right, left]

theorem trim_first_visible (t : Text) (c : Char) (first : t.trim.head? = some c) :
    isSpace c = false := by
  have stop := List.head?_dropWhile_not isSpace t
  obtain ⟨blank, -, split⟩ := trim_right_split t.trimLeft
  have head : t.trimLeft.head? = some c := by
    rw [split, List.head?_append]
    exact Option.or_eq_some_iff.mpr (Or.inl first)
  rw [trimLeft] at head
  rw [head] at stop
  simpa using stop

theorem trim_head (t : Text) : t.trim.head? = (t.filter (!isSpace ·)).head? := by
  rw [← visible_trim]
  cases whole : t.trim with
  | nil => rfl
  | cons c rest =>
      have visible := trim_first_visible t c (by rw [whole]; rfl)
      simp [visible]

end Mustache.Text
