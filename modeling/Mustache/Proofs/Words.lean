import Mathlib.Data.List.Basic
import Mustache.Proofs.Trimming

/-!
The words of a text. They are its runs of characters that are no white space, as long as they
can be, in the order in which they stand.
-/

namespace Mustache.Text

def Word (t : Text) : Prop := t ≠ [] ∧ ∀ c ∈ t, isSpace c = false

def EndsWord (t : Text) : Prop := ∀ c ∈ t.head?, isSpace c = true

theorem word_not_blank {t : Text} (word : Word t) : ¬ Blank t := by
  obtain ⟨some, visible⟩ := word
  obtain ⟨c, rest, rfl⟩ := List.exists_cons_of_ne_nil some
  intro blank
  have same := (visible c List.mem_cons_self).symm.trans (blank c List.mem_cons_self)
  cases same

theorem words_from_nil {taken : Text} (some : taken ≠ []) :
    wordsFrom taken [] = [taken.reverse] := by
  cases taken with
  | nil => exact absurd rfl some
  | cons c taken => rfl

theorem words_from_cons (taken : Text) (c : Char) (rest : Text) :
    wordsFrom taken (c :: rest) =
      if isSpace c then
        if taken = [] then wordsFrom [] rest else taken.reverse :: wordsFrom [] rest
      else wordsFrom (c :: taken) rest := by
  cases taken <;> rfl

theorem words_from_word (taken : Text) {word : Text} (visible : ∀ c ∈ word, isSpace c = false)
    (rest : Text) : wordsFrom taken (word ++ rest) = wordsFrom (word.reverse ++ taken) rest := by
  induction word generalizing taken with
  | nil => rfl
  | cons c word ih =>
      obtain ⟨here, later⟩ := List.forall_mem_cons.mp visible
      rw [List.cons_append, words_from_cons, here, List.reverse_cons, List.append_assoc]
      exact ih (c :: taken) later

theorem words_blank {blank : Text} (spaces : Blank blank) (t : Text) :
    words (blank ++ t) = words t := by
  induction blank with
  | nil => rfl
  | cons c blank ih =>
      obtain ⟨here, later⟩ := List.forall_mem_cons.mp spaces
      rw [← ih later, words, words, List.cons_append, words_from_cons, if_pos here, if_pos rfl]

theorem words_word {word rest : Text} (is_word : Word word) (ends : EndsWord rest) :
    words (word ++ rest) = word :: words rest := by
  have some : word.reverse ≠ [] := fun none => is_word.1 (List.reverse_eq_nil_iff.mp none)
  rw [words, words_from_word [] is_word.2, List.append_nil]
  cases rest with
  | nil =>
      rw [words_from_nil some, List.reverse_reverse]
      rfl
  | cons c rest =>
      have space : isSpace c = true := ends c rfl
      rw [words_from_cons, if_pos space, if_neg some, List.reverse_reverse, words,
        words_from_cons, if_pos space, if_pos rfl]

theorem visible_prefix (t : Text) :
    ∃ word rest, t = word ++ rest ∧ (∀ c ∈ word, isSpace c = false) ∧ EndsWord rest := by
  refine ⟨t.takeWhile (!isSpace ·), t.dropWhile (!isSpace ·),
    List.takeWhile_append_dropWhile.symm, visible_of_all List.all_takeWhile, ?_⟩
  intro c here
  have stop := List.head?_dropWhile_not (!isSpace ·) t
  rw [Option.mem_def.mp here] at stop
  simpa using stop

theorem first_word (t : Text) :
    (Blank t ∧ words t = []) ∨ ∃ before word rest, t = before ++ (word ++ rest) ∧
      Blank before ∧ Word word ∧ EndsWord rest ∧ words t = word :: words rest := by
  induction t with
  | nil => exact .inl ⟨List.forall_mem_nil _, rfl⟩
  | cons c t ih =>
      -- White space in front changes nothing; anything else begins the first word.
      cases space : isSpace c with
      | true =>
          have same : words (c :: t) = words t :=
            words_blank (List.forall_mem_singleton.mpr space) t
          rcases ih with ⟨blank, none⟩ | ⟨before, word, rest, rfl, blank, is_word, ends, some⟩
          · exact .inl ⟨List.forall_mem_cons.mpr ⟨space, blank⟩, same.trans none⟩
          · exact .inr ⟨c :: before, word, rest, rfl, List.forall_mem_cons.mpr ⟨space, blank⟩,
              is_word, ends, same.trans some⟩
      | false =>
          obtain ⟨word, rest, rfl, visible, ends⟩ := visible_prefix t
          have is_word : Word (c :: word) :=
            ⟨List.cons_ne_nil c word, List.forall_mem_cons.mpr ⟨space, visible⟩⟩
          exact .inr ⟨[], c :: word, rest, rfl, List.forall_mem_nil _, is_word, ends,
            words_word is_word ends⟩

def TwoWords (t first second : Text) : Prop :=
  ∃ before between after, t = before ++ (first ++ (between ++ (second ++ after))) ∧
    Blank before ∧ Blank between ∧ between ≠ [] ∧ Blank after ∧ Word first ∧ Word second

theorem words_two_iff {t first second : Text} :
    t.words = [first, second] ↔ TwoWords t first second := by
  constructor
  · intro split
    rcases first_word t with ⟨-, none⟩ | ⟨before, word, rest, rfl, blank, is_word, ends, some⟩
    · cases none.symm.trans split
    · injection some.symm.trans split with same later
      subst same
      rcases first_word rest with
        ⟨-, none⟩ | ⟨between, word', after, rfl, blank', is_word', -, some'⟩
      · cases none.symm.trans later
      · injection some'.symm.trans later with same last
        subst same
        rcases first_word after with ⟨blank'', -⟩ | ⟨_, _, _, -, -, -, -, some''⟩
        · refine ⟨before, between, after, rfl, blank, blank', ?_, blank'', is_word, is_word'⟩
          rintro rfl
          -- Without white space the first word would go on.
          obtain ⟨c, tail, rfl⟩ := List.exists_cons_of_ne_nil is_word'.1
          cases (ends c rfl).symm.trans (is_word'.2 c List.mem_cons_self)
        · cases some''.symm.trans last
  · rintro ⟨before, between, after, rfl, blank, blank', some, blank'', is_word, is_word'⟩
    have ends : EndsWord (between ++ (second ++ after)) := by
      obtain ⟨c, tail, rfl⟩ := List.exists_cons_of_ne_nil some
      rintro c' ⟨⟩
      exact blank' c List.mem_cons_self
    have ends' : EndsWord after := fun c here => blank'' c (List.mem_of_mem_head? here)
    have none : words after = [] := by
      rw [← List.append_nil after]
      exact words_blank blank'' []
    rw [words_blank blank, words_word is_word ends, words_blank blank', words_word is_word' ends',
      none]

end Mustache.Text
