import Mustache.Text.Escape

/-!
Reading escaped text back. Every entity begins with an ampersand, and escaping leaves no other
ampersand, so one pass from left to right finds the entities that escaping wrote and no others:
also in a text that had entities before it was escaped.
-/

namespace Mustache.Text

/-- One pass from left to right that puts its character in the place of each entity. -/
def unescapeHtml : Text → Text
  | [] => []
  | '&' :: 'a' :: 'm' :: 'p' :: ';' :: rest => '&' :: unescapeHtml rest
  | '&' :: 'l' :: 't' :: ';' :: rest => '<' :: unescapeHtml rest
  | '&' :: 'g' :: 't' :: ';' :: rest => '>' :: unescapeHtml rest
  | '&' :: '#' :: '3' :: '4' :: ';' :: rest => '"' :: unescapeHtml rest
  | '&' :: '#' :: '3' :: '9' :: ';' :: rest => '\'' :: unescapeHtml rest
  | c :: rest => c :: unescapeHtml rest

def replaceNull (c : Char) : Char := if c = '\x00' then '\uFFFD' else c

theorem unescape_plain {c : Char} (plain : c ≠ '&') (rest : Text) :
    unescapeHtml (c :: rest) = c :: unescapeHtml rest := by
  rw [unescapeHtml]
  all_goals
    intros
    exact absurd ‹c = '&'› plain

/-- What is written for a character is read as one character, whatever follows it. -/
theorem unescape_escape_char (c : Char) (rest : Text) :
    unescapeHtml (escapeChar c ++ rest) = replaceNull c :: unescapeHtml rest := by
  unfold escapeChar
  split
  · next ampersand => subst ampersand; rfl
  split
  · next less => subst less; rfl
  split
  · next greater => subst greater; rfl
  split
  · next double => subst double; rfl
  split
  · next single => subst single; rfl
  split
  · next null =>
      subst null
      exact unescape_plain (by decide) rest
  · next other _ _ _ _ visible =>
      rw [replaceNull, if_neg visible]
      exact unescape_plain other rest

theorem unescape_escape (t : Text) : unescapeHtml (escapeHtml t) = t.map replaceNull := by
  induction t with
  | nil => rfl
  | cons c rest ih =>
      rw [List.map_cons, ← ih]
      exact unescape_escape_char c (escapeHtml rest)

theorem escape_replace_null (t : Text) : escapeHtml (t.map replaceNull) = escapeHtml t := by
  have same (c : Char) : escapeChar (replaceNull c) = escapeChar c := by
    unfold replaceNull
    split
    · next null => subst null; rfl
    · rfl
  simp only [escapeHtml, List.flatMap_map, same]

theorem replace_null_absent {t : Text} (absent : '\x00' ∉ t) : t.map replaceNull = t := by
  have kept : ∀ c ∈ t, replaceNull c = id c := by
    intro c member
    have visible : c ≠ '\x00' := fun null => absent (null ▸ member)
    rw [replaceNull, if_neg visible, id]
  rw [List.map_congr_left kept, List.map_id]

/-- Escaping can be undone, but for null characters. It goes character by character, reading it
back gives the text with a replacement character for each null character, and so texts have the
same escaped form just if they differ in nothing else. Without null characters they are equal. -/
theorem escaping_loses_only_null (a b : Text) :
    escapeHtml (a ++ b) = escapeHtml a ++ escapeHtml b ∧
      unescapeHtml (escapeHtml a) = a.map replaceNull ∧
      (escapeHtml a = escapeHtml b ↔ a.map replaceNull = b.map replaceNull) ∧
      ('\x00' ∉ a → '\x00' ∉ b → escapeHtml a = escapeHtml b → a = b) := by
  have decided : escapeHtml a = escapeHtml b ↔ a.map replaceNull = b.map replaceNull := by
    constructor
    · intro same
      rw [← unescape_escape a, ← unescape_escape b, same]
    · intro same
      rw [← escape_replace_null a, ← escape_replace_null b, same]
  refine ⟨escape_html_append a b, unescape_escape a, decided, ?_⟩
  intro absent absent' same
  have replaced := decided.mp same
  rwa [replace_null_absent absent, replace_null_absent absent'] at replaced

def entityText : Text := "a &amp;lt; 'b'".toList

def bracketText : Text := "a &lt; 'b'".toList

theorem entity_text_apart :
    '\x00' ∉ entityText ∧ '\x00' ∉ bracketText ∧
      escapeHtml entityText ≠ escapeHtml bracketText ∧
      unescapeHtml (escapeHtml entityText) = entityText := by
  have visible : '\x00' ∉ entityText := by decide
  have visible' : '\x00' ∉ bracketText := by decide
  obtain ⟨-, read, -, apart⟩ := escaping_loses_only_null entityText bracketText
  refine ⟨visible, visible', ?_, ?_⟩
  · intro same
    exact absurd (apart visible visible' same) (by decide)
  · rw [read, replace_null_absent visible]

end Mustache.Text
