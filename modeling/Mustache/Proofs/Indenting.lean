import Mustache.Text.Indent
import Mustache.Proofs.Scanning
import Mustache.Proofs.Trimming

/-!
An indented text, read in parts. What is written at the start of a line is padding, so a
marker without white space is found where it was, what is visible of a text stays, and
padding grows only where a line starts.
-/

namespace Mustache

namespace Text
variable {indent : Text}

theorem indent_cons (indent : Text) (fresh : Bool) (c : Char) (rest : Text) (inline : c ≠ '\n') :
    indentFrom indent fresh (c :: rest) =
      (if fresh then indent else []) ++ c :: indentFrom indent false rest := by
  cases fresh <;> simp [indentFrom, inline]

theorem indent_line_break (indent : Text) (fresh : Bool) (rest : Text) :
    indentFrom indent fresh ('\n' :: rest) = '\n' :: indentFrom indent true rest := by
  simp [indentFrom]

theorem indent_append (indent before a b : Text) :
    indentFrom indent (Cursor.startsLine before) (a ++ b) =
      indentFrom indent (Cursor.startsLine before) a ++
        indentFrom indent (Cursor.startsLine (a.reverse ++ before)) b := by
  induction a generalizing before with
  | nil => rfl
  | cons c rest ih =>
      have later := ih (c :: before)
      rw [List.reverse_cons, List.append_assoc, List.singleton_append, List.cons_append]
      by_cases feed : c = '\n'
      · subst feed
        rw [indent_line_break, indent_line_break]
        exact congrArg ('\n' :: ·) later
      · have inside : Cursor.startsLine (c :: before) = false := by simp [Cursor.startsLine, feed]
        rw [inside] at later
        rw [indent_cons _ _ _ _ feed, indent_cons _ _ _ _ feed, later]
        simp only [List.append_assoc, List.cons_append]

theorem indent_inline (indent t : Text) (inline : '\n' ∉ t) : indentFrom indent false t = t := by
  induction t with
  | nil => rfl
  | cons c rest ih =>
      rw [List.mem_cons, not_or] at inline
      rw [indent_cons _ _ _ _ (Ne.symm inline.1), ih inline.2]
      rfl

theorem last_indent (indent : Text) (fresh : Bool) (t : Text) :
    (indentFrom indent fresh t).getLast? = t.getLast? := by
  induction t generalizing fresh with
  | nil => rfl
  | cons c rest ih =>
      by_cases feed : c = '\n'
      · subst feed
        rw [indent_line_break, List.getLast?_cons, List.getLast?_cons, ih]
      · rw [indent_cons _ _ _ _ feed, List.getLast?_append, List.getLast?_cons, List.getLast?_cons,
          ih]
        rfl

theorem starts_line_last (t before : Text) :
    Cursor.startsLine (t.reverse ++ before) =
      (t.getLast?.map (decide <| · = '\n')).getD (Cursor.startsLine before) := by
  rw [← List.head?_reverse]
  cases t.reverse with
  | nil => rfl
  | cons c rest => rfl

theorem starts_line_indent (indent : Text) (fresh : Bool) (t before before' : Text)
    (same : Cursor.startsLine before' = Cursor.startsLine before) :
    Cursor.startsLine ((indentFrom indent fresh t).reverse ++ before') =
      Cursor.startsLine (t.reverse ++ before) := by
  rw [starts_line_last, starts_line_last, last_indent, same]

/-- What a test passes over in the indent is all that it can miss in the indented text. -/
theorem filter_indent (keep : Char → Bool) (blank : ∀ c ∈ indent, keep c = false) (fresh : Bool)
    (t : Text) : (indentFrom indent fresh t).filter keep = t.filter keep := by
  have skipped : indent.filter keep = [] := by
    rw [List.filter_eq_nil_iff]
    intro c member
    simp [blank c member]
  induction t generalizing fresh with
  | nil => rfl
  | cons c rest ih =>
      by_cases feed : c = '\n'
      · subst feed
        rw [indent_line_break, List.filter_cons, List.filter_cons, ih]
      · rw [indent_cons _ _ _ _ feed, List.filter_append, List.filter_cons, List.filter_cons, ih]
        cases fresh <;> simp [skipped]

/-- A marker without line breaks cannot tell whether the lines after the first are indented. -/
theorem prefix_indent (indent marker t : Text) (inline : '\n' ∉ marker) :
    marker.isPrefixOf (indentFrom indent false t) = marker.isPrefixOf t := by
  induction t generalizing marker with
  | nil => rfl
  | cons c rest ih =>
      cases marker with
      | nil => rfl
      | cons first others =>
          rw [List.mem_cons, not_or] at inline
          by_cases feed : c = '\n'
          · subst feed
            have other : (first == '\n') = false := beq_false_of_ne (Ne.symm inline.1)
            rw [indent_line_break, List.isPrefixOf, List.isPrefixOf, other, Bool.false_and,
              Bool.false_and]
          · simp [indent_cons _ _ _ _ feed, List.isPrefixOf, ih others inline.2]

theorem up_to_skip (first : Char) (others skipped t : Text) (absent : first ∉ skipped) :
    upTo? (first :: others) (skipped ++ t) = (upTo? (first :: others) t).map (skipped ++ ·) := by
  induction skipped with
  | nil => simp
  | cons c rest ih =>
      rw [List.mem_cons, not_or] at absent
      simp [upTo?, absent.1, ih absent.2, Function.comp_def]

def indentUpTo (indent before chunk : Text) : Text :=
  indentFrom indent (Cursor.startsLine before) chunk ++
    if Cursor.startsLine (chunk.reverse ++ before) then indent else []

theorem indent_up_to_cons (indent before chunk rest : Text) (c : Char) (inline : c ≠ '\n') :
    indentFrom indent (Cursor.startsLine before) (chunk ++ c :: rest) =
      indentUpTo indent before chunk ++ c :: indentFrom indent false rest := by
  rw [indent_append, indent_cons _ _ _ _ inline, indentUpTo, List.append_assoc]

theorem indent_up_to_break (indent before chunk : Text) :
    indentUpTo indent before ('\n' :: chunk) = '\n' :: indentUpTo indent ('\n' :: before) chunk := by
  rw [indentUpTo, indent_line_break, List.reverse_cons, List.append_assoc]
  rfl

theorem indent_up_to_step (indent before chunk : Text) (c : Char) (inline : c ≠ '\n') :
    indentUpTo indent before (c :: chunk) =
      (if Cursor.startsLine before then indent else []) ++ c :: indentUpTo indent (c :: before) chunk := by
  have inside : Cursor.startsLine (c :: before) = false := by simp [Cursor.startsLine, inline]
  rw [indentUpTo, indentUpTo, indent_cons _ _ _ _ inline, inside, List.reverse_cons]
  simp only [List.append_assoc, List.cons_append, List.nil_append]

/-- A visible marker is found in the indented text where it was found before. -/
theorem up_to_indent (blank : ∀ c ∈ indent, isSpace c = true) (marker : Text)
    (nonempty : marker ≠ []) (visible : ∀ c ∈ marker, isSpace c = false) (before t : Text) :
    upTo? marker (indentFrom indent (Cursor.startsLine before) t) =
      (upTo? marker t).map (indentUpTo indent before) := by
  obtain ⟨first, others, rfl⟩ := List.exists_cons_of_ne_nil nonempty
  have inline : '\n' ∉ first :: others := by
    intro member
    exact absurd (visible '\n' member) (by decide)
  have absent : first ∉ indent := by
    intro member
    have space := blank first member
    rw [visible first List.mem_cons_self] at space
    cases space
  induction t generalizing before with
  | nil => rfl
  | cons c rest ih =>
      have later := ih (c :: before)
      by_cases feed : c = '\n'
      · subst feed
        -- The indent comes in behind the break, where no visible marker can start.
        have other : first ≠ '\n' := fun same => inline (same ▸ List.mem_cons_self)
        change upTo? (first :: others) (indentFrom indent true rest) = _ at later
        simp [indent_line_break, upTo?, other, later, Function.comp_def, indent_up_to_break]
      · have inside : Cursor.startsLine (c :: before) = false := by simp [Cursor.startsLine, feed]
        have here := prefix_indent indent (first :: others) (c :: rest) inline
        rw [inside] at later
        rw [indent_cons _ _ _ _ feed, up_to_skip first others]
        · rw [indent_cons _ _ _ _ feed] at here
          simp only [Bool.false_eq_true, if_false, List.nil_append] at here
          rw [upTo?, upTo?, here, later]
          by_cases found : (first :: others).isPrefixOf (c :: rest) = true
          · rw [if_pos found, if_pos found]
            exact congrArg some (List.append_nil _)
          · rw [if_neg found, if_neg found, Option.map_map, Option.map_map, Option.map_map]
            refine congrArg (Option.map · _) (funext fun chunk => ?_)
            exact (indent_up_to_step indent before chunk c feed).symm
        · split
          · exact absent
          · exact List.not_mem_nil

theorem indent_up_to_inline (indent before chunk : Text) (inside : Cursor.startsLine before = false)
    (inline : '\n' ∉ chunk) : indentUpTo indent before chunk = chunk := by
  have ends : Cursor.startsLine (chunk.reverse ++ before) = false := by
    cases back : chunk.reverse with
    | nil => exact inside
    | cons last others =>
        have member : last ∈ chunk := by
          rw [← List.mem_reverse, back]
          exact List.mem_cons_self
        have other : last ≠ '\n' := fun same => inline (same ▸ member)
        simp [Cursor.startsLine, other]
  rw [indentUpTo, inside, ends, indent_inline indent chunk inline]
  exact List.append_nil chunk

/-- What a test passes over in the indent, for a text up to something visible. -/
theorem filter_indent_up_to (keep : Char → Bool) (blank : ∀ c ∈ indent, keep c = false)
    (before chunk : Text) : (indentUpTo indent before chunk).filter keep = chunk.filter keep := by
  have skipped : indent.filter keep = [] := by
    rw [List.filter_eq_nil_iff]
    intro c member
    simp [blank c member]
  rw [indentUpTo, List.filter_append, filter_indent keep blank]
  split <;> simp [skipped]

theorem newlines_filter (t : Text) : newlines t = (t.filter (· == '\n')).length :=
  List.countP_eq_length_filter

section Padding
variable (blank : ∀ c ∈ indent, isPadding c = true)
include blank

theorem padding_breaks_no_line : ∀ c ∈ indent, (c == '\n') = false := by
  intro c member
  apply beq_false_of_ne
  rintro rfl
  exact absurd (blank _ member) (by decide)

theorem padding_invisible : ∀ c ∈ indent, (!isSpace c) = false := by
  intro c member
  rw [is_space_of_padding c (blank c member)]
  rfl

theorem newlines_indent (fresh : Bool) (t : Text) :
    newlines (indentFrom indent fresh t) = newlines t := by
  rw [newlines_filter, newlines_filter, filter_indent _ (padding_breaks_no_line blank)]

theorem newlines_indent_up_to (before chunk : Text) :
    newlines (indentUpTo indent before chunk) = newlines chunk := by
  rw [newlines_filter, newlines_filter, filter_indent_up_to _ (padding_breaks_no_line blank)]

end Padding
end Text

section LineStarts
variable {indent : Text}

theorem trailing_padding (stem padding : Text) (blank : ∀ c ∈ padding, Text.isPadding c = true)
    (stop : ∀ c, stem.getLast? = some c → Text.isPadding c = false) :
    (stem ++ padding).reverse.dropWhile Text.isPadding = stem.reverse ∧
      (stem ++ padding).reverse.takeWhile Text.isPadding = padding.reverse := by
  have back : ∀ c ∈ padding.reverse, Text.isPadding c = true := by
    intro c member
    exact blank c (List.mem_reverse.mp member)
  rw [List.reverse_append, List.dropWhile_append_of_pos back, List.takeWhile_append_of_pos back]
  rw [← List.head?_reverse] at stop
  cases whole : stem.reverse with
  | nil => simp
  | cons last others =>
      have visible := stop last (by rw [whole]; rfl)
      simp [visible]

theorem indent_padding (before padding : Text) (blank : ∀ c ∈ padding, Text.isPadding c = true) :
    Text.indentUpTo indent before padding =
      (if Cursor.startsLine before then indent else []) ++ padding := by
  cases padding with
  | nil => exact (List.append_nil _).symm
  | cons c rest =>
      have inline : '\n' ∉ c :: rest := by
        intro member
        exact absurd (blank '\n' member) (by decide)
      rw [List.mem_cons, not_or] at inline
      have inside : Cursor.startsLine (c :: before) = false := by
        simp [Cursor.startsLine, Ne.symm inline.1]
      rw [Text.indent_up_to_step _ _ _ _ (Ne.symm inline.1),
        Text.indent_up_to_inline _ _ _ inside inline.2]

theorem indent_up_to_append (indent before a b : Text) :
    Text.indentUpTo indent before (a ++ b) =
      Text.indentFrom indent (Cursor.startsLine before) a ++
        Text.indentUpTo indent (a.reverse ++ before) b := by
  rw [Text.indentUpTo, Text.indentUpTo, Text.indent_append, List.reverse_append]
  simp only [List.append_assoc]

theorem split_trailing_padding (chunk : Text) :
    ∃ stem padding, chunk = stem ++ padding ∧ (∀ c ∈ padding, Text.isPadding c = true) ∧
      ∀ c, stem.getLast? = some c → Text.isPadding c = false := by
  refine ⟨(chunk.reverse.dropWhile Text.isPadding).reverse,
    (chunk.reverse.takeWhile Text.isPadding).reverse, ?_, ?_, ?_⟩
  · rw [← List.reverse_append, List.takeWhile_append_dropWhile, List.reverse_reverse]
  · intro c member
    exact List.all_eq_true.mp List.all_takeWhile c (List.mem_reverse.mp member)
  · intro c last
    rw [List.getLast?_reverse] at last
    have visible := List.head?_dropWhile_not Text.isPadding chunk.reverse
    rw [last] at visible
    simpa using visible

theorem chunk_indent (blank : ∀ c ∈ indent, Text.isPadding c = true) (before before' chunk : Text)
    (same : Cursor.startsLine before' = Cursor.startsLine before) :
    Cursor.atLineStart (Text.indentUpTo indent before chunk) before' =
        Cursor.atLineStart chunk before ∧
      Cursor.textOf (Cursor.atLineStart chunk before) (Text.indentUpTo indent before chunk) =
        Text.indentFrom indent (Cursor.startsLine before)
          (Cursor.textOf (Cursor.atLineStart chunk before) chunk) ∧
      Cursor.paddingOf (Cursor.atLineStart chunk before) (Text.indentUpTo indent before chunk) =
        (if Cursor.atLineStart chunk before then indent else []) ++
          Cursor.paddingOf (Cursor.atLineStart chunk before) chunk := by
  obtain ⟨stem, padding, rfl, padded, stop⟩ := split_trailing_padding chunk
  obtain ⟨drop, take⟩ := trailing_padding stem padding padded stop
  have start : Cursor.atLineStart (stem ++ padding) before =
      Cursor.startsLine (stem.reverse ++ before) := by
    rw [Cursor.atLineStart, drop]
  rw [start, indent_up_to_append, indent_padding _ _ padded]
  generalize shown : Text.indentFrom indent (Cursor.startsLine before) stem = stem'
  have stop' : ∀ c, stem'.getLast? = some c → Text.isPadding c = false := by
    intro c last
    rw [← shown, Text.last_indent] at last
    exact stop c last
  have padded' : ∀ c ∈ (if Cursor.startsLine (stem.reverse ++ before) then indent else []) ++ padding,
      Text.isPadding c = true := by
    intro c member
    rcases List.mem_append.mp member with inside | inside
    · split at inside
      · exact blank c inside
      · cases inside
    · exact padded c inside
  obtain ⟨drop', take'⟩ := trailing_padding stem' _ padded' stop'
  refine ⟨?_, ?_, ?_⟩
  · rw [Cursor.atLineStart, drop', ← shown]
    exact Text.starts_line_indent indent _ stem before before' same
  · cases fresh : Cursor.startsLine (stem.reverse ++ before) with
    | true =>
        simp only [fresh, if_true] at drop'
        simp only [Cursor.textOf, if_true, drop, drop', List.reverse_reverse, shown]
    | false =>
        have inline : '\n' ∉ padding := fun member => absurd (padded '\n' member) (by decide)
        simp only [Cursor.textOf, Bool.false_eq_true, if_false, Text.indent_append, shown, fresh,
          Text.indent_inline indent padding inline, List.nil_append]
  · cases fresh : Cursor.startsLine (stem.reverse ++ before) with
    | true =>
        simp only [fresh, if_true] at take'
        simp only [Cursor.paddingOf, if_true, take, take', List.reverse_reverse]
    | false => rfl

theorem line_end_indent (indent t : Text) :
    Cursor.lineEnd? (Text.indentFrom indent false t) = Cursor.lineEnd? t := by
  -- Padding is passed over, so the end of the line is told by what is behind it.
  have more (c : Char) (rest : Text) (padding : Text.isPadding c = true) :
      Cursor.lineEnd? (c :: rest) = (Cursor.lineEnd? rest).map (c :: ·) := by
    rw [Cursor.lineEnd?, Cursor.lineEnd?]
    simp only [List.takeWhile_cons, List.dropWhile_cons, padding, if_true]
    split <;> simp_all
  induction t with
  | nil => rfl
  | cons c rest ih =>
      by_cases feed : c = '\n'
      · subst feed
        rw [Text.indent_line_break]
        rfl
      · rw [Text.indent_cons _ _ _ _ feed]
        change Cursor.lineEnd? (c :: _) = _
        cases padding : Text.isPadding c with
        | true => rw [more c _ padding, more c _ padding, ih]
        | false =>
            by_cases carriage : c = '\r'
            · subst carriage
              cases rest with
              | nil => rfl
              | cons next others =>
                  by_cases after : next = '\n'
                  · subst after
                    rw [Text.indent_line_break]
                    rfl
                  · rw [Text.indent_cons _ _ _ _ after]
                    simp [Cursor.lineEnd?, padding, after]
            · simp [Cursor.lineEnd?, padding, feed, carriage]

end LineStarts

section Tags
variable {indent : Text}

theorem raw_tag_eq (c : Cursor) : c.rawTag? =
    if c.rest.head? = some '{' then
      (Text.upTo? ('}' :: c.delimiters.closing) c.rest).map (· ++ ['}'])
    else Text.upTo? c.delimiters.closing c.rest := by
  unfold Cursor.rawTag?
  split
  · next rest same => rw [same, List.head?_cons, if_pos rfl]
  · next other =>
      rw [if_neg]
      intro brace
      cases same : c.rest with
      | nil => simp [same] at brace
      | cons first rest =>
          rw [same, List.head?_cons, Option.some.injEq] at brace
          exact other rest (by rw [same, brace])

theorem head_indent (indent t : Text) : (Text.indentFrom indent false t).head? = t.head? := by
  cases t with
  | nil => rfl
  | cons c rest =>
      by_cases feed : c = '\n'
      · subst feed
        rw [Text.indent_line_break]
        rfl
      · rw [Text.indent_cons _ _ _ _ feed]
        rfl

/-- Between the delimiters of a tag the lines after the first are indented. -/
theorem raw_tag_indent (blank : ∀ c ∈ indent, Text.isSpace c = true) (c d : Cursor)
    (inside : Cursor.startsLine c.before = false)
    (rest : d.rest = Text.indentFrom indent false c.rest) (pair : d.delimiters = c.delimiters)
    (visible : ∀ char ∈ c.delimiters.closing, Text.isSpace char = false) :
    d.rawTag? = c.rawTag?.map (Text.indentUpTo indent c.before) := by
  rw [raw_tag_eq, raw_tag_eq, rest, head_indent, pair]
  by_cases brace : c.rest.head? = some '{'
  · have marker : ∀ char ∈ '}' :: c.delimiters.closing, Text.isSpace char = false := by
      intro char member
      rcases List.mem_cons.mp member with rfl | other
      · decide
      · exact visible char other
    have found := Text.up_to_indent blank _ (List.cons_ne_nil _ _) marker c.before c.rest
    rw [inside] at found
    rw [if_pos brace, if_pos brace, found, Option.map_map, Option.map_map]
    refine congrArg (Option.map · _) (funext fun chunk => ?_)
    -- The brace that ends the tag is on the line of what stands before it.
    have ends : Text.indentUpTo indent (chunk.reverse ++ c.before) ['}'] =
        (if Cursor.startsLine (chunk.reverse ++ c.before) then indent else []) ++ ['}'] :=
      Text.indent_up_to_step _ _ [] '}' (by decide)
    simp only [Function.comp_apply, indent_up_to_append, ends]
    rw [← List.append_assoc]
    rfl
  · rw [if_neg brace, if_neg brace]
    by_cases none : c.delimiters.closing = []
    · have here (t : Text) : Text.upTo? [] t = some [] := by cases t <;> rfl
      rw [none, here, here]
      simp [Text.indentUpTo, Text.indentFrom, inside]
    · have found := Text.up_to_indent blank _ none visible c.before c.rest
      rwa [inside] at found

theorem of_body_error_iff (raw : Text) (fault : ParseFault) :
    Tag.ofBody raw.trim = .error fault ↔ fault = .invalidMetaTag ∧
      ∃ rest, raw.filter (!Text.isSpace ·) = '=' :: rest ∧ rest.getLast? ≠ some '=' := by
  -- Trimmed texts end with something visible, so the last character survives the filter.
  have visible (inner : Text) (body : raw.trim = '=' :: inner) :
      (inner.filter (!Text.isSpace ·)).getLast? = inner.getLast? := by
    rcases List.eq_nil_or_concat inner with rfl | ⟨front, last, rfl⟩
    · rfl
    · have shown := trim_last_visible raw last (by
        rw [body, List.concat_eq_append, List.getLast?_cons, List.getLast?_concat]
        rfl)
      simp [shown]
  rw [← Text.visible_trim]
  constructor
  · intro failed
    unfold Tag.ofBody at failed
    split at failed
    case h_7 inner body =>
      split at failed
      · cases failed
      · next ends =>
          cases failed
          refine ⟨rfl, inner.filter (!Text.isSpace ·), by simp [body, Text.isSpace], ?_⟩
          rwa [visible inner body]
    case h_8 => split at failed <;> cases failed
    all_goals cases failed
  · rintro ⟨rfl, rest, shown, ends⟩
    have head := Text.trim_head raw
    rw [← Text.visible_trim, shown, List.head?_cons] at head
    obtain ⟨inner, body⟩ := List.head?_eq_some_iff.mp head
    rw [body] at shown ⊢
    have same : inner.filter (!Text.isSpace ·) = rest := by
      simpa [Text.isSpace] using shown
    rw [← same, visible inner body] at ends
    simp [Tag.ofBody, ends]

end Tags
end Mustache
