import Mustache.Proofs.OpenSections
import Mustache.Proofs.Composition
import Mustache.Proofs.StandalonePartial
import Mustache.Proofs.Trimming

/-!
Trees written out. Any tree whose texts and names keep clear of the delimiters can be
written as a source, with white space between the parts of a tag as one likes, and the
source is read as that tree.
-/

namespace Mustache

def tagSigils : List Char := ['#', '^', '/', '<', '>', '=', '!', '&']

namespace Delimiters

/-- Delimiters that are told apart from all else that is written in a tag. -/
structure Apart (d : Delimiters) : Prop where
  opens : d.opening ≠ []
  closes : d.closing ≠ []
  visible : ∀ c ∈ d.opening ++ d.closing, Text.isSpace c = false
  plain : ∀ c ∈ d.opening ++ d.closing, c ∉ tagSigils

def Spare (d : Delimiters) (t : Text) : Prop := ∀ c ∈ t, c ∉ d.opening ++ d.closing

instance (d : Delimiters) (t : Text) : Decidable (d.Spare t) :=
  List.decidableBAll (· ∉ d.opening ++ d.closing) t

structure Name (d : Delimiters) (name : Text) : Prop where
  spared : d.Spare name
  braceless : ∀ c ∈ name, c ≠ '{' ∧ c ≠ '}'
  trimmed : name.trim = name

def tag (d : Delimiters) (body : Text) : Text := d.opening ++ body ++ d.closing

def comment (d : Delimiters) : Text := d.tag ['!']

def Sigiled (d : Delimiters) (sigil : Char) (name source : Text) : Prop :=
  ∃ before inner after, Text.Blank before ∧ Text.Blank inner ∧ Text.Blank after ∧
    source = d.tag (before ++ sigil :: (inner ++ name ++ after))

end Delimiters

section Trees
variable (d : Delimiters)

mutual
def Node.Regular : Node → Prop
  | .text content => content ≠ [] ∧ d.Spare content
  | .variableTag name escape =>
      d.Name name ∧
        (escape = true → name ≠ [] ∧ ∀ c, name.head? = some c → c ∉ '{' :: tagSigils)
  | .sectionTag name _ _ children => d.Name name ∧ Node.RegularAll children
  | .partialTag name indent linked => d.Name name ∧ indent = [] ∧ linked = true
  | .unknownTag _ | .unknown => False

def Node.RegularAll : List Node → Prop
  | [] => True
  | first :: rest =>
      first.Regular ∧ (∀ a b, first = .text a → rest.head? ≠ some (.text b)) ∧
        Node.RegularAll rest
end

/-- The ways to write a tag that is a node by itself. A comment keeps a partial from
standing alone. -/
inductive TagWritten : Node → Text → Prop
  | escaped (name before after : Text) : Text.Blank before → Text.Blank after →
      TagWritten (.variableTag name true) (d.tag (before ++ name ++ after))
  | raw (name source : Text) : d.Sigiled '&' name source →
      TagWritten (.variableTag name false) source
  | braced (name before after : Text) : Text.Blank before → Text.Blank after →
      TagWritten (.variableTag name false) (d.tag ('{' :: (before ++ name ++ after) ++ ['}']))
  | inclusion (name source : Text) : d.Sigiled '>' name source →
      TagWritten (.partialTag name [] true) (d.comment ++ source)

inductive Written : Nat → List Node → Text → Prop
  | none (line : Nat) : Written line [] []
  | text (line : Nat) (content : Text) (rest : List Node) (source : Text) :
      Written (line + Text.newlines content) rest source →
      Written line (.text content :: rest) (content ++ source)
  | tag (line : Nat) (node : Node) (written : Text) (rest : List Node) (source : Text) :
      TagWritten d node written → Written (line + Text.newlines written) rest source →
      Written line (node :: rest) (written ++ source)
  | enclosed (line : Nat) (name : Text) (inverted : Bool) (opening closing : Text)
      (children : List Node) (body : Text) (rest : List Node) (source : Text) :
      d.Sigiled (if inverted then '^' else '#') name opening →
      d.Sigiled '/' name closing →
      Written (line + Text.newlines (d.comment ++ opening)) children body →
      Written (line + Text.newlines (d.comment ++ opening ++ body ++ (d.comment ++ closing)))
        rest source →
      Written line
        (.sectionTag name inverted (line + Text.newlines (d.comment ++ d.opening) : Nat) children ::
          rest)
        (d.comment ++ opening ++ body ++ (d.comment ++ closing) ++ source)

end Trees

/-- Where a cursor stands: after `pending` there is `ahead`, which begins on `line`, and
`base` is the stack with what is pending on it. -/
structure Reaches (d : Delimiters) (c : Cursor) (pending : Text) (stack : Stack) (line : Nat)
    (ahead : Text) (base : Stack) : Prop where
  rest : c.rest = pending ++ ahead
  delimiters : c.delimiters = d
  spared : ∀ char ∈ pending, char ∉ d.opening
  line : c.line + Text.newlines pending = line
  base : stack.after pending = base

section Tags

def plainToken (c : Cursor) (pending raw : Text) (tag : Tag) : Token :=
  let lineStart := Cursor.atLineStart pending c.before
  { text := Cursor.textOf lineStart pending
    padding := Cursor.paddingOf lineStart pending
    lineStart
    raw
    trail := []
    standalone := false
    delimiters := c.delimiters
    line := c.line + Text.newlines (pending ++ c.delimiters.opening)
    endLine := c.line + Text.newlines (pending ++ c.delimiters.tag raw)
    tag }

def plainNext (c : Cursor) (pending raw ahead : Text) : Cursor :=
  ⟨(pending ++ c.delimiters.tag raw).reverse ++ c.before, ahead,
    c.line + Text.newlines (pending ++ c.delimiters.tag raw), c.delimiters⟩

variable {d : Delimiters} {c : Cursor} {pending raw ahead : Text} {stack base : Stack} {line : Nat}

theorem reads_plain (tag : Tag) (rest : c.rest = pending ++ (c.delimiters.tag raw ++ ahead))
    (opened : Text.upTo? c.delimiters.opening c.rest = some pending)
    (closed : (c.advance (pending ++ c.delimiters.opening).length).rawTag? = some raw)
    (visible : raw.trim ≠ []) (classified : Tag.ofBody raw.trim = .ok tag)
    (stays : tag.delimitersAfter c.delimiters = c.delimiters)
    (together : Cursor.soloTrail? (Cursor.atLineStart pending c.before) raw ahead = none) :
    Cursor.Reads c (plainToken c pending raw tag) (plainNext c pending raw ahead) := by
  have joined := Cursor.text_append_padding (Cursor.atLineStart pending c.before) pending
  have source : (plainToken c pending raw tag).source = pending ++ c.delimiters.tag raw := by
    simp only [Token.source, plainToken, joined, Delimiters.tag, List.append_nil, List.append_assoc]
  exact {
    chunk := by simpa only [plainToken, joined] using opened
    lineStart := by simp only [plainToken, joined]
    padding := by simp only [plainToken, joined]
    raw := by simpa only [plainToken, joined] using closed
    visible
    tag := classified
    trail := together
    noTrail := fun _ => rfl
    rest := by rw [source, rest, plainNext, List.append_assoc]
    before := by rw [source]; rfl
    delimiters := rfl
    delimitersAfter := stays.symm
    line := by simp only [plainToken, joined]
    endLine := by rw [source]; rfl
    lineAfter := rfl }

theorem with_text_plain (tag : Tag) (stack : Stack) :
    (plainToken c pending raw tag).withText stack.before = (stack.after pending).before := by
  have joined := Cursor.text_append_padding (Cursor.atLineStart pending c.before) pending
  rw [Token.withText, Stack.after]
  simp only [plainToken, Bool.false_eq_true, if_false]
  rw [← Node.push_text_append, joined]

theorem opening_found (apart : d.Apart) (spared : ∀ char ∈ pending, char ∉ d.opening) :
    Text.upTo? d.opening (pending ++ d.opening ++ ahead) = some pending := by
  obtain ⟨first, others, split⟩ := List.exists_cons_of_ne_nil apart.opens
  rw [split] at spared ⊢
  apply Text.up_to_first
  intro member
  exact spared first member List.mem_cons_self

def Delimiters.Encloses (d : Delimiters) (raw : Text) : Prop :=
  ∀ before ahead line, Cursor.rawTag? ⟨before, raw ++ d.closing ++ ahead, line, d⟩ = some raw

theorem reach_tag (apart : d.Apart) (tag : Tag)
    (reaches : Reaches d c pending stack line (d.tag raw ++ ahead) base)
    (closed : d.Encloses raw) (visible : raw.trim ≠ []) (classified : Tag.ofBody raw.trim = .ok tag)
    (stays : tag.delimitersAfter d = d)
    (together : Cursor.soloTrail? (Cursor.atLineStart pending c.before) raw ahead = none) :
    c.scan.tree stack =
        (stack.step (plainToken c pending raw tag)).bind (plainNext c pending raw ahead).scan.tree ∧
      (plainToken c pending raw tag).withText stack.before = base.before ∧
      (plainToken c pending raw tag).line = line + Text.newlines d.opening ∧
      ∀ onto, Reaches d (plainNext c pending raw ahead) [] onto
        (line + Text.newlines (d.tag raw)) ahead onto := by
  obtain ⟨rest, rfl, spared, rfl, rfl⟩ := reaches
  have opened : c.rest = pending ++ c.delimiters.opening ++ (raw ++ c.delimiters.closing ++ ahead) := by
    rw [rest, Delimiters.tag]
    simp only [List.append_assoc]
  refine ⟨?_, with_text_plain tag stack, ?_, ?_⟩
  · apply tree_token
    apply Cursor.step_of_reads
    apply reads_plain tag rest _ _ visible classified stays together
    · rw [opened]
      exact opening_found apart spared
    · rw [Cursor.advance_over c _ _ opened]
      exact closed _ _ _
  · simp only [plainToken, Text.newlines_append]
    omega
  · intro onto
    refine ⟨rfl, rfl, by simp, ?_, ?_⟩
    · simp only [plainNext, Text.newlines_append, Text.newlines_nil]
      omega
    · rw [Stack.after, Node.push_text_nil]

end Tags

section Bodies
variable {d : Delimiters}

theorem encloses_plain (apart : d.Apart) (raw : Text) (nonempty : raw ≠ [])
    (braceless : raw.head? ≠ some '{') (spared : ∀ c ∈ raw, c ∉ d.closing) : d.Encloses raw := by
  intro before ahead line
  obtain ⟨first, others, closing⟩ := List.exists_cons_of_ne_nil apart.closes
  have found : Text.upTo? d.closing (raw ++ d.closing ++ ahead) = some raw := by
    rw [closing] at spared ⊢
    apply Text.up_to_first
    intro member
    exact spared first member List.mem_cons_self
  cases raw with
  | nil => exact absurd rfl nonempty
  | cons char rest =>
      unfold Cursor.rawTag?
      split
      · next later same =>
          cases same
          exact absurd rfl braceless
      · exact found

theorem encloses_braced (inner : Text) (braceless : '}' ∉ inner) :
    d.Encloses ('{' :: inner ++ ['}']) := by
  intro before ahead line
  have found := Text.up_to_first '}' d.closing ('{' :: inner) ahead (by simp [braceless])
  simp only [Cursor.rawTag?, List.append_assoc, List.cons_append, List.nil_append] at found ⊢
  rw [found]
  rfl

theorem blank_spared (apart : d.Apart) (blank : Text) (spaces : Text.Blank blank) :
    d.Spare blank := by
  intro c member within
  have visible := apart.visible c within
  rw [spaces c member] at visible
  cases visible

theorem sigil_spared (apart : d.Apart) (sigil : Char) (special : sigil ∈ tagSigils) :
    sigil ∉ d.opening ++ d.closing := fun within => apart.plain sigil within special

theorem spare_append (a b : Text) (left : d.Spare a) (right : d.Spare b) : d.Spare (a ++ b) := by
  intro c member
  rcases List.mem_append.mp member with first | second
  · exact left c first
  · exact right c second

theorem sigil_visible (sigil : Char) (special : sigil ∈ tagSigils) :
    Text.isSpace sigil = false ∧ sigil ≠ '{' := by
  simp only [tagSigils, List.mem_cons, List.not_mem_nil, or_false] at special
  rcases special with rfl | rfl | rfl | rfl | rfl | rfl | rfl | rfl <;> decide

theorem blank_head (blank : Text) (spaces : Text.Blank blank) (c : Char)
    (head : blank.head? = some c) : c ≠ '{' := by
  rintro rfl
  have space := spaces '{' (List.mem_of_head? head)
  exact absurd space (by decide)

theorem blank_append_head (blank t : Text) (spaces : Text.Blank blank)
    (braceless : t.head? ≠ some '{') : (blank ++ t).head? ≠ some '{' := by
  cases blank with
  | nil => exact braceless
  | cons c rest =>
      intro head
      exact blank_head (c :: rest) spaces c rfl (by simpa using head)

theorem named_body (apart : d.Apart) {name before after : Text} (named : d.Name name)
    (nonempty : name ≠ []) (left : Text.Blank before) (right : Text.Blank after) :
    d.Encloses (before ++ name ++ after) ∧ Text.trim (before ++ name ++ after) = name := by
  constructor
  · have spared : d.Spare (before ++ name ++ after) := by
      apply spare_append
      · exact spare_append _ _ (blank_spared apart before left) named.spared
      · exact blank_spared apart after right
    apply encloses_plain apart
    · simp [nonempty]
    · rw [List.append_assoc]
      apply blank_append_head before _ left
      obtain ⟨first, others, split⟩ := List.exists_cons_of_ne_nil nonempty
      have braceless := (named.braceless first (by simp [split])).1
      simpa [split] using braceless
    · intro c member within
      exact spared c member (List.mem_append_right _ within)
  · rw [Text.trim_blank before name after left right, named.trimmed]

theorem braced_body {name before after : Text} (named : d.Name name) (left : Text.Blank before)
    (right : Text.Blank after) :
    d.Encloses ('{' :: (before ++ name ++ after) ++ ['}']) ∧
      Text.trim ('{' :: (before ++ name ++ after) ++ ['}']) =
        '{' :: (before ++ name ++ after) ++ ['}'] ∧
      Tag.ofBody ('{' :: (before ++ name ++ after) ++ ['}']) = .ok (.value name false) := by
  have blank_braceless (blank : Text) (spaces : Text.Blank blank) : '}' ∉ blank := by
    intro member
    exact absurd (spaces '}' member) (by decide)
  refine ⟨?_, Text.trim_enclosed '{' '}' _ (by decide) (by decide), ?_⟩
  · -- The first closing brace is the one that was written.
    have name_braceless : '}' ∉ name := fun member => (named.braceless '}' member).2 rfl
    apply encloses_braced
    simp [blank_braceless before left, blank_braceless after right, name_braceless]
  · have inner := Text.trim_blank before name after left right
    rw [named.trimmed] at inner
    simp only [Tag.ofBody, List.cons_append, List.getLast?_concat, if_true, List.dropLast_concat,
      inner]

theorem sigiled_body (apart : d.Apart) {sigil : Char} {name before inner after : Text}
    (special : sigil ∈ tagSigils) (named : d.Name name) (left : Text.Blank before)
    (middle : Text.Blank inner) (right : Text.Blank after) :
    d.Encloses (before ++ sigil :: (inner ++ name ++ after)) ∧
      ∃ rest, (before ++ sigil :: (inner ++ name ++ after)).trim = sigil :: rest ∧
        Text.trim rest = name := by
  obtain ⟨visible, unbraced⟩ := sigil_visible sigil special
  constructor
  -- No part of the body holds a character of the delimiters.
  · have spared : d.Spare (before ++ ([sigil] ++ (inner ++ name ++ after))) := by
      apply spare_append
      · exact blank_spared apart before left
      · apply spare_append
        · intro c member
          rw [List.mem_singleton.mp member]
          exact sigil_spared apart sigil special
        · apply spare_append
          · exact spare_append _ _ (blank_spared apart inner middle) named.spared
          · exact blank_spared apart after right
    apply encloses_plain apart
    · simp
    · apply blank_append_head before _ left
      simpa using unbraced
    · intro c member within
      exact spared c (by simpa using member) (List.mem_append_right _ within)
  · refine ⟨Text.trimRight (inner ++ name ++ after), ?_, ?_⟩
    · have bare := Text.trim_blank before (sigil :: (inner ++ name ++ after)) [] left
        (by simp [Text.Blank])
      rw [List.append_nil] at bare
      rw [bare, Text.trim_cons sigil _ visible]
    · rw [Text.trim_trim_right, Text.trim_blank inner name after middle right, named.trimmed]

theorem comment_body (apart : d.Apart) : d.Encloses ['!'] := by
  apply encloses_plain apart ['!'] (by simp) (by simp)
  intro c member within
  rw [List.mem_singleton.mp member] at within
  exact sigil_spared apart '!' (by decide) (List.mem_append_right _ within)

end Bodies

def Yields (d : Delimiters) (line : Nat) (ahead : Text) (base : Stack)
    (result : Except ParseError Parsed) : Prop :=
  ∀ c pending stack, Reaches d c pending stack line ahead base → c.scan.tree stack = result

section Siblings
variable {d : Delimiters} {c : Cursor} {pending ahead : Text} {stack base : Stack} {line : Nat}
  {result : Except ParseError Parsed}

theorem no_line_end (apart : d.Apart) (ahead : Text) :
    Cursor.lineEnd? (d.opening ++ ahead) = none := by
  obtain ⟨first, others, opening⟩ := List.exists_cons_of_ne_nil apart.opens
  have visible := apart.visible first (by simp [opening])
  have padding : Text.isPadding first = false := by
    rw [Bool.eq_false_iff] at visible ⊢
    intro blank
    exact visible (Text.is_space_of_padding first blank)
  have feed : first ≠ '\n' := by
    rintro rfl
    exact absurd visible (by decide)
  have carriage : first ≠ '\r' := by
    rintro rfl
    exact absurd visible (by decide)
  simp [opening, Cursor.lineEnd?, padding, feed, carriage]

theorem plain_next_inline (apart : d.Apart) (raw ahead : Text) (same : c.delimiters = d) :
    Cursor.startsLine (plainNext c pending raw ahead).before = false := by
  obtain ⟨front, last, closing⟩ : ∃ front last, d.closing = front ++ [last] :=
    ⟨_, _, (List.dropLast_concat_getLast apart.closes).symm⟩
  have visible := apart.visible last (by simp [closing])
  have feed : last ≠ '\n' := by
    rintro rfl
    exact absurd visible (by decide)
  simp [plainNext, Delimiters.tag, same, closing, Cursor.startsLine, feed]

theorem after_frames (reaches : Reaches d c pending stack line ahead base) :
    base.frames = stack.frames := by
  rw [← reaches.base]
  rfl

theorem reach_comment (apart : d.Apart)
    (reaches : Reaches d c pending stack line (d.comment ++ (d.opening ++ ahead)) base) :
    ∃ next, c.scan.tree stack = next.scan.tree base ∧ Cursor.startsLine next.before = false ∧
      Reaches d next [] base (line + Text.newlines d.comment) (d.opening ++ ahead) base := by
  obtain ⟨read, spaced, -, onward⟩ := reach_tag apart .comment reaches (comment_body apart)
    (by decide) rfl rfl (by rw [Cursor.soloTrail?, no_line_end apart]; split <;> rfl)
  refine ⟨_, ?_, plain_next_inline apart ['!'] (d.opening ++ ahead) reaches.delimiters, onward base⟩
  have stepped : stack.step (plainToken c pending ['!'] .comment) =
      .ok ⟨stack.frames, (plainToken c pending ['!'] .comment).withText stack.before⟩ := rfl
  rw [read, stepped, spaced, ← after_frames reaches]
  rfl

theorem reach_guarded (apart : d.Apart) {sigil : Char} {name source : Text} (tag : Tag)
    (special : sigil ∈ tagSigils) (named : d.Name name) (sigiled : d.Sigiled sigil name source)
    (classified : ∀ rest, Text.trim rest = name → Tag.ofBody (sigil :: rest) = .ok tag)
    (stays : tag.delimitersAfter d = d)
    (reaches : Reaches d c pending stack line (d.comment ++ source ++ ahead) base) :
    ∃ token next, c.scan.tree stack = (base.step token).bind next.scan.tree ∧ token.tag = tag ∧
      token.withText base.before = base.before ∧ token.padding = [] ∧
      token.line = line + Text.newlines (d.comment ++ d.opening) ∧
      ∀ onto, Reaches d next [] onto (line + Text.newlines (d.comment ++ source)) ahead onto := by
  obtain ⟨before, inner, after, left, middle, right, rfl⟩ := sigiled
  obtain ⟨closed, rest, trimmed, same⟩ := sigiled_body apart special named left middle right
  generalize before ++ sigil :: (inner ++ name ++ after) = raw at closed trimmed reaches
  have split : d.comment ++ d.tag raw ++ ahead =
      d.comment ++ (d.opening ++ (raw ++ d.closing ++ ahead)) := by
    simp only [Delimiters.tag, List.append_assoc]
  rw [split] at reaches
  obtain ⟨next, skipped, inline, behind⟩ := reach_comment apart reaches
  have here : Reaches d next [] base (line + Text.newlines d.comment) (d.tag raw ++ ahead) base := by
    rw [Delimiters.tag]
    simpa only [List.append_assoc] using behind
  -- The comment stands before the tag on its line, so the tag does not stand alone.
  have together : Cursor.soloTrail? (Cursor.atLineStart [] next.before) raw ahead = none := by
    have start : Cursor.atLineStart [] next.before = false := inline
    rw [start]
    rfl
  obtain ⟨read, spaced, number, onward⟩ := reach_tag apart tag here closed (by simp [trimmed])
    (trimmed ▸ classified rest same) stays together
  refine ⟨_, _, skipped.trans read, rfl, spaced, ?_, ?_, ?_⟩
  · simp [plainToken, Cursor.paddingOf]
  · rw [number, Text.newlines_append]
    omega
  · intro onto
    rw [Text.newlines_append, ← Nat.add_assoc]
    exact onward onto

theorem yields_value (apart : d.Apart) {name raw : Text} {escape : Bool} (closed : d.Encloses raw)
    (visible : raw.trim ≠ []) (classified : Tag.ofBody raw.trim = .ok (.value name escape))
    (many : ∀ c ∈ standaloneSigils, raw.trim.head? ≠ some c)
    (later : Yields d (line + Text.newlines (d.tag raw)) ahead
      ⟨base.frames, .variableTag name escape :: base.before⟩ result) :
    Yields d line (d.tag raw ++ ahead) base result := by
  intro c pending stack reaches
  have together (start : Bool) : Cursor.soloTrail? start raw ahead = none := by
    rw [Cursor.soloTrail?]
    cases head : raw.trim.head? with
    | none => simp
    | some first =>
        have other : first ∉ standaloneSigils := fun member => many first member head
        simp [other]
  obtain ⟨read, spaced, -, onward⟩ := reach_tag apart (.value name escape) reaches closed visible
    classified rfl (together _)
  have stepped : stack.step (plainToken c pending raw (.value name escape)) =
      .ok ⟨stack.frames, .variableTag name escape ::
        (plainToken c pending raw (.value name escape)).withText stack.before⟩ := rfl
  rw [read, stepped, spaced, ← after_frames reaches]
  exact later _ [] _ (onward _)

theorem of_body_plain {name : Text} (plain : ∀ c, name.head? = some c → c ∉ '{' :: tagSigils) :
    Tag.ofBody name = .ok (.value name true) := by
  cases name with
  | nil => rfl
  | cons c rest =>
      have other := plain c rfl
      simp only [tagSigils, List.mem_cons, List.not_mem_nil, or_false, not_or] at other
      simp [Tag.ofBody, other]

theorem yields_tag (apart : d.Apart) {node : Node} {written : Text} (regular : node.Regular d)
    (tagged : TagWritten d node written)
    (later : Yields d (line + Text.newlines written) ahead ⟨base.frames, node :: base.before⟩ result) :
    Yields d line (written ++ ahead) base result := by
  cases tagged with
  | escaped name before after left right =>
      obtain ⟨named, fits⟩ := regular
      obtain ⟨nonempty, plain⟩ := fits rfl
      obtain ⟨closed, trimmed⟩ := named_body apart named nonempty left right
      apply yields_value apart closed _ _ _ later
      · rw [trimmed]
        exact nonempty
      · rw [trimmed]
        exact of_body_plain plain
      · intro c member head
        rw [trimmed] at head
        apply plain c head
        simp only [standaloneSigils, tagSigils, List.mem_cons] at member ⊢
        tauto
  | raw name source sigiled =>
      obtain ⟨before, inner, after, left, middle, right, rfl⟩ := sigiled
      have special : '&' ∈ tagSigils := by decide
      obtain ⟨closed, rest, trimmed, same⟩ :=
        sigiled_body apart special regular.1 left middle right
      apply yields_value apart closed _ _ _ later
      · rw [trimmed]
        simp
      · rw [trimmed]
        exact congrArg (fun name => Except.ok (Tag.value name false)) same
      · intro c member head
        rw [trimmed] at head
        cases head
        exact absurd member (by decide)
  | braced name before after left right =>
      obtain ⟨closed, trimmed, classified⟩ := braced_body regular.1 left right
      apply yields_value apart closed _ _ _ later
      · rw [trimmed]
        simp
      · rw [trimmed]
        exact classified
      · intro c member head
        rw [trimmed] at head
        cases head
        exact absurd member (by decide)
  | inclusion name source sigiled =>
      intro c pending stack reaches
      -- A partial could stand alone, so it is written behind a comment.
      obtain ⟨token, next, read, tag, spaced, padding, -, onward⟩ := reach_guarded apart
        (.inclusion name) (by decide) regular.1 sigiled
        (fun rest same => congrArg (fun name => Except.ok (Tag.inclusion name)) same) rfl reaches
      have stepped : base.step token =
          .ok ⟨base.frames, .partialTag name [] true :: base.before⟩ := by
        rw [Stack.step, tag, spaced, padding]
      rw [read, stepped]
      exact later next [] _ (onward _)

theorem push_text_apart (content : Text) (before : List Node) (nonempty : content ≠ [])
    (apart : ∀ old, before.head? ≠ some (.text old)) :
    Node.pushText content before = .text content :: before := by
  rw [Node.pushText, if_neg nonempty]
  rintro old rest rfl
  exact apart old rfl

theorem yields_written (apart : d.Apart) {nodes : List Node} {source : Text}
    (written : Written d line nodes source) (regular : Node.RegularAll d nodes)
    (apart_text : ∀ a b, base.before.head? = some (.text a) → nodes.head? ≠ some (.text b))
    (later : Yields d (line + Text.newlines source) ahead
      ⟨base.frames, nodes.reverse ++ base.before⟩ result) :
    Yields d line (source ++ ahead) base result := by
  induction written generalizing ahead base result with
  | none line => exact later
  | text line content rest source written ih =>
      obtain ⟨⟨nonempty, spared⟩, alone, others⟩ := regular
      have added : base.after content = ⟨base.frames, .text content :: base.before⟩ := by
        rw [Stack.after, push_text_apart content base.before nonempty]
        intro old head
        exact apart_text old content head rfl
      have onward : Yields d (line + Text.newlines content) (source ++ ahead) (base.after content)
          result := by
        rw [added]
        apply ih others
        · intro a b same
          cases same
          exact alone content b rfl
        · simpa [Text.newlines_append, Nat.add_assoc] using later
      intro c pending stack reaches
      apply onward c (pending ++ content) stack
      exact {
        rest := by rw [reaches.rest, List.append_assoc, List.append_assoc]
        delimiters := reaches.delimiters
        spared := by
          intro char member
          rcases List.mem_append.mp member with old | new
          · exact reaches.spared char old
          · exact fun within => spared char new (List.mem_append_left _ within)
        line := by rw [Text.newlines_append, ← Nat.add_assoc, reaches.line]
        base := by rw [← reaches.base, Stack.after, Node.push_text_append]; rfl }
  | tag line node written rest source tagged others ih =>
      obtain ⟨regular_node, -, regular_rest⟩ := regular
      rw [List.append_assoc]
      apply yields_tag apart regular_node tagged
      apply ih regular_rest
      · intro a b same
        cases same
        cases tagged
      · simpa [Text.newlines_append, Nat.add_assoc] using later
  | enclosed line name inverted opening closing children body rest source opens closes inside
      others inside_ih others_ih =>
      obtain ⟨⟨named, regular_children⟩, -, regular_rest⟩ := regular
      have split : d.comment ++ opening ++ body ++ (d.comment ++ closing) ++ source ++ ahead =
          d.comment ++ opening ++ (body ++ (d.comment ++ closing ++ (source ++ ahead))) := by
        simp only [List.append_assoc]
      intro c pending stack reaches
      rw [split] at reaches
      obtain ⟨token, next, read, tag, spaced, -, number, onward⟩ := reach_guarded apart
        (.opening inverted name) (by cases inverted <;> decide) named opens
        (fun rest same => by cases inverted <;> exact congrArg (fun name => Except.ok (Tag.opening _ name)) same)
        rfl reaches
      have stepped : base.step token =
          .ok ⟨⟨⟨name, token.line⟩, inverted, base.before⟩ :: base.frames, []⟩ := by
        rw [Stack.step, tag, spaced]
      rw [read, stepped]
      apply inside_ih regular_children _ _ next [] _ (onward _)
      · intro a b same
        cases same
      -- The closing tag finds the children on the frame that the opening one has left.
      intro c pending stack reaches
      obtain ⟨token', next', read, tag, spaced, -, -, onward⟩ := reach_guarded apart
        (.closing name) (by decide) named closes
        (fun rest same => congrArg (fun name => Except.ok (Tag.closing name)) same) rfl reaches
      have stepped : Stack.step token'
          ⟨⟨⟨name, token.line⟩, inverted, base.before⟩ :: base.frames, children.reverse ++ []⟩ =
          .ok ⟨base.frames, .sectionTag name inverted token.line children :: base.before⟩ := by
        rw [Stack.step, tag, spaced]
        simp [Frame.close]
      have following : Yields d
          (line + Text.newlines (d.comment ++ opening ++ body ++ (d.comment ++ closing)))
          (source ++ ahead)
          ⟨base.frames, .sectionTag name inverted token.line children :: base.before⟩ result := by
        apply others_ih regular_rest
        · intro a b same
          cases same
        · rw [number]
          simpa [Text.newlines_append, Nat.add_assoc] using later
      rw [read, stepped]
      apply following next' []
      simpa [Text.newlines_append, Nat.add_assoc] using onward _

/-- A source is read as the tree that it is a way to write. -/
theorem parse_written (apart : d.Apart) {tree : List Node} {source : Text}
    (written : Written d 1 tree source) (regular : Node.RegularAll d tree) :
    parse source d = .ok ⟨tree, d⟩ := by
  have yields : Yields d 1 (source ++ []) .bottom (.ok ⟨tree, d⟩) := by
    apply yields_written apart written regular (by simp [Stack.bottom])
    intro c pending stack reaches
    obtain ⟨first, others, opening⟩ := List.exists_cons_of_ne_nil apart.opens
    have absent : Text.upTo? c.delimiters.opening c.rest = none := by
      rw [reaches.delimiters, reaches.rest, List.append_nil, opening]
      apply Text.up_to_absent
      intro member
      exact reaches.spared first member (by rw [opening]; exact List.mem_cons_self)
    have stepped := Cursor.step_eq c
    rw [absent] at stepped
    obtain ⟨frames, before⟩ := stack
    have based := reaches.base
    rw [Stack.after, Stack.mk.injEq] at based
    obtain ⟨rfl, pushed⟩ := based
    rw [Cursor.scan_finish stepped]
    simp [Scan.tree, Stack.run, Except.bind, Stack.finish, Stack.bottom, reaches.rest, pushed,
      Cursor.runOut, reaches.delimiters]
  rw [List.append_nil] at yields
  rw [parse_eq_tree]
  apply yields (Cursor.start source d) [] .bottom
  exact ⟨rfl, rfl, by simp, rfl, rfl⟩

end Siblings

mutual
/-- A node with the lines of its sections left open. -/
def Node.unlined : Node → Node
  | .sectionTag name inverted _ children =>
      .sectionTag name inverted 0 (Node.unlinedAll children)
  | node => node

def Node.unlinedAll : List Node → List Node
  | [] => []
  | first :: rest => first.unlined :: Node.unlinedAll rest
end

section Existence
variable (d : Delimiters)

theorem unlined_cons (node : Node) {a b : List Node} (same : Node.unlinedAll a = Node.unlinedAll b) :
    Node.unlinedAll (node :: a) = Node.unlinedAll (node :: b) := by
  rw [Node.unlinedAll, Node.unlinedAll, same]

theorem unlined_text_iff (node : Node) (content : Text) :
    node.unlined = .text content ↔ node = .text content := by
  cases node <;> simp [Node.unlined]

theorem unlined_head_iff (nodes : List Node) (content : Text) :
    (Node.unlinedAll nodes).head? = some (.text content) ↔ nodes.head? = some (.text content) := by
  cases nodes with
  | nil => exact Iff.rfl
  | cons node rest => simp [Node.unlinedAll, unlined_text_iff]

mutual
theorem unlined_regular : (node : Node) → (node.unlined.Regular d ↔ node.Regular d)
  | .sectionTag _ _ _ children => and_congr Iff.rfl (unlined_regular_all children)
  | .text _ | .variableTag _ _ | .partialTag _ _ _ | .unknownTag _ | .unknown => Iff.rfl

theorem unlined_regular_all : (nodes : List Node) →
    (Node.RegularAll d (Node.unlinedAll nodes) ↔ Node.RegularAll d nodes)
  | [] => Iff.rfl
  | node :: rest => by
      have first := unlined_regular node
      have others := unlined_regular_all rest
      simp only [Node.unlinedAll, Node.RegularAll, first, others, unlined_text_iff, ne_eq,
        unlined_head_iff]
end

theorem sigiled_tight (sigil : Char) (name : Text) :
    d.Sigiled sigil name (d.tag (sigil :: name)) := by
  have none : Text.Blank [] := by simp [Text.Blank]
  exact ⟨[], [], [], none, none, none, by simp⟩

/-- Regular siblings can be written on any line. -/
theorem written_exists (line : Nat) : (nodes : List Node) → Node.RegularAll d nodes →
    ∃ lined source, Node.unlinedAll lined = Node.unlinedAll nodes ∧ Written d line lined source
  | [], _ => ⟨[], [], rfl, .none line⟩
  | .text content :: rest, regular => by
      obtain ⟨lined, source, same, written⟩ :=
        written_exists (line + Text.newlines content) rest regular.2.2
      exact ⟨.text content :: lined, _, unlined_cons _ same,
        .text line content lined source written⟩
  | .variableTag name true :: rest, regular => by
      -- Each node is written without white space of its own.
      have none : Text.Blank [] := by simp [Text.Blank]
      have tagged := TagWritten.escaped (d := d) name [] [] none none
      obtain ⟨lined, source, same, written⟩ := written_exists _ rest regular.2.2
      exact ⟨_, _, unlined_cons _ same,
        .tag line _ _ lined source tagged written⟩
  | .variableTag name false :: rest, regular => by
      have tagged := TagWritten.raw name _ (sigiled_tight d '&' name)
      obtain ⟨lined, source, same, written⟩ := written_exists _ rest regular.2.2
      exact ⟨_, _, unlined_cons _ same,
        .tag line _ _ lined source tagged written⟩
  | .partialTag name indent linked :: rest, regular => by
      obtain ⟨⟨-, rfl, rfl⟩, -, others⟩ := regular
      have tagged := TagWritten.inclusion name _ (sigiled_tight d '>' name)
      obtain ⟨lined, source, same, written⟩ := written_exists _ rest others
      exact ⟨_, _, unlined_cons _ same,
        .tag line _ _ lined source tagged written⟩
  | .sectionTag name inverted _ children :: rest, regular => by
      obtain ⟨⟨-, inside⟩, -, others⟩ := regular
      have opens := sigiled_tight d (if inverted then '^' else '#') name
      have closes := sigiled_tight d '/' name
      obtain ⟨linedInside, body, sameInside, writtenInside⟩ := written_exists _ children inside
      obtain ⟨lined, source, same, written⟩ := written_exists _ rest others
      refine ⟨_, _, ?_, .enclosed line name inverted _ _ linedInside body lined source opens closes
        writtenInside written⟩
      simp only [Node.unlinedAll, Node.unlined, sameInside, same]
  | .unknownTag _ :: _, regular => regular.1.elim
  | .unknown :: _, regular => regular.1.elim

end Existence

/-- The parser reaches every regular tree, up to the lines of its sections, which depend on
how it is written: it can be written, and each way to write it is read as it. -/
theorem parse_reaches_tree {d : Delimiters} (apart : d.Apart) {tree : List Node}
    (regular : Node.RegularAll d tree) :
    (∃ lined source, Node.unlinedAll lined = Node.unlinedAll tree ∧ Written d 1 lined source) ∧
      ∀ lined source, Node.unlinedAll lined = Node.unlinedAll tree → Written d 1 lined source →
        parse source d = .ok ⟨lined, d⟩ := by
  refine ⟨written_exists d 1 tree regular, ?_⟩
  intro lined source same written
  apply parse_written apart written
  rw [← unlined_regular_all, same, unlined_regular_all]
  exact regular

def writtenTree : List Node :=
  [.text "a\n".toList,
    .sectionTag ['s'] true 2 [.variableTag ['x'] true, .text ['b'], .variableTag ['y'] false],
    .partialTag ['p'] [] true]

def writtenSource : Text :=
  "a\n\x7b\x7b!\x7d\x7d\x7b\x7b^ s\n\x7d\x7d\x7b\x7bx \x7d\x7db\x7b\x7b\x7by\x7d\x7d\x7d".toList ++
    "\x7b\x7b!\x7d\x7d\x7b\x7b/s\x7d\x7d\x7b\x7b!\x7d\x7d\x7b\x7b\t>p\x7d\x7d".toList

theorem written_tree_reached : Delimiters.standard.Apart ∧ Node.RegularAll .standard writtenTree ∧
    Written .standard 1 writtenTree writtenSource ∧
    parse writtenSource .standard = .ok ⟨writtenTree, .standard⟩ := by
  have apart : Delimiters.standard.Apart :=
    { opens := by decide, closes := by decide, visible := Text.visible_of_all rfl
      plain := by simp [Delimiters.standard, tagSigils] }
  have name (c : Char) (letter : c ∈ ['s', 'x', 'y', 'p']) : Delimiters.standard.Name [c] := by
    simp only [List.mem_cons, List.not_mem_nil, or_false] at letter
    rcases letter with rfl | rfl | rfl | rfl <;>
      exact { spared := by decide, braceless := by simp, trimmed := by decide }
  have regular : Node.RegularAll .standard writtenTree := by
    simp [writtenTree, Node.RegularAll, Node.Regular, name, tagSigils]
    decide
  have written : Written .standard 1 writtenTree writtenSource := by
    have none : Text.Blank [] := by decide
    have body : Written .standard 3 [.variableTag ['x'] true, .text ['b'], .variableTag ['y'] false]
        "\x7b\x7bx \x7d\x7db\x7b\x7b\x7by\x7d\x7d\x7d".toList :=
      .tag 3 _ _ _ _ (.escaped ['x'] [] [' '] none (by decide))
        (.text 3 ['b'] _ _ (.tag 3 _ _ _ _ (.braced ['y'] [] [] none none) (.none 3)))
    have rest : Written .standard 3 [.partialTag ['p'] [] true]
        "\x7b\x7b!\x7d\x7d\x7b\x7b\t>p\x7d\x7d".toList :=
      .tag 3 _ _ _ _ (.inclusion ['p'] _ ⟨['\t'], [], [], by decide, none, none, rfl⟩) (.none 3)
    exact .text 1 "a\n".toList _ _
      (.enclosed 2 ['s'] true _ _ _ _ _ _ ⟨[], [' '], ['\n'], none, by decide, by decide, rfl⟩
        ⟨[], [], [], none, none, none, rfl⟩ body rest)
  exact ⟨apart, regular, written,
    (parse_reaches_tree apart regular).2 writtenTree writtenSource rfl written⟩

end Mustache
