import Mathlib.Data.List.TakeWhile
import Mustache.Proofs.Composition
import Mustache.Proofs.Trimming

/-!
A line that holds one tag and nothing else. At the start of a source it is read as one
token, and what follows is read as a source of its own, with the delimiters that are in
force after the tag and its lines counted on. A tag that leaves no node behind leaves
nothing of its line.
-/

namespace Mustache

section Texts

theorem trim_sigil (sigil : Char) (name : Text) (visible : Text.isSpace sigil = false)
    (trimmed : name.trim = name) : Text.trim (sigil :: name) = sigil :: name := by
  have right : name.trimRight = name := by
    rw [← trimmed]
    exact Text.trim_right_idem name.trimLeft
  rw [Text.trim_cons sigil name visible, right]

theorem up_to_after_spaces (marker spaces : Text) (nonempty : marker ≠ [])
    (visible : ∀ c ∈ marker, Text.isSpace c = false) (blank : ∀ c ∈ spaces, Text.isSpace c = true) :
    Text.upTo? marker (spaces ++ marker) = some spaces := by
  obtain ⟨first, others, rfl⟩ := List.exists_cons_of_ne_nil nonempty
  have absent : first ∉ spaces := by
    intro member
    have hidden := blank first member
    rw [visible first List.mem_cons_self] at hidden
    cases hidden
  have found := Text.up_to_first first others spaces [] absent
  rwa [List.append_nil] at found

theorem standalone_visible {sigil : Char} (alone : standaloneSigils.contains sigil = true) :
    Text.isSpace sigil = false ∧ sigil ≠ '\x7b' := by
  have known : standaloneSigils.all (fun c => !Text.isSpace c && c != '\x7b') = true := rfl
  simpa using List.all_eq_true.mp known sigil (List.contains_iff_mem.mp alone)

theorem padding_nil : ∀ c ∈ ([] : Text), Text.isPadding c = true := List.forall_mem_nil _

theorem padding_space_tab : ∀ c ∈ [' ', '\t'], Text.isPadding c = true := by
  simp [Text.isPadding]

theorem newline_breaks : ['\n'] = ['\n'] ∨ ['\n'] = ['\r', '\n'] := .inl rfl

end Texts

structure TagLine (pair : Delimiters) where
  pad : Text
  sigil : Char
  body : Text
  trail : Text
  brk : Text
  tag : Tag
  /-- The opening delimiter is not found in the padding. -/
  opened : Text.upTo? pair.opening (pad ++ pair.opening) = some pad
  /-- The closing delimiter is not found within the tag. -/
  closed : Text.upTo? pair.closing (sigil :: body ++ pair.closing) = some (sigil :: body)
  alone : standaloneSigils.contains sigil = true
  classified : Tag.ofBody (Text.trim (sigil :: body)) = .ok tag
  padded : ∀ c ∈ pad, Text.isPadding c = true
  trailing : ∀ c ∈ trail, Text.isPadding c = true
  ended : brk = ['\n'] ∨ brk = ['\r', '\n']

namespace TagLine
variable {pair : Delimiters} (line : TagLine pair)

def source : Text :=
  line.pad ++ pair.opening ++ (line.sigil :: line.body) ++ pair.closing ++ (line.trail ++ line.brk)

def token : Token where
  text := []
  padding := line.pad
  lineStart := true
  raw := line.sigil :: line.body
  trail := line.trail ++ line.brk
  standalone := true
  delimiters := pair
  line := 1 + Text.newlines (line.pad ++ pair.opening)
  endLine := 1 + Text.newlines line.source
  tag := line.tag

def next (post : Text) : Cursor :=
  ⟨line.source.reverse, post, 1 + Text.newlines line.source, line.tag.delimitersAfter pair⟩

theorem trim_raw :
    Text.trim (line.sigil :: line.body) = line.sigil :: line.body.trimRight :=
  Text.trim_cons _ _ (standalone_visible line.alone).1

theorem ends_alone (post : Text) :
    Cursor.lineEnd? (line.trail ++ line.brk ++ post) = some (line.trail ++ line.brk) :=
  (Cursor.line_end_iff _ _).mpr ⟨line.trail, line.brk, post, rfl, line.trailing, Or.inr line.ended, rfl⟩

theorem raw_tag (before ahead : Text) (count : Nat) :
    (⟨before, line.sigil :: line.body ++ pair.closing ++ ahead, count, pair⟩ : Cursor).rawTag? =
      some (line.sigil :: line.body) := by
  have no_brace := (standalone_visible line.alone).2
  have found := Text.up_to_append _ _ ahead _ line.closed
  unfold Cursor.rawTag?
  split
  · next rest first => exact absurd (List.cons.inj first).1 no_brace
  · exact found

theorem reads (post : Text) :
    Cursor.Reads (Cursor.start (line.source ++ post) pair) line.token (line.next post) := by
  have pad_back : ∀ c ∈ line.pad.reverse, Text.isPadding c = true := by
    simpa using line.padded
  have opened : line.source ++ post = line.pad ++ pair.opening ++
      (line.sigil :: line.body ++ pair.closing ++ (line.trail ++ line.brk ++ post)) := by
    simp only [source, List.append_assoc]
  have taken : line.token.source = line.source := rfl
  exact {
    chunk := by
      show Text.upTo? pair.opening (line.source ++ post) = some line.pad
      rw [opened]
      exact Text.up_to_append _ _ _ _ line.opened
    lineStart := by
      show true = Cursor.startsLine (line.pad.reverse.dropWhile Text.isPadding ++ [])
      rw [List.dropWhile_eq_nil_iff.mpr pad_back]
      rfl
    padding := by
      show line.pad = (line.pad.reverse.takeWhile Text.isPadding).reverse
      rw [List.takeWhile_eq_self_iff.mpr pad_back, List.reverse_reverse]
    raw := by
      show (Cursor.advance (line.pad ++ pair.opening).length
        (Cursor.start (line.source ++ post) pair)).rawTag? = some (line.sigil :: line.body)
      rw [Cursor.advance_over _ _ _ opened]
      exact line.raw_tag _ _ _
    visible := by
      show Text.trim (line.sigil :: line.body) ≠ []
      rw [line.trim_raw]
      simp
    tag := line.classified
    trail := by
      show Cursor.soloTrail? true (line.sigil :: line.body) (line.trail ++ line.brk ++ post) =
        some (line.trail ++ line.brk)
      rw [Cursor.soloTrail?, line.trim_raw, line.ends_alone post, List.head?_cons, Option.any_some,
        line.alone]
      exact if_pos rfl
    noTrail := fun none => by cases none
    rest := rfl
    before := by
      rw [taken]
      exact (List.append_nil _).symm
    delimiters := rfl
    delimitersAfter := rfl
    line := rfl
    endLine := rfl
    lineAfter := rfl }

theorem moved (post : Text) :
    Cursor.Moved [] (Text.newlines line.source)
      (Cursor.start post (line.tag.delimitersAfter pair)) (line.next post) where
  rest := rfl
  delimiters := rfl
  line := rfl
  before := by
    refine ⟨line.source.reverse, rfl, (Text.ends_line_iff _).mp (Or.inr ?_)⟩
    rw [source, List.getLast?_append, List.getLast?_append]
    rcases line.ended with brk | brk <;> rw [brk] <;> rfl
  ends := Or.inl rfl
  across := by simp

theorem scan_source (post : Text) :
    scan (line.source ++ post) pair =
      ⟨line.token ::
          ((scan post (line.tag.delimitersAfter pair)).later (Text.newlines line.source)).tokens,
        ((scan post (line.tag.delimitersAfter pair)).later (Text.newlines line.source)).ending⟩ := by
  rw [scan, Cursor.scan_token (Cursor.step_of_reads (line.reads post)),
    Cursor.scan_moved (line.moved post)]
  rfl

/-- After any open sections the line does what its tag does, and a line starts behind it. -/
theorem tree_line (post : Text) (lines : Nat) (outer : Stack) :
    ((scan (line.source ++ post) pair).later lines).tree outer =
      (outer.step (line.token.later lines)).bind
        ((scan post (line.tag.delimitersAfter pair)).later (Text.newlines line.source + lines)).tree := by
  rw [line.scan_source post, ← Scan.later_later]
  exact tree_cons _ _ _ outer

theorem tree_silent (silent : line.tag = .comment ∨ ∃ changed, line.tag = .delimiters changed)
    (post : Text) (lines : Nat) (outer : Stack) :
    ((scan (line.source ++ post) pair).later lines).tree outer =
      ((scan post (line.tag.delimitersAfter pair)).later (Text.newlines line.source + lines)).tree
        outer := by
  have kept : (line.token.later lines).withText outer.before = outer.before := rfl
  have stepped : outer.step (line.token.later lines) = .ok outer := by
    unfold Stack.step
    rw [kept]
    rcases silent with comment | ⟨changed, delimiters⟩
    · simp [token, Token.later, comment]
    · simp [token, Token.later, delimiters]
  rw [line.tree_line post, stepped]
  rfl

end TagLine

section Changing

theorem trim_left_visible {t : Text} (visible : ∀ c ∈ t, Text.isSpace c = false) :
    t.trimLeft = t := by
  cases t with
  | nil => rfl
  | cons first rest => simp [Text.trimLeft, visible first List.mem_cons_self]

theorem of_meta_words {opening closing gap : Text} (opens : opening ≠ []) (closes : closing ≠ [])
    (opening_visible : ∀ c ∈ opening, Text.isSpace c = false)
    (closing_visible : ∀ c ∈ closing, Text.isSpace c = false)
    (apart : gap ≠ []) (blank : Text.Blank gap) :
    Delimiters.ofMeta (opening ++ gap ++ closing) = some ⟨opening, closing⟩ := by
  obtain ⟨first, others, split⟩ := List.exists_cons_of_ne_nil opens
  obtain ⟨space, spaces, rfl⟩ := List.exists_cons_of_ne_nil apart
  have trimmed : Text.trim (opening ++ space :: spaces ++ closing) =
      opening ++ (space :: spaces ++ closing) := by
    have first_visible := opening_visible first (by simp [split])
    have last_visible := closing_visible (closing.getLast closes) (List.getLast_mem closes)
    have whole := Text.trim_enclosed first (closing.getLast closes)
      (others ++ space :: spaces ++ closing.dropLast) first_visible last_visible
    simpa [split, List.dropLast_concat_getLast closes] using whole
  have shown : ∀ c ∈ opening, (!Text.isSpace c) = true := by
    simpa using opening_visible
  have hidden : Text.isSpace space = true := blank space List.mem_cons_self
  have front : (opening ++ (space :: spaces ++ closing)).takeWhile (!Text.isSpace ·) = opening := by
    rw [List.takeWhile_append_of_pos shown]
    simp [hidden]
  have back : (opening ++ (space :: spaces ++ closing)).dropWhile (!Text.isSpace ·) =
      space :: spaces ++ closing := by
    rw [List.dropWhile_append_of_pos shown]
    simp [hidden]
  have rest : Text.trimLeft (space :: spaces ++ closing) = closing := by
    rw [Text.trim_left_blank _ _ blank]
    exact trim_left_visible closing_visible
  unfold Delimiters.ofMeta
  simp only [trimmed, front, back, rest, opens, closes, or_self, if_false]

end Changing

/-- The line of a tag that puts `changed` in force, as it is written with the delimiters
`pair`. -/
structure DelimiterLine (pair : Delimiters) where
  changed : Delimiters
  gap : Text
  brk : Text
  opens : changed.opening ≠ []
  closes : changed.closing ≠ []
  opening_visible : ∀ c ∈ changed.opening, Text.isSpace c = false
  closing_visible : ∀ c ∈ changed.closing, Text.isSpace c = false
  apart : gap ≠ []
  blank : ∀ c ∈ gap, Text.isPadding c = true
  /-- The closing delimiter is not found within the tag. -/
  closed : Text.upTo? pair.closing
      ('=' :: (changed.opening ++ gap ++ changed.closing) ++ ['='] ++ pair.closing) =
    some ('=' :: (changed.opening ++ gap ++ changed.closing) ++ ['='])
  ended : brk = ['\n'] ∨ brk = ['\r', '\n']

namespace DelimiterLine
variable {pair : Delimiters} (line : DelimiterLine pair)

def source : Text :=
  pair.opening ++ ('=' :: (line.changed.opening ++ line.gap ++ line.changed.closing) ++ ['=']) ++
    pair.closing ++ line.brk

theorem classified :
    Tag.ofBody (Text.trim
        ('=' :: (line.changed.opening ++ line.gap ++ line.changed.closing ++ ['=']))) =
      .ok (.delimiters (some line.changed)) := by
  have named := of_meta_words line.opens line.closes line.opening_visible line.closing_visible
    line.apart fun c member => Text.is_space_of_padding c (line.blank c member)
  rw [← List.cons_append, Text.trim_enclosed '=' '=' _ (by decide) (by decide), List.cons_append,
    Tag.ofBody, List.getLast?_concat, List.dropLast_concat, named, if_pos rfl]

def tagLine : TagLine pair where
  pad := []
  sigil := '='
  body := line.changed.opening ++ line.gap ++ line.changed.closing ++ ['=']
  trail := []
  brk := line.brk
  tag := .delimiters (some line.changed)
  opened := by cases pair.opening <;> simp [Text.upTo?]
  closed := line.closed
  alone := by decide
  classified := line.classified
  padded := padding_nil
  trailing := padding_nil
  ended := line.ended

theorem newlines_source (opening : '\n' ∉ pair.opening) (closing : '\n' ∉ pair.closing) :
    Text.newlines line.source = 1 := by
  have unbroken {t : Text} (visible : ∀ c ∈ t, Text.isSpace c = false) : '\n' ∉ t :=
    fun member => absurd (visible _ member) (by decide)
  have named : '\n' ∉ line.changed.opening ∧ '\n' ∉ line.changed.closing :=
    ⟨unbroken line.opening_visible, unbroken line.closing_visible⟩
  have gap : '\n' ∉ line.gap := fun member => absurd (line.blank _ member) (by decide)
  have within : Text.newlines (pair.opening ++
      ('=' :: (line.changed.opening ++ line.gap ++ line.changed.closing) ++ ['=']) ++
      pair.closing) = 0 := by
    simp [Text.newlines_eq_zero_iff, opening, closing, named, gap]
  rw [source, Text.newlines_append, within]
  rcases line.ended with brk | brk <;> rw [brk] <;> rfl

end DelimiterLine

/-- Delimiters changed by a tag on the first line are as good as delimiters that were in
force from the start. What follows has the same tree, or the same error, one line later. -/
theorem changed_delimiters_as_given {pair : Delimiters} (line : DelimiterLine pair)
    (opening : '\n' ∉ pair.opening) (closing : '\n' ∉ pair.closing) (s : Text) :
    parse (line.source ++ s) pair = outcomeLater 1 (·.later 1) (parse s line.changed) := by
  have silent := line.tagLine.tree_silent (.inr ⟨_, rfl⟩) s 0 .bottom
  have counted : Text.newlines line.tagLine.source = 1 := line.newlines_source opening closing
  rw [counted, Scan.later_zero] at silent
  rw [parse_eq_tree, parse_eq_tree]
  exact silent.trans (tree_later 1 (scan s line.changed) .bottom)

def braceLine : DelimiterLine .standard where
  changed := ⟨['=', '\x7b'], ['\x7d', '=']⟩
  gap := [' ', '\t']
  brk := ['\n']
  opens := by decide
  closes := by decide
  opening_visible := Text.visible_of_all rfl
  closing_visible := Text.visible_of_all rfl
  apart := by decide
  blank := padding_space_tab
  closed := by decide
  ended := newline_breaks

theorem brace_line_as_given :
    parse (braceLine.source ++ "a\n=\x7b#s\x7d=\n=\x7b/s\x7d=".toList) .standard =
        .ok ⟨[.text ['a', '\n'], .sectionTag ['s'] false 3 []], braceLine.changed⟩ ∧
      parse (braceLine.source ++ "a\n=\x7b#s\x7d=".toList) .standard =
        .error ⟨.unclosedSection ['s'], 3⟩ := by
  have closed : parse "a\n=\x7b#s\x7d=\n=\x7b/s\x7d=".toList braceLine.changed =
      .ok ⟨[.text ['a', '\n'], .sectionTag ['s'] false 2 []], braceLine.changed⟩ := by cbv
  have open_section : parse "a\n=\x7b#s\x7d=".toList braceLine.changed =
      .error ⟨.unclosedSection ['s'], 2⟩ := by cbv
  constructor
  · rw [changed_delimiters_as_given braceLine (by decide) (by decide), closed]
    rfl
  · rw [changed_delimiters_as_given braceLine (by decide) (by decide), open_section]
    rfl

end Mustache
