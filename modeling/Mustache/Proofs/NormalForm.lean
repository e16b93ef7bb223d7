import Mustache.Proofs.CursorUse
import Mustache.Proofs.Reindentation

/-!
The trees that can be read. Whatever is dropped between two texts, what is left of them is one text
or the tag between them, a name is trimmed, and a partial is indented by what stands before its tag
on the line. The sections come in the order of their lines.
-/

namespace Mustache

def Text.lineBefore (t : Text) (position : Nat) : Text :=
  ((t.take position).reverse.takeWhile (· ≠ '\n')).reverse

def bodySigils : List Char := ['#', '^', '/', '>', '=', '!', '&', '{']

structure Text.NamesVariable (name : Text) : Prop where
  nonempty : name ≠ []
  plain : ∀ sigil ∈ bodySigils, name.head? ≠ some sigil

def Node.Apart (siblings : List Node) : Prop :=
  siblings.IsChain fun left right => left.isTag = true ∨ right.isTag = true

inductive Node.Normal : Node → Prop
  | text {content : Text} : content ≠ [] → Normal (.text content)
  | escaped {name : Text} : name.trim = name → name.NamesVariable →
      Normal (.variableTag name true)
  | unescaped {name : Text} : name.trim = name → Normal (.variableTag name false)
  | sectionTag {name : Text} {inverted : Bool} {line : Int} {children : List Node} :
      name.trim = name → (∀ child ∈ children, Normal child) → Apart children →
      Normal (.sectionTag name inverted line children)
  | partialTag {name indent : Text} {linked : Bool} :
      name.trim = name → (∀ c ∈ indent, Text.isPadding c = true) →
      Normal (.partialTag name indent linked)

structure Node.NormalForm (siblings : List Node) : Prop where
  nodes : ∀ node ∈ siblings, node.Normal
  apart : Apart siblings

def Mark.sectionLine? : Mark → Option Int
  | .enter _ _ line => some line
  | _ => none

/-- A place where its tag is written, on the line that the tag has, behind the padding it has. -/
structure Place.Located (source : Text) (place : Place) : Prop where
  tag : place.token.tagText <+: source.drop place.start
  opening : '\n' ∉ place.token.delimiters.opening
  line : place.token.line = source.lineAt place.start
  padding : place.token.padding ≠ [] → source.lineBefore place.start = place.token.padding

/-! Siblings, nearest first or in order. -/
section Siblings
variable {before : List Node}

theorem text_or_tag {node : Node} (normal : node.Normal) :
    (∃ content, node = .text content) ∨ node.isTag = true := by
  cases normal with
  | text visible => exact .inl ⟨_, rfl⟩
  | escaped | unescaped | sectionTag | partialTag => exact .inr rfl

theorem normal_form_nil : Node.NormalForm [] := ⟨List.forall_mem_nil _, .nil⟩

theorem normal_form_reverse (normal : Node.NormalForm before) : Node.NormalForm before.reverse where
  nodes := fun node member => normal.nodes node (List.mem_reverse.mp member)
  apart := List.isChain_reverse.mpr (normal.apart.imp fun _ _ apart => apart.symm)

theorem normal_form_tag {node : Node} (tag : node.isTag = true) (normal : node.Normal)
    (others : Node.NormalForm before) : Node.NormalForm (node :: before) where
  nodes := List.forall_mem_cons.mpr ⟨normal, others.nodes⟩
  apart := List.isChain_cons.mpr ⟨fun _ _ => .inl tag, others.apart⟩

theorem normal_form_text (content : Text) (normal : Node.NormalForm before) :
    Node.NormalForm (Node.pushText content before) := by
  unfold Node.pushText
  split
  · exact normal
  · next visible =>
      obtain ⟨nodes, apart⟩ := normal
      split
      · next previous rest =>
          rw [List.forall_mem_cons] at nodes
          have longer : previous ++ content ≠ [] := by simp [visible]
          -- The text is longer, and a text still.
          exact ⟨List.forall_mem_cons.mpr ⟨.text longer, nodes.2⟩,
            List.isChain_cons.mpr (List.isChain_cons.mp apart)⟩
      · next no_text =>
          refine ⟨List.forall_mem_cons.mpr ⟨.text visible, nodes⟩, ?_⟩
          refine List.isChain_cons.mpr ⟨fun nearest first => .inr ?_, apart⟩
          obtain ⟨rest, rfl⟩ := List.head?_eq_some_iff.mp first
          rcases text_or_tag (nodes nearest List.mem_cons_self) with ⟨previous, rfl⟩ | tag
          · exact absurd rfl (no_text previous rest)
          · exact tag

theorem normal_form_spaced (token : Token) (normal : Node.NormalForm before) :
    Node.NormalForm (token.withText before) := by
  unfold Token.withText
  dsimp only
  split
  · exact normal_form_text _ normal
  · exact normal_form_text _ (normal_form_text _ normal)

end Siblings

/-! Names of tags. -/

def Tag.Trimmed : Tag → Prop
  | .opening _ name | .closing name | .inclusion name | .value name false => name.trim = name
  | .value name true => name.trim = name ∧ name.NamesVariable
  | .comment | .stray | .delimiters _ => True

theorem tag_trimmed {body : Text} {tag : Tag} (trimmed : body.trim = body) (visible : body ≠ [])
    (classified : Tag.ofBody body = .ok tag) : tag.Trimmed := by
  unfold Tag.ofBody at classified
  split at classified
  case h_7 inner => split at classified <;> cases classified; trivial
  case h_8 name =>
    split at classified
    · cases classified
      exact Text.trim_trim _
    · cases classified
      trivial
  -- A name has none of the sigils: each of them has a case of its own before this one.
  case h_9 comment opening inverted closing inclusion unescaped changed braced =>
    cases classified
    refine ⟨trimmed, visible, fun sigil known first => ?_⟩
    obtain ⟨rest, rfl⟩ := List.head?_eq_some_iff.mp first
    simp only [bodySigils, List.mem_cons, List.not_mem_nil, or_false] at known
    rcases known with rfl | rfl | rfl | rfl | rfl | rfl | rfl | rfl
    · exact opening _ rfl
    · exact inverted _ rfl
    · exact closing _ rfl
    · exact inclusion _ rfl
    · exact changed _ rfl
    · exact comment _ rfl
    · exact unescaped _ rfl
    · exact braced _ rfl
  all_goals
    cases classified
    first | trivial | exact Text.trim_trim _

/-! Open sections. -/
section Stacks

structure Stack.Normal (stack : Stack) : Prop where
  names : ∀ frame ∈ stack.frames, frame.opened.name.trim = frame.opened.name
  around : ∀ frame ∈ stack.frames, Node.NormalForm frame.before
  before : Node.NormalForm stack.before

theorem step_normal {token : Token} {stack after : Stack} (trimmed : token.tag.Trimmed)
    (blank : ∀ c ∈ token.padding, Text.isPadding c = true)
    (stepped : stack.step token = .ok after) (normal : stack.Normal) : after.Normal := by
  obtain ⟨names, around, before⟩ := normal
  have spaced := normal_form_spaced token before
  unfold Stack.step at stepped
  cases tag : token.tag with
  | comment | stray | delimiters =>
      simp only [tag] at stepped
      cases stepped
      exact ⟨names, around, spaced⟩
  | value name escape =>
      simp only [tag] at stepped
      cases stepped
      rw [tag] at trimmed
      cases escape with
      | false => exact ⟨names, around, normal_form_tag rfl (.unescaped trimmed) spaced⟩
      | true => exact ⟨names, around, normal_form_tag rfl (.escaped trimmed.1 trimmed.2) spaced⟩
  | inclusion name =>
      simp only [tag] at stepped
      cases stepped
      rw [tag] at trimmed
      exact ⟨names, around, normal_form_tag rfl (.partialTag trimmed blank) spaced⟩
  | opening inverted name =>
      simp only [tag] at stepped
      cases stepped
      rw [tag] at trimmed
      exact ⟨List.forall_mem_cons.mpr ⟨trimmed, names⟩, List.forall_mem_cons.mpr ⟨spaced, around⟩,
        normal_form_nil⟩
  | closing name =>
      simp only [tag] at stepped
      cases frames : stack.frames with
      | nil => simp [frames] at stepped
      | cons frame outer =>
          simp only [frames] at stepped
          split at stepped
          · cases stepped
            rw [frames, List.forall_mem_cons] at names around
            -- A section is closed over the siblings read inside it, which were nearest first.
            have children := normal_form_reverse spaced
            exact ⟨names.2, around.2, normal_form_tag rfl
              (.sectionTag names.1 children.nodes children.apart) around.1⟩
          · cases stepped

theorem run_normal {tokens : List Token} {stack after : Stack}
    (trimmed : ∀ token ∈ tokens, token.tag.Trimmed)
    (blank : ∀ token ∈ tokens, ∀ c ∈ token.padding, Text.isPadding c = true)
    (ran : stack.run tokens = .ok after) (normal : stack.Normal) : after.Normal := by
  induction tokens generalizing stack with
  | nil =>
      cases ran
      exact normal
  | cons token rest ih =>
      rw [List.forall_mem_cons] at trimmed blank
      cases stepped : stack.step token with
      | error error => simp [Stack.run, stepped, Except.bind] at ran
      | ok next =>
          simp only [Stack.run, stepped, Except.bind] at ran
          exact ih trimmed.2 blank.2 ran (step_normal trimmed.1 blank.1 stepped normal)

end Stacks

theorem scan_token_normal {c : Cursor} {token : Token} (member : token ∈ c.scan.tokens) :
    token.tag.Trimmed ∧ ∀ char ∈ token.padding, Text.isPadding char = true := by
  obtain ⟨earlier, later, split⟩ := List.append_of_mem member
  obtain ⟨here, next, reads, -⟩ := Cursor.reads_amid split
  exact ⟨tag_trimmed (Text.trim_trim _) reads.visible reads.tag, padding_blank reads⟩

theorem normal_form_of_parse {source : Text} {delimiters : Delimiters} {parsed : Parsed}
    (read : parse source delimiters = .ok parsed) : Node.NormalForm parsed.nodes := by
  rw [parse_eq_tree] at read
  obtain ⟨before, ending, ran, -, rfl⟩ := tree_ok read
  have bottom : Stack.bottom.Normal :=
    ⟨List.forall_mem_nil _, List.forall_mem_nil _, normal_form_nil⟩
  have normal := run_normal (fun token member => (scan_token_normal member).1)
    (fun token member => (scan_token_normal member).2) ran bottom
  exact normal_form_reverse (normal_form_text ending.tail normal.before)

/-! Places of tags. -/
section Places
variable {c next : Cursor} {token : Token}

theorem line_before_padding (front padding : Text) (starts : Cursor.startsLine front.reverse = true)
    (blank : ∀ c ∈ padding, Text.isPadding c = true) :
    ((front ++ padding).reverse.takeWhile (· ≠ '\n')).reverse = padding := by
  have inline : ∀ c ∈ padding.reverse, decide (c ≠ '\n') = true := by
    intro c member
    rw [decide_eq_true_iff]
    rintro rfl
    exact absurd (blank _ (List.mem_reverse.mp member)) (by decide)
  have stops : front.reverse.takeWhile (fun c => decide (c ≠ '\n')) = [] := by
    cases back : front.reverse with
    | nil => rfl
    | cons c rest =>
        rw [back] at starts
        have feed : c = '\n' := by simpa [Cursor.startsLine] using starts
        simp [feed]
  rw [List.reverse_append, List.takeWhile_append_of_pos inline, stops, List.append_nil,
    List.reverse_reverse]

theorem located_at (reads : Cursor.Reads c token next) (counted : c.Counted)
    (inline : '\n' ∉ c.delimiters.opening) : (placeAt c token).Located c.source where
  tag := by
    rw [drop_start reads]
    exact List.prefix_append _ _
  opening := by
    change '\n' ∉ token.delimiters.opening
    rw [reads.delimiters]
    exact inline
  line := by
    change token.line = _
    rw [Cursor.Counted, Cursor.line_at_position] at counted
    rw [reads.line, Text.newlines_append, reads.delimiters,
      (Text.newlines_eq_zero_iff _).mpr inline, counted, Text.lineAt, take_start reads,
      Text.newlines_append c.before.reverse, Text.newlines_reverse]
    omega
  padding := by
    intro padded
    have padding : token.padding ≠ [] := padded
    -- Padding is split off only where a line starts.
    have start : token.lineStart = true := by
      rw [reads.padding, Cursor.paddingOf] at padding
      by_contra inside
      rw [if_neg inside] at padding
      exact padding rfl
    have starts := text_ends_line reads start
    rw [Text.lineBefore, take_start reads, ← List.append_assoc]
    refine line_before_padding _ _ ?_ (padding_blank reads)
    rw [List.reverse_append, List.reverse_reverse]
    exact starts

theorem places_located {source : Text} {delimiters : Delimiters}
    (inline : '\n' ∉ delimiters.opening) :
    ∀ place ∈ (scan source delimiters).places, place.Located source := by
  intro place member
  have unbroken (d : Delimiters) (named : d.Named) : '\n' ∉ d.opening :=
    fun feed => absurd (named.opening _ feed) (by decide)
  obtain ⟨here, next, reads, ⟨counted, inline⟩, same, -, at_here⟩ :=
    place_kept (fun c => c.Counted ∧ '\n' ∉ c.delimiters.opening)
      (fun reads now => ⟨Cursor.counted_passes now.1 (Cursor.reads_passes reads),
        delimiters_kept unbroken reads now.2⟩)
      (Cursor.start source delimiters) ⟨Cursor.counted_start source delimiters, inline⟩ place member
  have whole : here.source = source := same
  rw [at_here]
  exact whole ▸ located_at reads counted inline

theorem places_after (position : Nat) (tokens : List Token) :
    ∀ place ∈ placesFrom position tokens, position ≤ place.start := by
  induction tokens generalizing position with
  | nil => exact List.forall_mem_nil _
  | cons token rest ih =>
      rw [placesFrom, List.forall_mem_cons]
      exact ⟨Nat.le_add_right _ _, fun place member =>
        Nat.le_trans (Nat.le_add_right _ _) (ih _ place member)⟩

theorem places_ordered (position : Nat) (tokens : List Token) :
    (placesFrom position tokens).Pairwise fun earlier later => earlier.start ≤ later.start := by
  induction tokens generalizing position with
  | nil => exact .nil
  | cons token rest ih =>
      refine List.pairwise_cons.mpr ⟨fun place member => ?_, ih _⟩
      have after := places_after _ rest place member
      simp only [Token.source, List.length_append] at after ⊢
      omega

theorem section_line_of_place {source : Text} {place : Place} (located : place.Located source)
    {line : Int} (member : line ∈ place.token.tagMarks.filterMap Mark.sectionLine?) :
    line = source.lineAt place.start := by
  obtain ⟨mark, listed, opens⟩ := List.mem_filterMap.mp member
  rw [← located.line]
  unfold Token.tagMarks at listed
  cases tag : place.token.tag with
  | opening inverted name =>
      rw [tag] at listed
      obtain rfl := List.mem_singleton.mp listed
      exact (Option.some.inj opens).symm
  | comment | stray | delimiters =>
      rw [tag] at listed
      cases listed
  | value | inclusion | closing =>
      rw [tag] at listed
      obtain rfl := List.mem_singleton.mp listed
      cases opens

theorem section_lines_of_token (token : Token) :
    (token.tagMarks.filterMap Mark.sectionLine?).Pairwise (· ≤ ·) := by
  unfold Token.tagMarks
  cases token.tag with
  | opening => exact List.pairwise_singleton _ _
  | _ => exact .nil

end Places

theorem section_lines_of_parse {source : Text} {delimiters : Delimiters} {parsed : Parsed}
    (read : parse source delimiters = .ok parsed) :
    (Node.marksAll parsed.nodes).filterMap Mark.sectionLine? =
      (scan source delimiters).places.flatMap
        fun place => place.token.tagMarks.filterMap Mark.sectionLine? := by
  have tags := congrArg (List.filterMap Mark.sectionLine?) (parse_ok_tags read)
  have silent (mark : Mark) :
      (if (!mark.isText) = true then mark.sectionLine? else none) = mark.sectionLine? := by
    cases mark <;> rfl
  rw [List.filterMap_filter] at tags
  simp only [silent] at tags
  rw [tags, List.filterMap_flatMap, Scan.places]
  exact (flat_map_places (fun token => token.tagMarks.filterMap Mark.sectionLine?) 0 _).symm

/-- A tree that is read is in normal form. Its tags are those of the places in the source, one after
the other, and each place holds what is said of its tag. So the sections come in the order of their
lines, which are lines of the source. -/
theorem parsed_tree_is_normal {source : Text} {delimiters : Delimiters} {parsed : Parsed}
    (inline : '\n' ∉ delimiters.opening) (read : parse source delimiters = .ok parsed) :
    let places := (scan source delimiters).places
    let lines := (Node.marksAll parsed.nodes).filterMap Mark.sectionLine?
    Node.NormalForm parsed.nodes ∧
      (Node.marksAll parsed.nodes).filter (!·.isText) = places.flatMap (·.token.tagMarks) ∧
      (∀ place ∈ places, place.Located source) ∧
      lines.Pairwise (· ≤ ·) ∧ ∀ line ∈ lines, 1 ≤ line ∧ line ≤ 1 + source.newlines := by
  intro places lines
  have located : ∀ place ∈ places, place.Located source := places_located inline
  have opened : lines = _ := section_lines_of_parse read
  refine ⟨normal_form_of_parse read, ?_, located, ?_, ?_⟩
  · exact (parse_ok_tags read).trans (flat_map_places Token.tagMarks 0 _).symm
  · rw [opened, List.pairwise_flatMap]
    refine ⟨fun place _ => section_lines_of_token place.token, ?_⟩
    -- Sections have the lines of their places, and these stand in order.
    refine (places_ordered 0 _).imp_of_mem fun earlier later order _ opens _ opens_later => ?_
    rw [section_line_of_place (located _ earlier) opens,
      section_line_of_place (located _ later) opens_later]
    exact Int.ofNat_le.mpr (source.line_at_mono order)
  · intro line member
    rw [opened, List.mem_flatMap] at member
    obtain ⟨place, known, member⟩ := member
    rw [section_line_of_place (located place known) member]
    have last := source.line_at_le place.start
    have first : 1 ≤ source.lineAt place.start := Nat.le_add_right _ _
    omega

def nestedPage : Text := "{{#s}}\n \t{{> p}}{{^t}}{{/t}}{{/s}}".toList

theorem nested_page_is_normal :
    ∃ parsed, parse nestedPage .standard = .ok parsed ∧ Node.NormalForm parsed.nodes ∧
      (Node.marksAll parsed.nodes).filterMap Mark.sectionLine? = [1, 2] ∧
      ∃ place ∈ (scan nestedPage .standard).places, place.token.tag = .inclusion ['p'] ∧
        place.start = 9 ∧ nestedPage.lineBefore 9 = [' ', '\t'] := by
  have read : parse nestedPage .standard =
      .ok ⟨[.sectionTag ['s'] false 1 [.text [' ', '\t'], .partialTag ['p'] [' ', '\t'] true,
        .sectionTag ['t'] true 2 []]], .standard⟩ := by cbv
  have second : ((scan nestedPage .standard).places[1]?).map
      (fun place => (place.token.tag, place.start, place.token.padding)) =
        some (.inclusion ['p'], 9, [' ', '\t']) := by cbv
  obtain ⟨place, found, facts⟩ := Option.map_eq_some_iff.mp second
  simp only [Prod.mk.injEq] at facts
  obtain ⟨tag, start, padding⟩ := facts
  have member := List.mem_of_getElem? found
  obtain ⟨normal, -, located, -⟩ := parsed_tree_is_normal (by decide) read
  have behind := (located place member).padding (by rw [padding]; decide)
  rw [start, padding] at behind
  exact ⟨_, read, normal, rfl, place, member, tag, start, behind⟩

def splitPage : Text := "a{{x}}b".toList

theorem split_page_has_two_texts :
    ∃ parsed, parse splitPage .standard = .ok parsed ∧
      ¬ parsed.nodes.Pairwise fun left right => left.isTag = true ∨ right.isTag = true := by
  have read : parse splitPage .standard =
      .ok ⟨[.text ['a'], .variableTag ['x'] true, .text ['b']], .standard⟩ := by cbv
  exact ⟨_, read, by simp [Node.isTag, Node.tagType?]⟩

end Mustache
