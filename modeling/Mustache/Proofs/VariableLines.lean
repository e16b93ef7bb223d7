import Mathlib.Data.List.Basic
import Mustache.Proofs.Merging
import Mustache.Proofs.Reindentation

/-!
The line of a variable. Nothing around a variable is dropped: the padding before it and after it
and its line break stay in the text of the tree and are rendered. This is so because no character
that lets a tag stand alone begins a variable, but for one, the angle bracket, that begins no
other tag.
-/

namespace Mustache

/-! The marks around a tag. -/

section Marks

theorem join_texts_tag {mark : Mark} (tag : mark.isText = false) (before after : List Mark) :
    joinTexts (before ++ mark :: after) = joinTexts before ++ mark :: joinTexts after := by
  have alone : joinTexts (mark :: after) = mark :: joinTexts after := by
    cases mark with
    | text => cases tag
    | _ => rfl
  induction before with
  | nil => exact alone
  | cons first rest ih =>
      cases first with
      | text content =>
          rw [List.cons_append, joinTexts, joinTexts, ih]
          -- Whatever the text joins stands before the tag.
          cases joinTexts rest with
          | nil =>
              cases mark with
              | text => cases tag
              | _ => by_cases empty : content = [] <;> simp [empty]
          | cons next later =>
              cases next with
              | text more => rfl
              | _ => by_cases empty : content = [] <;> simp [empty]
      | _ => simp [joinTexts, ih]

theorem join_texts_last {content : Text} (some : content ≠ []) (before : List Mark) :
    ∃ front start, joinTexts (before ++ [.text content]) = front ++ [.text (start ++ content)] := by
  induction before with
  | nil => exact ⟨[], [], by simp [joinTexts, some]⟩
  | cons first rest ih =>
      -- The last text takes in what joins it from the front, so `start` may grow.
      obtain ⟨front, start, joined⟩ := ih
      cases first with
      | text before =>
          rw [List.cons_append, joinTexts, joined]
          cases front with
          | nil => exact ⟨[], before ++ start, by simp⟩
          | cons next front =>
              cases next with
              | text more => exact ⟨.text (before ++ more) :: front, start, rfl⟩
              | _ =>
                  by_cases empty : before = []
                  · exact ⟨_ :: front, start, by simp [empty]; rfl⟩
                  · exact ⟨.text before :: _ :: front, start, by simp [empty]; rfl⟩
      | _ => exact ⟨_ :: front, start, by simp [joinTexts, joined]; rfl⟩

theorem join_texts_first {content : Text} (some : content ≠ []) (after : List Mark) :
    ∃ rest back, joinTexts (.text content :: after) = .text (content ++ rest) :: back := by
  rw [joinTexts]
  split
  · next more later _ => exact ⟨more, later, rfl⟩
  · rw [if_neg some]
    exact ⟨[], _, by rw [List.append_nil]⟩

end Marks

/-! The place of a node in a tree. -/

namespace Node

/-- `node` stands between the siblings `front` and `back`, somewhere in a tree that has the marks
`before` and `after` around these siblings. -/
inductive Amid (front : List Node) (node : Node) (back : List Node) :
    List Node → List Mark → List Mark → Prop
  | here : Amid front node back (front ++ node :: back) [] []
  | inside (earlier later : List Node) {name : Text} {inverted : Bool} {line : Int}
      {children : List Node} {before after : List Mark} :
      Amid front node back children before after →
      Amid front node back (earlier ++ .sectionTag name inverted line children :: later)
        (marksAll earlier ++ .enter name inverted line :: before)
        (after ++ .leave name :: marksAll later)

section Amid
variable {front back tree : List Node} {node : Node} {before after : List Mark}

/-- Siblings go on as far as there is text. -/
theorem amid_apart (amid : Amid front node back tree before after) :
    (∀ mark ∈ before.getLast?, mark.isText = false) ∧
      ∀ mark ∈ after.head?, mark.isText = false := by
  induction amid with
  | here => exact ⟨nofun, nofun⟩
  | @inside _ _ _ _ _ _ before after _ ih =>
      constructor
      · intro mark last
        -- Without anything in front, the mark before is the start of the section.
        cases before with
        | nil =>
            simp at last
            rw [← last]
            rfl
        | cons first rest =>
            apply ih.1 mark
            simpa using last
      · intro mark first
        cases after with
        | nil =>
            cases first
            rfl
        | cons next rest => exact ih.2 mark first

theorem amid_cons (first : Node) (amid : Amid front node back tree before after) :
    (before = [] ∧ Amid (first :: front) node back (first :: tree) [] after) ∨
      Amid front node back (first :: tree) (first.marks ++ before) after := by
  cases amid with
  | here => exact .inl ⟨rfl, .here⟩
  | @inside earlier later name inverted line _ _ _ amid =>
      right
      have whole : Amid front node back
          ((first :: earlier) ++ .sectionTag name inverted line _ :: later) _ _ :=
        .inside (first :: earlier) later amid
      simpa [marksAll] using whole

end Amid

theorem section_marks_inside {name name' : Text} {escape inverted : Bool} {line : Int}
    {children : List Node} {before after : List Mark}
    (here : (sectionTag name' inverted line children).marks =
      before ++ .variableTag name escape :: after) :
    ∃ start last, before = .enter name' inverted line :: start ∧ after = last ++ [.leave name'] ∧
      marksAll children = start ++ .variableTag name escape :: last := by
  cases before with
  | nil => cases here
  | cons mark start =>
      injection here with same whole
      have whole : marksAll children ++ [.leave name'] =
          start ++ .variableTag name escape :: after := whole
      rcases List.eq_nil_or_concat' after with rfl | ⟨last, final, rfl⟩
      · cases (List.append_inj' whole rfl).2
      · rw [← List.cons_append, ← List.append_assoc] at whole
        obtain ⟨inside, ended⟩ := List.append_inj' whole rfl
        exact ⟨start, last, by rw [same], by rw [ended], inside⟩

theorem split_of_append {α : Type} {first second before after : List α} {here : α}
    (whole : first ++ second = before ++ here :: after) :
    (∃ inner, first = before ++ here :: inner ∧ after = inner ++ second) ∨
      ∃ inner, before = first ++ inner ∧ second = inner ++ here :: after := by
  rcases List.append_eq_append_iff.mp whole with ⟨inner, rfl, later⟩ | ⟨inner, rfl, later⟩
  · exact .inr ⟨inner, rfl, later⟩
  · cases inner with
    | nil => exact .inr ⟨[], by simp, later.symm⟩
    | cons mark inner =>
        cases later
        exact .inl ⟨inner, rfl, rfl⟩

/-- A variable among the marks of a tree is a node amid its siblings. -/
theorem amid_of_marks {name : Text} {escape : Bool} (tree : List Node) (before after : List Mark)
    (split : marksAll tree = before ++ .variableTag name escape :: after) :
    ∃ front back outer outer', Amid front (.variableTag name escape) back tree outer outer' ∧
      before = outer ++ marksAll front ∧ after = marksAll back ++ outer' := by
  match tree with
  | [] => simp [marksAll] at split
  | first :: rest =>
      rw [marksAll] at split
      -- The mark is one of the first node or one behind it.
      rcases split_of_append split with ⟨inner, here, rfl⟩ | ⟨inner, rfl, later⟩
      · cases first with
        | variableTag =>
            cases before with
            | nil =>
                cases here
                exact ⟨[], rest, [], [], .here, rfl, (List.append_nil _).symm⟩
            | cons => simp [marks] at here
        | sectionTag name' inverted line children =>
            obtain ⟨start, last, rfl, rfl, inside⟩ := section_marks_inside here
            obtain ⟨front, back, outer, outer', amid, rfl, rfl⟩ :=
              amid_of_marks children start last inside
            exact ⟨front, back, _, _, .inside [] rest amid, by simp [marksAll], by simp⟩
        | _ =>
            cases before with
            | nil => cases here
            | cons => simp [marks] at here
      · obtain ⟨front, back, outer, outer', amid, rfl, rfl⟩ := amid_of_marks rest inner after later
        rcases amid_cons first amid with ⟨rfl, wider⟩ | wider
        · exact ⟨first :: front, back, [], outer', wider, rfl, rfl⟩
        · exact ⟨front, back, _, outer', wider, (List.append_assoc _ _ _).symm, rfl⟩
termination_by sizeOf tree

def ofText (content : Text) : List Node := if content = [] then [] else [.text content]

/-- Siblings that end with a text leave it last. -/
theorem siblings_end {siblings : List Node} {start : List Mark} {content : Text}
    (whole : marksAll siblings = start ++ [.text content]) :
    ∃ front, siblings = front ++ [.text content] := by
  rcases List.eq_nil_or_concat' siblings with rfl | ⟨front, last, rfl⟩
  · simp [marksAll] at whole
  · rw [marks_all_append, marksAll, marksAll, List.append_nil] at whole
    cases last with
    | text =>
        cases (List.append_inj' whole rfl).2
        exact ⟨front, rfl⟩
    | sectionTag =>
        rw [marks, ← List.cons_append, ← List.append_assoc] at whole
        cases (List.append_inj' whole rfl).2
    | _ => cases (List.append_inj' whole rfl).2

theorem siblings_begin {siblings : List Node} {rest : List Mark} {content : Text}
    (whole : marksAll siblings = .text content :: rest) :
    ∃ back, siblings = .text content :: back := by
  cases siblings with
  | nil => cases whole
  | cons first back =>
      cases first with
      | text =>
          cases whole
          exact ⟨back, rfl⟩
      | _ => cases whole

theorem marks_of_text (content : Text) :
    marksAll (ofText content) = if content = [] then [] else [.text content] := by
  rw [ofText]
  split <;> rfl

theorem siblings_end_of {siblings : List Node} {outer start : List Mark} {content : Text}
    (apart : ∀ mark ∈ outer.getLast?, mark.isText = false)
    (whole : outer ++ marksAll siblings = start ++ marksAll (ofText content)) :
    ∃ front, siblings = front ++ ofText content := by
  rw [marks_of_text] at whole
  unfold ofText
  by_cases empty : content = []
  · rw [if_pos empty]
    exact ⟨siblings, (List.append_nil _).symm⟩
  · rw [if_neg empty] at whole ⊢
    rcases List.eq_nil_or_concat' (marksAll siblings) with none | ⟨inner, last, split⟩
    · rw [none, List.append_nil] at whole
      cases apart (.text content) (by rw [whole]; simp)
    · rw [split, ← List.append_assoc] at whole
      cases (List.append_inj' whole rfl).2
      obtain ⟨front, rfl⟩ := siblings_end split
      exact ⟨front, rfl⟩

theorem siblings_begin_of {siblings : List Node} {outer rest : List Mark} {content : Text}
    (apart : ∀ mark ∈ outer.head?, mark.isText = false)
    (whole : marksAll siblings ++ outer = marksAll (ofText content) ++ rest) :
    ∃ back, siblings = ofText content ++ back := by
  rw [marks_of_text] at whole
  unfold ofText
  by_cases empty : content = []
  · rw [if_pos empty]
    exact ⟨siblings, rfl⟩
  · rw [if_neg empty] at whole ⊢
    cases split : marksAll siblings with
    | nil =>
        rw [split, List.nil_append] at whole
        cases apart (.text content) (by rw [whole]; rfl)
    | cons first inner =>
        rw [split] at whole
        cases whole
        exact siblings_begin split

end Node

/-! The tags of a scan and the text between them. -/

section Tags
variable {c : Cursor} {earlier later : List Token} {token : Token}

theorem value_sigil {sigil : Char} {rest name : Text} {escape : Bool}
    (value : Tag.ofBody (sigil :: rest) = .ok (.value name escape))
    (among : sigil ∈ standaloneSigils) : sigil = '<' := by
  have cases_of : sigil = '#' ∨ sigil = '^' ∨ sigil = '/' ∨ sigil = '<' ∨ sigil = '>' ∨
      sigil = '=' ∨ sigil = '!' := by
    simpa [standaloneSigils] using among
  rcases cases_of with rfl | rfl | rfl | rfl | rfl | rfl | rfl
  case inr.inr.inr.inl => rfl
  case inr.inr.inr.inr.inr.inl =>
    rw [Tag.ofBody] at value
    split at value <;> cases value
  all_goals cases value

theorem value_not_standalone {next : Cursor} {name : Text} {escape : Bool}
    (reads : Cursor.Reads c token next) (value : token.tag = .value name escape)
    (regular : token.raw.trim.head? ≠ some '<') : token.standalone = false := by
  rw [Bool.eq_false_iff]
  intro solo
  obtain ⟨-, sigil, -⟩ := Cursor.of_standalone reads solo
  have tag := reads.tag
  rw [value] at tag
  cases body : token.raw.trim with
  | nil => exact reads.visible body
  | cons first rest =>
      rw [body] at tag sigil regular
      exact regular (congrArg some (value_sigil tag (by simpa using sigil)))

def Token.gapBefore (earlier : List Token) (token : Token) : Text :=
  (earlier.getLast?.map Token.trail).getD [] ++ (token.text ++ token.padding)

def Token.gapBehind (tail : Text) (token : Token) : List Token → Text
  | [] => token.trail ++ tail
  | next :: _ => token.trail ++ (next.text ++ next.padding)

/-- Text on the line of a tag, right before the tag and right behind it, up to and with the line
break, as far as no other tag stands there. -/
structure OnLine (earlier later : List Token) (tail : Text) (token : Token) (pad trail : Text) :
    Prop where
  before : pad <:+ token.gapBefore earlier
  unbroken : '\n' ∉ pad
  behind : trail <+: token.gapBehind tail later
  whole : '\n' ∉ trail.dropLast
  /-- Nothing stands on the line behind a tag that breaks it. -/
  goesOn : token.tagText.getLast? = some '\n' → trail = []

theorem suffix_inline {pad lines chunk : Text} (unbroken : '\n' ∉ pad) (ends : lines.EndsLine)
    (inside : pad <:+ lines ++ chunk) : pad <:+ chunk := by
  obtain ⟨front, split⟩ := inside
  rcases List.append_eq_append_iff.mp split with ⟨more, rfl, rfl⟩ | ⟨more, rfl, rfl⟩
  · rcases Text.ends_line_append front more ends with rfl | last
    · exact List.suffix_refl _
    · exact absurd (List.mem_append_left _ (List.mem_of_getLast? last)) unbroken
  · exact List.suffix_append _ _

theorem prefix_inline {trail line rest : Text} (whole : '\n' ∉ trail.dropLast)
    (last : line.getLast? = some '\n') (inside : trail <+: line ++ rest) : trail <+: line := by
  obtain ⟨front, split⟩ := inside
  rcases List.append_eq_append_iff.mp split with ⟨more, rfl, -⟩ | ⟨more, rfl, -⟩
  · exact List.prefix_append _ _
  · cases more with
    | nil => simp
    | cons first more =>
        rw [List.dropLast_append_cons] at whole
        exact absurd (List.mem_append_left _ (List.mem_of_getLast? last)) whole

theorem trail_ends_line {next : Cursor} (reads : Cursor.Reads c token next)
    (goes_on : next.rest ≠ []) : token.trail.EndsLine := by
  cases solo : token.standalone with
  | false => exact .inl (reads.noTrail solo)
  | true => exact .inr ((solo_trail_cases reads solo).2.resolve_left goes_on)

theorem pad_kept {pad : Text} (tokens : c.scan.tokens = earlier ++ token :: later)
    (unbroken : '\n' ∉ pad) (before : pad <:+ token.gapBefore earlier) :
    pad <:+ token.text ++ token.padding := by
  rcases List.eq_nil_or_concat' earlier with rfl | ⟨front, last, rfl⟩
  · simpa [Token.gapBefore] using before
  · rw [List.append_assoc] at tokens
    obtain ⟨here, after, reads, behind⟩ := Cursor.reads_amid tokens
    have remaining : after.scan.tokens = token :: later := by
      rw [behind]
      rfl
    obtain ⟨next, follows, -⟩ := Cursor.reads_first remaining
    have goes_on : after.rest ≠ [] := by
      rw [follows.rest, Token.source]
      simp [Cursor.raw_nonempty follows]
    -- What the tag before took with it ends a line, so none of it is on this one.
    have ends := trail_ends_line reads goes_on
    exact suffix_inline unbroken ends (by simpa [Token.gapBefore] using before)

section Behind
variable {here after beyond : Cursor} {following : Token}

theorem text_of_standalone (reads : Cursor.Reads here token after)
    (inline : token.standalone = false) (unended : token.tagText.getLast? ≠ some '\n')
    (follows : Cursor.Reads after following beyond) (solo : following.standalone = true) :
    following.text.getLast? = some '\n' := by
  have ends : Text.EndsLine (after.before.reverse ++ following.text) := by
    rw [Text.ends_line_iff, List.reverse_append, List.reverse_reverse]
    exact text_ends_line follows (Cursor.of_standalone follows solo).1
  rcases Text.ends_line_append _ _ ends with empty | last
  · have behind : after.before.reverse =
        here.before.reverse ++ (token.text ++ token.padding) ++ token.tagText := by
      simp [reads.before, Token.source, Token.tagText, reads.noTrail inline]
    rw [empty, List.append_nil, behind] at ends
    rcases Text.ends_line_append _ _ ends with none | last
    · simp [Token.tagText, Cursor.raw_nonempty reads] at none
    · exact absurd last unended
  · exact last

theorem trail_kept {trail : Text} (reads : Cursor.Reads here token after)
    (inline : token.standalone = false) (unended : token.tagText.getLast? ≠ some '\n')
    (follows : Cursor.Reads after following beyond) (whole : '\n' ∉ trail.dropLast)
    (inside : trail <+: following.text ++ following.padding) : trail <+: following.kept := by
  unfold Token.kept
  cases solo : following.standalone with
  | false => simpa using inside
  | true =>
      -- Its padding begins another line, and the text before that ends this one.
      have last := text_of_standalone reads inline unended follows solo
      simpa using prefix_inline whole last inside

end Behind
end Tags

/-! A variable in its tree. -/

section Trees

open Node (ofText marksAll)

theorem join_texts_end (before : List Mark) (rest pad : Text) :
    ∃ start x, joinTexts (before ++ [.text (rest ++ pad)]) =
      start ++ marksAll (ofText (x ++ pad)) := by
  by_cases empty : pad = []
  · exact ⟨_, [], by rw [empty]; exact (List.append_nil _).symm⟩
  · have visible : rest ++ pad ≠ [] := List.append_ne_nil_of_right_ne_nil rest empty
    obtain ⟨start, x, joined⟩ := join_texts_last visible before
    refine ⟨start, x ++ rest, ?_⟩
    rw [joined, Node.marks_of_text, if_neg (by simp [empty]), List.append_assoc]

theorem join_texts_begin (trail rest : Text) (after : List Mark) :
    ∃ y back, joinTexts (.text (trail ++ rest) :: after) =
      marksAll (ofText (trail ++ y)) ++ back := by
  by_cases empty : trail = []
  · exact ⟨[], _, by rw [empty]; rfl⟩
  · have visible : trail ++ rest ≠ [] := List.append_ne_nil_of_left_ne_nil empty rest
    obtain ⟨y, back, joined⟩ := join_texts_first visible after
    refine ⟨rest ++ y, back, ?_⟩
    rw [joined, Node.marks_of_text, if_neg (by simp [empty]), List.append_assoc]
    rfl

theorem behind_joined {c after : Cursor} {later : List Token} {token : Token} {ending : Ending}
    {trail : Text} (reads : Cursor.Reads c token after)
    (behind : after.scan = ⟨later, .ok ending⟩) (inline : token.standalone = false)
    (goes_on : token.tagText.getLast? = some '\n' → trail = []) (whole : '\n' ∉ trail.dropLast)
    (inside : trail <+: token.gapBehind ending.tail later) :
    ∃ rest marks, joinTexts (later.flatMap Token.marks ++ [.text ending.tail]) =
      joinTexts (.text (trail ++ rest) :: marks) := by
  by_cases empty : trail = []
  · exact ⟨[], _, by rw [empty]; exact (join_texts_empty _).symm⟩
  cases later with
  | nil =>
      rw [Token.gapBehind, reads.noTrail inline] at inside
      obtain ⟨rest, tail⟩ := inside
      exact ⟨rest, [], by rw [tail]; rfl⟩
  | cons following later =>
      rw [Token.gapBehind, reads.noTrail inline] at inside
      have remaining : after.scan.tokens = following :: later := by rw [behind]
      obtain ⟨beyond, follows, -⟩ := Cursor.reads_first remaining
      have unended : token.tagText.getLast? ≠ some '\n' := fun ends => empty (goes_on ends)
      obtain ⟨rest, kept⟩ := trail_kept reads inline unended follows whole inside
      refine ⟨rest, following.tagMarks ++ (later.flatMap Token.marks ++ [.text ending.tail]), ?_⟩
      rw [kept, Token.kept, ← join_texts_text]
      simp [Token.marks]

theorem marks_around {earlier later : List Token} {token : Token} {name tail : Text}
    {escape : Bool} (value : token.tag = .value name escape) (inline : token.standalone = false) :
    joinTexts ((earlier ++ token :: later).flatMap Token.marks ++ [.text tail]) =
      joinTexts (earlier.flatMap Token.marks ++ [.text (token.text ++ token.padding)]) ++
        .variableTag name escape :: joinTexts (later.flatMap Token.marks ++ [.text tail]) := by
  have marks : token.marks =
      [.text token.text, .text token.padding, .variableTag name escape] := by
    rw [Token.marks, Token.tagMarks, value, inline]
    rfl
  have joined := join_texts_append (earlier.flatMap Token.marks) _ _
    (join_texts_text token.text token.padding [])
  rw [← joined, ← join_texts_tag rfl]
  simp [marks]

open Render

variable (settings : Settings)

theorem strict_of_text (expand : Expand) (first second : Text) (chain : Chain) :
    Sim .strict (nodes settings expand (ofText (first ++ second)) chain)
      (write first >>= fun _ => write second) := by
  refine sim_strict_lead ?_ (strict_write first second)
  unfold ofText
  split
  · next empty =>
      rw [empty]
      exact strict_write_nil
  · have alone : nodes settings expand [.text (first ++ second)] chain = write (first ++ second) :=
      bind_pure (write (first ++ second))
    rw [alone]
    exact sim_write _

/-- A variable is rendered between the texts beside it. -/
theorem strict_around {expand : Expand} (blind : SimExpand .strict expand expand)
    (front back : List Node) (x pad name trail y : Text) (escape : Bool) (chain : Chain) :
    Sim .strict
      (nodes settings expand (front ++ ofText (x ++ pad) ++
        .variableTag name escape :: (ofText (trail ++ y) ++ back)) chain)
      (do
        nodes settings expand front chain
        write x
        write pad
        variableTag settings name escape chain
        write trail
        write y
        nodes settings expand back chain) := by
  have rest (siblings : List Node) := sim_nodes settings blind siblings chain
  rw [nodes_append, nodes_append, bind_assoc, nodes, nodes_append]
  refine sim_bind (rest front) fun _ => ?_
  have behind := sim_bind (strict_of_text settings expand trail y chain) fun _ => rest back
  have around := sim_bind (strict_of_text settings expand x pad chain) fun _ =>
    sim_bind (sim_variable settings name escape chain) fun _ => behind
  simp only [bind_assoc] at around
  exact around

end Trees

/-- What stands on the line of a variable, before it and behind it, stays in the tree beside the
variable and is rendered with it. The variable may be escaped or not and have any name; only the
angle bracket may not begin its tag. -/
theorem variables_keep_their_line {source : Text} {delimiters : Delimiters} {parsed : Parsed}
    {earlier later : List Token} {token : Token} {name : Text} {escape : Bool}
    (read : parse source delimiters = .ok parsed)
    (tokens : (scan source delimiters).tokens = earlier ++ token :: later)
    (value : token.tag = .value name escape) (regular : token.raw.trim.head? ≠ some '<') :
    ∃ ending, (scan source delimiters).ending = .ok ending ∧
      source = earlier.flatMap Token.source ++ token.source ++ later.flatMap Token.source ++
        ending.tail ∧
      token.standalone = false ∧
      ∀ pad trail, OnLine earlier later ending.tail token pad trail →
        ∃ front x y back outer outer',
          Node.Amid (front ++ Node.ofText (x ++ pad)) (.variableTag name escape)
            (Node.ofText (trail ++ y) ++ back) parsed.nodes outer outer' ∧
          outer ++ Node.marksAll (front ++ Node.ofText (x ++ pad)) =
            joinTexts (earlier.flatMap Token.marks ++ [.text (token.text ++ token.padding)]) ∧
          ∀ (settings : Settings) (depth : Nat) (chain : Chain),
            let expand := Render.expandPartial settings depth
            Sim .strict
              (Render.nodes settings expand (front ++ Node.ofText (x ++ pad) ++
                .variableTag name escape :: (Node.ofText (trail ++ y) ++ back)) chain)
              (do
                Render.nodes settings expand front chain
                Render.write x
                Render.write pad
                Render.variableTag settings name escape chain
                Render.write trail
                Render.write y
                Render.nodes settings expand back chain) := by
  obtain ⟨ending, ended, marks, -⟩ := parse_ok_marks read
  obtain ⟨here, after, reads, behind⟩ := Cursor.reads_amid tokens
  have inline := value_not_standalone reads value regular
  change after.scan = ⟨later, (scan source delimiters).ending⟩ at behind
  rw [ended] at behind
  refine ⟨ending, ended, ?_, inline, fun pad trail line => ?_⟩
  · have whole := Cursor.source_of_scan ended
    change source = (scan source delimiters).tokens.flatMap Token.source ++ ending.tail at whole
    rw [tokens] at whole
    simpa using whole
  · obtain ⟨rest, before⟩ := pad_kept tokens line.unbroken line.before
    obtain ⟨rest', later', joined⟩ :=
      behind_joined reads behind inline line.goesOn line.whole line.behind
    rw [tokens, marks_around value inline, joined] at marks
    obtain ⟨start, x, start_eq⟩ := join_texts_end (earlier.flatMap Token.marks) rest pad
    obtain ⟨y, last, last_eq⟩ := join_texts_begin trail rest' later'
    rw [before] at start_eq
    obtain ⟨front, back, outer, outer', amid, marks_before, marks_behind⟩ :=
      Node.amid_of_marks parsed.nodes _ _ marks
    -- The marks around the siblings are no texts, so the texts beside the variable are siblings.
    obtain ⟨apart, apart'⟩ := Node.amid_apart amid
    obtain ⟨front, rfl⟩ := Node.siblings_end_of apart (marks_before.symm.trans start_eq)
    obtain ⟨back, rfl⟩ := Node.siblings_begin_of apart' (marks_behind.symm.trans last_eq)
    refine ⟨front, x, y, back, outer, outer', amid, marks_before.symm, ?_⟩
    intro settings depth chain
    exact strict_around settings (sim_expand settings depth depth le_rfl (absurd · (lt_irrefl _)))
      front back x pad name trail y escape chain

def valuePage : Text := "a\n  {{x}} \nb".toList

def valueToken : Token where
  text := ['a', '\n']
  padding := [' ', ' ']
  lineStart := true
  raw := ['x']
  trail := []
  standalone := false
  delimiters := .standard
  line := 2
  endLine := 2
  tag := .value ['x'] true

theorem value_page_keeps_its_line :
    ∃ parsed front x y back outer outer',
      parse valuePage .standard = .ok parsed ∧
      (scan valuePage .standard).tokens = [valueToken] ∧
      valueToken.tag = .value ['x'] true ∧ valueToken.raw.trim.head? ≠ some '<' ∧
      OnLine [] [] [' ', '\n', 'b'] valueToken [' ', ' '] [' ', '\n'] ∧
      Node.Amid (front ++ Node.ofText (x ++ [' ', ' '])) (.variableTag ['x'] true)
        (Node.ofText ([' ', '\n'] ++ y) ++ back) parsed.nodes outer outer' := by
  have read : parse valuePage .standard =
      .ok ⟨[.text "a\n  ".toList, .variableTag ['x'] true, .text " \nb".toList], .standard⟩ := by
    cbv
  have scanned : scan valuePage .standard =
      ⟨[valueToken], .ok ⟨[' ', '\n', 'b'], 2, .standard⟩⟩ := by cbv
  have tokens : (scan valuePage .standard).tokens = [] ++ valueToken :: [] := by
    rw [scanned]
    rfl
  have line : OnLine [] [] [' ', '\n', 'b'] valueToken [' ', ' '] [' ', '\n'] :=
    ⟨⟨['a', '\n'], rfl⟩, by decide, ⟨['b'], rfl⟩, by decide, by decide⟩
  obtain ⟨ending, ended, -, -, kept⟩ :=
    variables_keep_their_line read tokens rfl (by decide)
  rw [scanned] at ended
  cases ended
  obtain ⟨front, x, y, back, outer, outer', amid, -⟩ := kept _ _ line
  exact ⟨_, front, x, y, back, outer, outer', read, tokens, rfl, by decide, line, amid⟩

def bracketPage : Text := "  \x7b\x7b<a\x7d\x7d\n".toList

/-- It loses its padding and its line break. -/
theorem bracketed_variable_takes_its_line :
    ∃ token : Token, (scan bracketPage .standard).tokens = [token] ∧
      token.tag = .value ['<', 'a'] true ∧ token.padding = [' ', ' '] ∧ token.trail = ['\n'] ∧
      (parse bracketPage .standard).map (·.nodes) = .ok [.variableTag ['<', 'a'] true] := by
  refine ⟨⟨[], [' ', ' '], true, ['<', 'a'], ['\n'], true, .standard, 1, 2,
    .value ['<', 'a'] true⟩, ?_, rfl, rfl, rfl, ?_⟩
  · cbv
  · cbv

end Mustache
