import Mustache.Proofs.Replacement
import Mustache.Proofs.TagLines
import Mustache.Text.Indent

/-!
The line of a partial that stands alone. It is read as one token, after which a line
starts. A text put in its place adds its own nodes where the line adds the partial.
-/

namespace Mustache

section Texts

theorem indent_from_last (indent t : Text) (fresh : Bool) (last : t.getLast? = some '\n') :
    (Text.indentFrom indent fresh t).getLast? = some '\n' := by
  induction t generalizing fresh with
  | nil => cases last
  | cons c rest ih =>
      cases rest with
      | nil =>
          cases last
          rfl
      | cons next rest =>
          have later (fresh : Bool) := ih fresh (by simpa using last)
          unfold Text.indentFrom
          split
          · rw [List.getLast?_cons, later]
            rfl
          · split
            · rw [List.getLast?_append, List.getLast?_cons, later]
              rfl
            · rw [List.getLast?_cons, later]
              rfl

theorem indent_lines_ends (indent t : Text) (ends : t.EndsLine) :
    (Text.indentLines indent t).EndsLine := by
  rcases ends with rfl | last
  · exact Or.inl rfl
  · exact Or.inr (indent_from_last indent t true last)

end Texts

/-- The line of a partial that stands alone, as it is written with the delimiters `pair`. -/
structure PartialLine (pair : Delimiters) where
  pad : Text
  name : Text
  brk : Text
  opens : pair.opening ≠ []
  visible : ∀ c ∈ pair.opening ++ pair.closing, Text.isSpace c = false
  blank : ∀ c ∈ pad, Text.isPadding c = true
  trimmed : name.trim = name
  /-- The closing delimiter is not found within the name. -/
  closed : Text.upTo? pair.closing ('>' :: name ++ pair.closing) = some ('>' :: name)
  ended : brk = ['\n'] ∨ brk = ['\r', '\n']

namespace PartialLine
variable {pair : Delimiters} (line : PartialLine pair)

def source : Text :=
  line.pad ++ pair.opening ++ ('>' :: line.name) ++ pair.closing ++ line.brk

theorem inline (line : PartialLine pair) : pair.Inline where
  closes none := by
    have closed := line.closed
    rw [none] at closed
    simp [Text.upTo?] at closed
  opening member :=
    absurd (line.visible '\n' (List.mem_append_left _ member)) (by decide)
  closing last :=
    absurd (line.visible '\n' (List.mem_append_right _ (List.mem_of_getLast? last))) (by decide)

theorem trim_raw : Text.trim ('>' :: line.name) = '>' :: line.name :=
  trim_sigil '>' line.name (by decide) line.trimmed

def tagLine : TagLine pair where
  pad := line.pad
  sigil := '>'
  body := line.name
  trail := []
  brk := line.brk
  tag := .inclusion line.name
  opened := up_to_after_spaces _ _ line.opens
    (fun c member => line.visible c (List.mem_append_left _ member)) fun c member =>
    Text.is_space_of_padding c (line.blank c member)
  closed := line.closed
  alone := by decide
  classified := by
    rw [line.trim_raw]
    exact congrArg (fun name => Except.ok (Tag.inclusion name)) line.trimmed
  padded := line.blank
  trailing := padding_nil
  ended := line.ended

theorem tree_source (post : Text) (lines : Nat) (outer : Stack) :
    ((scan (line.source ++ post) pair).later lines).tree outer =
      ((scan post pair).later (Text.newlines line.source + lines)).tree
        ⟨outer.frames, .partialTag line.name line.pad true :: outer.before⟩ := by
  have stepped : outer.step (line.tagLine.token.later lines) =
      .ok ⟨outer.frames, .partialTag line.name line.pad true :: outer.before⟩ := rfl
  refine (line.tagLine.tree_line post lines outer).trans ?_
  rw [stepped]
  rfl

end PartialLine

theorem run_of_parse {text : Text} {pair : Delimiters} {inner : Parsed}
    (read : parse text pair = .ok inner) :
    ∃ ending, (scan text pair).ending = .ok ending ∧ ending.delimiters = inner.delimiters ∧
      ∀ lines (outer : Stack), ∃ after,
        outer.run ((scan text pair).later lines).tokens = .ok after ∧
        after.after ending.tail =
          ⟨outer.frames, Node.glue outer.before (Node.laterAll lines inner.nodes.reverse)⟩ := by
  rw [parse_eq_tree] at read
  obtain ⟨before, ending, ran, ended, rfl⟩ := tree_ok read
  refine ⟨ending, ended, rfl, fun lines outer => ?_⟩
  have later : (Stack.bottom.later lines).run ((scan text pair).later lines).tokens =
      .ok ⟨[], Node.laterAll lines before⟩ := by
    rw [Scan.later, Stack.run_later, ran]
    rfl
  have placed := Stack.run_onto outer _ (Stack.bottom.later lines) (.inr ⟨_, later⟩)
  rw [later] at placed
  refine ⟨_, placed, ?_⟩
  simp only [Stack.onto, Stack.layer, Stack.after, List.reverse_reverse, ← Node.push_text_later,
    Node.glue_push_text]

-- Both sources are read alike up to the line, and alike again after it; only the stacks
-- with which the rest is read differ, by the nodes that the line or the text has added.
theorem parse_included {alike : List Node → List Node → Prop} (congruence : Congruence alike)
    {pair : Delimiters} (line : PartialLine pair) (pre post text : Text) {ending : Ending}
    {inner : Parsed} (starts : pre.EndsLine) (outside : (scan pre pair).ending = .ok ending)
    (active : ending.delimiters = pair) (ends : text.EndsLine)
    (read : parse text pair = .ok inner) (kept : inner.delimiters = pair)
    (stands : ∀ base lines, alike (Node.glue base (Node.laterAll lines inner.nodes.reverse))
      (.partialTag line.name line.pad true :: base)) :
    SameOutcome (fun p p' : Parsed => alike p.nodes.reverse p'.nodes.reverse)
      (parse (pre ++ text ++ post) pair) (parse (pre ++ line.source ++ post) pair) := by
  obtain ⟨inner_ending, ended, inner_pair, added⟩ := run_of_parse read
  have inlined := tree_append pre (text ++ post) pair 0 ending line.inline starts outside .bottom
  have included := tree_append pre (line.source ++ post) pair 0 ending line.inline starts outside
    .bottom
  rw [Scan.later_zero, Scan.later_zero, active, Nat.zero_add] at inlined included
  rw [parse_eq_tree, parse_eq_tree, List.append_assoc, List.append_assoc, inlined, included]
  cases Stack.run (scan pre pair).tokens .bottom with
  | error error => exact rfl
  | ok after =>
      dsimp only [Except.bind]
      generalize after.after ending.tail = outer
      obtain ⟨top, ran, closed⟩ := added (Text.newlines pre) outer
      rw [tree_append text post pair (Text.newlines pre) inner_ending line.inline ends ended outer,
        ran, line.tree_source post]
      dsimp only [Except.bind]
      rw [closed, inner_pair, kept]
      refine tree_alike congruence (scan post pair) _ _ ⟨?_, stands outer.before _⟩
      exact List.forall₂_same.mpr fun frame _ => ⟨rfl, rfl, congruence.refl frame.before⟩

end Mustache
