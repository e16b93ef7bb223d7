import Mustache.Proofs.Relining

/-!
The tree of a text that goes on. What is read after the end of a line is read as if it
stood alone. Its tree follows the tree of the text before it: the lines of its sections
are counted on, and where a text meets a text they become one.
-/

namespace Mustache
namespace Node

mutual
def later (lines : Nat) : Node → Node
  | .sectionTag name inverted line children =>
      .sectionTag name inverted (line + lines) (laterAll lines children)
  | .text content => .text content
  | .variableTag name escape => .variableTag name escape
  | .partialTag name indent linked => .partialTag name indent linked
  | .unknownTag name => .unknownTag name
  | .unknown => .unknown

def laterAll (lines : Nat) : List Node → List Node
  | [] => []
  | node :: rest => node.later lines :: laterAll lines rest
end

/-- Siblings followed by others. Where a text meets a text they become one. -/
def joinSiblings (earlier later : List Node) : List Node :=
  match earlier.getLast?, later with
  | some (.text before), .text after :: rest => earlier.dropLast ++ .text (before ++ after) :: rest
  | _, _ => earlier ++ later

mutual
theorem later_eq (lines : Nat) (node : Node) : node.later lines = node.relined (.shift lines) := by
  match node with
  | .sectionTag _ _ _ children => rw [later, relined, later_all_eq lines children]; rfl
  | .text _ | .variableTag _ _ | .partialTag _ _ _ | .unknownTag _ | .unknown => rfl

theorem later_all_eq (lines : Nat) (nodes : List Node) :
    laterAll lines nodes = relinedAll (.shift lines) nodes := by
  match nodes with
  | [] => rfl
  | node :: rest => rw [laterAll, relinedAll, later_eq lines node, later_all_eq lines rest]
end

theorem later_all_reverse (lines : Nat) (nodes : List Node) :
    (laterAll lines nodes).reverse = laterAll lines nodes.reverse := by
  simp only [later_all_eq, relined_all_reverse]

theorem push_text_later (lines : Nat) (content : Text) (before : List Node) :
    pushText content (laterAll lines before) = laterAll lines (pushText content before) := by
  simp only [later_all_eq, push_text_relined]

@[simp] theorem push_text_nil (before : List Node) : pushText [] before = before := if_pos rfl

theorem push_text_append (earlier content : Text) (before : List Node) :
    pushText (earlier ++ content) before = pushText content (pushText earlier before) := by
  by_cases none : earlier = []
  · simp [none]
  · by_cases empty : content = []
    · simp [empty]
    · cases before with
      | nil => simp [pushText, none, empty]
      | cons node rest => cases node <;> simp [pushText, none, empty]

def glue (outer : List Node) : List Node → List Node
  | [] => outer
  | [.text content] =>
      match outer with
      | .text before :: rest => .text (before ++ content) :: rest
      | _ => .text content :: outer
  | node :: rest => node :: glue outer rest

theorem glue_cons (outer : List Node) (node : Node) (rest : List Node)
    (apart : rest = [] → ∀ content, node ≠ .text content) :
    glue outer (node :: rest) = node :: glue outer rest := by
  cases node with
  | text content =>
      cases rest with
      | nil => exact absurd rfl (apart rfl content)
      | cons next rest => rfl
  | _ => rfl

theorem glue_push_text (outer : List Node) (content : Text) (before : List Node) :
    glue outer (pushText content before) = pushText content (glue outer before) := by
  by_cases empty : content = []
  · simp [empty]
  · match before with
    | [] => cases outer with
        | nil => simp [pushText, glue, empty]
        | cons node rest => cases node <;> simp [pushText, glue, empty]
    | [.text previous] => cases outer with
        | nil => simp [pushText, glue, empty]
        | cons node rest => cases node <;> simp [pushText, glue, empty]
    | .text previous :: next :: rest => simp [pushText, glue, empty]
    | .variableTag _ _ :: rest | .sectionTag _ _ _ _ :: rest | .partialTag _ _ _ :: rest
    | .unknownTag _ :: rest | .unknown :: rest =>
        simp [pushText, glue, empty]

theorem join_snoc (earlier later : List Node) (node : Node) (nonempty : later ≠ []) :
    joinSiblings earlier (later ++ [node]) = joinSiblings earlier later ++ [node] := by
  obtain ⟨first, rest, rfl⟩ := List.exists_cons_of_ne_nil nonempty
  unfold joinSiblings
  cases earlier.getLast? with
  | none => simp
  | some last => cases last <;> cases first <;> simp

theorem join_apart (earlier later : List Node)
    (apart : ∀ before after, earlier.getLast? = some (.text before) →
      later.head? ≠ some (.text after)) :
    joinSiblings earlier later = earlier ++ later := by
  unfold joinSiblings
  split
  · next before after rest last => exact absurd rfl (apart before after last)
  · rfl

theorem glue_reverse (outer before : List Node) :
    (glue outer before).reverse = joinSiblings outer.reverse before.reverse := by
  induction before with
  | nil => rw [List.reverse_nil, join_apart _ _ (by simp), List.append_nil, glue]
  | cons node rest ih =>
      cases rest with
      | cons next rest =>
          rw [glue_cons _ _ _ (by simp), List.reverse_cons, ih, List.reverse_cons (a := node),
            join_snoc _ _ _ (by simp)]
      | nil =>
          cases node with
          | text content =>
              cases outer with
              | nil => rfl
              | cons last outer => cases last <;> simp [glue, joinSiblings]
          | _ => rw [glue_cons _ _ _ (by simp), join_apart _ _ (by simp), List.reverse_cons]; rfl

end Node

def Parsed.later (lines : Nat) (parsed : Parsed) : Parsed :=
  ⟨Node.laterAll lines parsed.nodes, parsed.delimiters⟩

def Parsed.following (earlier : List Node) (parsed : Parsed) : Parsed :=
  ⟨Node.joinSiblings earlier parsed.nodes, parsed.delimiters⟩

namespace Stack

def after (tail : Text) (stack : Stack) : Stack :=
  ⟨stack.frames, Node.pushText tail stack.before⟩

def later (lines : Nat) (stack : Stack) : Stack :=
  ⟨stack.frames.map fun frame =>
      ⟨⟨frame.opened.name, frame.opened.line + lines⟩, frame.inverted,
        Node.laterAll lines frame.before⟩,
    Node.laterAll lines stack.before⟩

/-- A stack built on top of another: its outermost siblings follow the innermost ones
of `outer`. -/
def layer (outer : Stack) : List Frame → List Node → Stack
  | [], before => ⟨outer.frames, Node.glue outer.before before⟩
  | frame :: rest, before =>
      let below := layer outer rest frame.before
      ⟨⟨frame.opened, frame.inverted, below.before⟩ :: below.frames, before⟩

def onto (outer stack : Stack) : Stack := layer outer stack.frames stack.before

theorem step_behind (tail : Text) (token : Token) (stack : Stack) :
    stack.step (token.behind tail) = (stack.after tail).step token := by
  have spaced : (token.behind tail).withText stack.before =
      token.withText (Node.pushText tail stack.before) := by
    simp only [Token.withText, Token.behind, Node.push_text_append]
  rw [step, step, spaced]
  rfl

theorem later_eq (lines : Nat) (stack : Stack) :
    stack.later lines = stack.relined (.shift lines) := by
  simp only [later, relined, Node.later_all_eq]
  rfl

theorem layer_push_text (outer : Stack) (frames : List Frame) (before : List Node)
    (content : Text) :
    layer outer frames (Node.pushText content before) = (layer outer frames before).after content := by
  cases frames with
  | nil => simp only [layer, after, Node.glue_push_text]
  | cons frame rest => rfl

theorem layer_cons (outer : Stack) (frames : List Frame) (before : List Node) (node : Node)
    (apart : ∀ content, node ≠ .text content) :
    layer outer frames (node :: before) =
      ⟨(layer outer frames before).frames, node :: (layer outer frames before).before⟩ := by
  cases frames with
  | nil => simp only [layer, Node.glue_cons _ _ _ (fun _ => apart)]
  | cons frame rest => rfl

theorem layer_with_text (outer : Stack) (frames : List Frame) (before : List Node)
    (token : Token) :
    layer outer frames (token.withText before) =
      ⟨(layer outer frames before).frames,
        token.withText (layer outer frames before).before⟩ := by
  simp only [Token.withText]
  split <;> simp only [layer_push_text, after]

theorem step_onto (outer : Stack) (token : Token) (stack : Stack)
    (within : outer.frames = [] ∨ ∃ after, stack.step token = .ok after) :
    (outer.onto stack).step token = (stack.step token).map outer.onto := by
  obtain ⟨frames, before⟩ := stack
  rw [step] at within
  rw [step, step]
  cases tag : token.tag with
  | comment | stray | delimiters => simp [onto, layer_with_text, Except.map]
  | value | inclusion => simp [onto, layer_with_text, layer_cons, Except.map]
  | opening inverted name => simp [onto, layer, layer_with_text, Except.map]
  | closing name =>
      cases frames with
      | nil =>
          rcases within with none | ⟨after, stepped⟩
          · simp [onto, layer, none, Except.map]
          · rw [tag] at stepped
            cases stepped
      | cons frame rest =>
          by_cases fits : name = frame.opened.name
          · simp [onto, layer, layer_cons, fits, Frame.close, Except.map]
          · simp [onto, layer, fits, Except.map]

theorem run_later (lines : Nat) (tokens : List Token) (stack : Stack) :
    (stack.later lines).run (tokens.map (·.later lines)) =
      outcomeLater lines (later lines) (stack.run tokens) := by
  rw [later_eq]
  refine (run_relined (.shift lines) tokens stack).trans ?_
  cases stack.run tokens with
  | error error => rfl
  | ok after => exact congrArg Except.ok (later_eq lines after).symm

theorem run_onto (outer : Stack) (tokens : List Token) (stack : Stack)
    (within : outer.frames = [] ∨ ∃ after, stack.run tokens = .ok after) :
    (outer.onto stack).run tokens = (stack.run tokens).map outer.onto := by
  induction tokens generalizing stack with
  | nil => rfl
  | cons token rest ih =>
      rw [run] at within
      -- Either there is nothing below the stack to close, or the run goes well and never looks
      -- there.
      have first : outer.frames = [] ∨ ∃ after, stack.step token = .ok after := by
        rcases within with bottom | ⟨after, ran⟩
        · exact Or.inl bottom
        · cases stepped : stack.step token with
          | error error => simp [stepped, Except.bind] at ran
          | ok next => exact Or.inr ⟨next, rfl⟩
      rw [run, run, step_onto outer token stack first]
      cases stepped : stack.step token with
      | error error => rfl
      | ok next =>
          rw [stepped] at within
          exact ih next within

theorem finish_onto (outer : Stack) (bottom : outer.frames = []) (stack : Stack)
    (ending : Except ParseError Ending) :
    (outer.onto stack).finish ending = (stack.finish ending).map (·.following outer.before.reverse) := by
  obtain ⟨frames, before⟩ := stack
  cases ending with
  | error error => rfl
  | ok ending =>
      cases frames with
      | cons frame rest => rfl
      | nil =>
          simp only [onto, layer, bottom, finish, Except.map, Parsed.following,
            ← Node.glue_push_text, Node.glue_reverse]

end Stack

theorem tree_onto (outer : Stack) (bottom : outer.frames = []) (scanned : Scan) (stack : Stack) :
    scanned.tree (outer.onto stack) =
      (scanned.tree stack).map (·.following outer.before.reverse) := by
  rw [Scan.tree, Scan.tree, Stack.run_onto outer _ _ (.inl bottom)]
  cases stack.run scanned.tokens with
  | error error => rfl
  | ok after => exact Stack.finish_onto outer bottom after scanned.ending

theorem tree_later (lines : Nat) (scanned : Scan) (stack : Stack) :
    (scanned.later lines).tree (stack.later lines) =
      outcomeLater lines (·.later lines) (scanned.tree stack) := by
  have other_lines : scanned.later lines = scanned.relined (.shift lines) := by
    obtain ⟨tokens, ending⟩ := scanned
    cases ending <;> rfl
  rw [other_lines, Stack.later_eq, tree_relined]
  cases scanned.tree stack with
  | error error => rfl
  | ok parsed =>
      simp only [outcomeRelined, outcomeLater, Parsed.relined, Parsed.later, Node.later_all_eq]

theorem tree_resumed {tail : Text} {lines : Nat} {c d : Cursor}
    (moved : Cursor.Moved tail lines c d) (stack : Stack) :
    d.scan.tree stack = (c.scan.later lines).tree (stack.after tail) := by
  have resumed := Cursor.step_moved moved
  cases stepped : c.step with
  | finish left last =>
      obtain ⟨last', stepped', pair, -⟩ := Cursor.resumed_finish (stepped ▸ resumed)
      rw [Cursor.scan_finish stepped, Cursor.scan_finish stepped']
      obtain ⟨frames, before⟩ := stack
      cases frames with
      | cons frame rest => rfl
      | nil =>
          simp only [Scan.tree, Scan.later, Stack.run, List.map_nil, Except.bind, outcomeLater,
            Stack.finish, Stack.after, Ending.later, pair, Node.push_text_append]
  | fault error =>
      have stepped' := Cursor.resumed_fault (stepped ▸ resumed)
      rw [Cursor.scan_fault stepped, Cursor.scan_fault stepped']
      rfl
  | token token next =>
      -- Only the first token has the tail before it.
      obtain ⟨next', stepped', onward⟩ := Cursor.resumed_token (stepped ▸ resumed)
      rw [tree_token stepped', Stack.step_behind, Cursor.scan_moved onward,
        Cursor.scan_token stepped]
      exact (tree_cons _ _ _ _).symm

/-- What follows a text that ends a line is read on top of what the text left open. -/
theorem tree_append (first second : Text) (pair : Delimiters) (lines : Nat) (ending : Ending)
    (inline : pair.Inline) (ends : first.EndsLine) (ended : (scan first pair).ending = .ok ending)
    (stack : Stack) :
    ((scan (first ++ second) pair).later lines).tree stack =
      (stack.run ((scan first pair).later lines).tokens).bind fun after =>
        ((scan second ending.delimiters).later (lines + Text.newlines first)).tree
          (after.after ending.tail) := by
  have ended_later : (⟨[], first, 1 + lines, pair⟩ : Cursor).scan.ending =
      .ok (ending.later lines) := by
    rw [Cursor.scan_at_line]
    show outcomeLater lines _ (scan first pair).ending = _
    rw [ended]
    rfl
  obtain ⟨last, stops⟩ := Cursor.scan_stops _ _ inline ends ended_later
  have moved : Cursor.Moved (ending.later lines).tail (lines + Text.newlines first)
      ⟨[], second, 1, (ending.later lines).delimiters⟩ (last.onto second) :=
    Cursor.moved_of_stops stops ends
  have whole := stops.onto second
  have placed : (⟨[], first ++ second, 1 + lines, pair⟩ : Cursor).scan =
      (scan (first ++ second) pair).later lines := Cursor.scan_at_line _ _ _ _
  have before : (⟨[], first, 1 + lines, pair⟩ : Cursor).scan = (scan first pair).later lines :=
    Cursor.scan_at_line _ _ _ _
  rw [← placed, ← before]
  show (Cursor.onto second ⟨[], first, 1 + lines, pair⟩).scan.tree stack = _
  -- What follows is scanned from where the scan of the first text stops.
  rw [whole, Scan.tree, Stack.run_append]
  cases stack.run (⟨[], first, 1 + lines, pair⟩ : Cursor).scan.tokens with
  | error error => rfl
  | ok after => exact tree_resumed moved after

/-- Parsing is compositional where a line ends: what follows is read as on its own with
the delimiters then in force, but for the lines, and put after what came before. -/
theorem parse_append (first second : Text) (pair : Delimiters) (earlier : Parsed)
    (closes : pair.closing ≠ []) (opening : '\n' ∉ pair.opening) (closing : '\n' ∉ pair.closing)
    (ends : first.EndsLine) (read : parse first pair = .ok earlier) :
    parse (first ++ second) pair =
      match parse second earlier.delimiters with
      | .error error => .error (error.later (Text.newlines first))
      | .ok later =>
          .ok ⟨Node.joinSiblings earlier.nodes (Node.laterAll (Text.newlines first) later.nodes),
            later.delimiters⟩ := by
  have inline : pair.Inline :=
    ⟨closes, opening, fun last => closing (List.mem_of_getLast? last)⟩
  rw [parse_eq_tree] at read
  obtain ⟨before, ending, ran, ended, rfl⟩ := tree_ok read
  -- The first text leaves no section open, so its nodes are all that lies below.
  have below : (⟨[], before⟩ : Stack).after ending.tail =
      Stack.onto ⟨[], Node.pushText ending.tail before⟩ (Stack.later (Text.newlines first) .bottom) :=
    rfl
  have whole := tree_append first second pair 0 ending inline ends ended .bottom
  rw [Scan.later_zero, Scan.later_zero, ran, Nat.zero_add] at whole
  rw [parse_eq_tree, whole, parse_eq_tree]
  simp only [Except.bind]
  rw [below, tree_onto _ rfl, tree_later]
  cases (scan second ending.delimiters).tree .bottom with
  | error error => rfl
  | ok later => rfl

-- The first line ends with new delimiters, and its text runs on into the second.
theorem parse_append_of_page :
    parse ("a{{=<% %>=}}\n".toList ++ "b\n<%#s%>\n<%/s%>".toList) .standard =
      .ok ⟨[.text "a\nb\n".toList, .sectionTag ['s'] false 3 []],
        ⟨"<%".toList, "%>".toList⟩⟩ := by
  have read : parse "a{{=<% %>=}}\n".toList .standard =
      .ok ⟨[.text ['a', '\n']], ⟨['<', '%'], ['%', '>']⟩⟩ := by cbv
  have later : parse "b\n<%#s%>\n<%/s%>".toList ⟨['<', '%'], ['%', '>']⟩ =
      .ok ⟨[.text ['b', '\n'], .sectionTag ['s'] false 2 []], ⟨['<', '%'], ['%', '>']⟩⟩ := by cbv
  have whole := parse_append _ "b\n<%#s%>\n<%/s%>".toList _ _ (by decide) (by decide) (by decide)
    (by decide) read
  rw [later] at whole
  exact whole

end Mustache
