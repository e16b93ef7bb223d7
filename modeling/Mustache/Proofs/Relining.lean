import Mustache.Proofs.OpenSections
import Mustache.Proofs.Resumption

/-!
Lines put in place of others. What the tags of a source do to the open sections does not
depend on their lines: tags on other lines give the same tree with these lines, or fail in
the same way on these lines.
-/

namespace Mustache

/-- A line for each line, and the same for the lines that nodes keep. -/
structure Relining where
  line : Nat → Nat
  nodeLine : Int → Int
  same : ∀ n : Nat, nodeLine n = line n

namespace Relining

def shift (lines : Nat) : Relining where
  line n := n + lines
  nodeLine n := n + lines
  same n := (Int.natCast_add n lines).symm

def behind (last lines : Nat) : Relining where
  line n := if last < n then n + lines else n
  nodeLine n := if (last : Int) < n then n + lines else n
  same n := by
    by_cases later : last < n
    · simp [later]
    · simp [later]

end Relining

namespace Node

mutual
def relined (lines : Relining) : Node → Node
  | .sectionTag name inverted line children =>
      .sectionTag name inverted (lines.nodeLine line) (relinedAll lines children)
  | .text content => .text content
  | .variableTag name escape => .variableTag name escape
  | .partialTag name indent linked => .partialTag name indent linked
  | .unknownTag name => .unknownTag name
  | .unknown => .unknown

def relinedAll (lines : Relining) : List Node → List Node
  | [] => []
  | node :: rest => node.relined lines :: relinedAll lines rest
end

theorem relined_all_map (lines : Relining) (nodes : List Node) :
    relinedAll lines nodes = nodes.map (relined lines) := by
  induction nodes with
  | nil => rfl
  | cons node rest ih => rw [relinedAll, ih, List.map_cons]

theorem relined_all_reverse (lines : Relining) (nodes : List Node) :
    (relinedAll lines nodes).reverse = relinedAll lines nodes.reverse := by
  simp only [relined_all_map, List.map_reverse]

theorem push_text_relined (lines : Relining) (content : Text) (before : List Node) :
    pushText content (relinedAll lines before) = relinedAll lines (pushText content before) := by
  unfold pushText
  split
  · rfl
  · cases before with
    | nil => rfl
    | cons node rest => cases node <;> rfl

end Node

def ParseError.relined (lines : Relining) (error : ParseError) : ParseError :=
  { error with line := lines.line error.line }

def Token.relined (lines : Relining) (token : Token) : Token :=
  { token with line := lines.line token.line, endLine := lines.line token.endLine }

def Ending.relined (lines : Relining) (ending : Ending) : Ending :=
  { ending with line := lines.line ending.line }

def Parsed.relined (lines : Relining) (parsed : Parsed) : Parsed :=
  ⟨Node.relinedAll lines parsed.nodes, parsed.delimiters⟩

def outcomeRelined {α : Type} (lines : Relining) (change : α → α) :
    Except ParseError α → Except ParseError α
  | .ok result => .ok (change result)
  | .error error => .error (error.relined lines)

def Scan.relined (lines : Relining) (scanned : Scan) : Scan :=
  ⟨scanned.tokens.map (·.relined lines), outcomeRelined lines (·.relined lines) scanned.ending⟩

theorem with_text_relined (lines : Relining) (token : Token) (before : List Node) :
    (token.relined lines).withText (Node.relinedAll lines before) =
      Node.relinedAll lines (token.withText before) := by
  simp only [Token.withText, Token.relined, Node.push_text_relined]
  split <;> rfl

namespace Stack

def relined (lines : Relining) (stack : Stack) : Stack :=
  ⟨stack.frames.map fun frame =>
      ⟨⟨frame.opened.name, lines.line frame.opened.line⟩, frame.inverted,
        Node.relinedAll lines frame.before⟩,
    Node.relinedAll lines stack.before⟩

theorem step_relined (lines : Relining) (token : Token) (stack : Stack) :
    (stack.relined lines).step (token.relined lines) =
      outcomeRelined lines (relined lines) (stack.step token) := by
  obtain ⟨frames, before⟩ := stack
  rw [step, step, relined, with_text_relined]
  simp only [Token.relined]
  cases token.tag with
  | closing name =>
      cases frames with
      | nil => rfl
      | cons frame outer =>
          by_cases fits : name = frame.opened.name
          · simp only [List.map_cons, fits, if_true, outcomeRelined, relined, Frame.close,
              Node.relinedAll, Node.relined, Node.relined_all_reverse, lines.same]
          · simp only [List.map_cons, fits, if_false]
            rfl
  | _ => rfl

theorem run_relined (lines : Relining) (tokens : List Token) (stack : Stack) :
    (stack.relined lines).run (tokens.map (·.relined lines)) =
      outcomeRelined lines (relined lines) (stack.run tokens) := by
  induction tokens generalizing stack with
  | nil => rfl
  | cons token rest ih =>
      rw [List.map_cons, run, run, step_relined]
      cases stack.step token with
      | error error => rfl
      | ok after => exact ih after

theorem finish_relined (lines : Relining) (stack : Stack) (ending : Except ParseError Ending) :
    (stack.relined lines).finish (outcomeRelined lines (·.relined lines) ending) =
      outcomeRelined lines (·.relined lines) (stack.finish ending) := by
  obtain ⟨frames, before⟩ := stack
  cases ending with
  | error error => rfl
  | ok ending =>
      cases frames with
      | cons frame rest => rfl
      | nil =>
          simp only [relined, finish, outcomeRelined, List.map_nil, Parsed.relined,
            Ending.relined, Node.push_text_relined, Node.relined_all_reverse]

end Stack

theorem tree_relined (lines : Relining) (scanned : Scan) (stack : Stack) :
    (scanned.relined lines).tree (stack.relined lines) =
      outcomeRelined lines (·.relined lines) (scanned.tree stack) := by
  rw [Scan.tree, Scan.tree, Scan.relined, Stack.run_relined]
  cases stack.run scanned.tokens with
  | error error => rfl
  | ok after => exact Stack.finish_relined lines after scanned.ending

end Mustache
