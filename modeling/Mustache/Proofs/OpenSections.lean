import Mustache.Parse
import Mustache.Proofs.Scanning

/-!
The tree of a source by one pass over its tags. The sections that are open at a tag
lie on a stack, each with the siblings before it. A tag changes the top of the stack,
and what the stack holds when the tags are used up is the tree. Reading siblings
section by section comes to the same.
-/

namespace Mustache

structure Frame where
  opened : OpenSection
  inverted : Bool
  before : List Node

def Frame.close (frame : Frame) (children : List Node) : List Node :=
  .sectionTag frame.opened.name frame.inverted frame.opened.line children :: frame.before

structure Stack where
  frames : List Frame
  before : List Node

namespace Stack

def bottom : Stack := ⟨[], []⟩

def step (token : Token) (stack : Stack) : Except ParseError Stack :=
  let spaced := token.withText stack.before
  match token.tag with
  | .comment | .stray | .delimiters _ => .ok ⟨stack.frames, spaced⟩
  | .value name escape => .ok ⟨stack.frames, .variableTag name escape :: spaced⟩
  | .inclusion name => .ok ⟨stack.frames, .partialTag name token.padding true :: spaced⟩
  | .opening inverted name => .ok ⟨⟨⟨name, token.line⟩, inverted, spaced⟩ :: stack.frames, []⟩
  | .closing name =>
      match stack.frames with
      | [] => .error ⟨.unmatchedCloseTag, token.endLine⟩
      | frame :: outer =>
          if name = frame.opened.name then .ok ⟨outer, frame.close spaced.reverse⟩
          else .error ⟨.interleavedClosingTag name, token.endLine⟩

def run : List Token → Stack → Except ParseError Stack
  | [], stack => .ok stack
  | token :: rest, stack => (stack.step token).bind (run rest)

theorem run_append (earlier later : List Token) (stack : Stack) :
    run (earlier ++ later) stack = (run earlier stack).bind (run later) := by
  induction earlier generalizing stack with
  | nil => rfl
  | cons token rest ih =>
      rw [List.cons_append, run, run]
      cases stack.step token with
      | error error => rfl
      | ok after => exact ih after

def finish (ending : Except ParseError Ending) (stack : Stack) : Except ParseError Parsed :=
  match ending, stack.frames with
  | .error error, _ => .error error
  | .ok _, frame :: _ => .error ⟨.unclosedSection frame.opened.name, frame.opened.line⟩
  | .ok ending, [] =>
      .ok ⟨(Node.pushText ending.tail stack.before).reverse, ending.delimiters⟩

end Stack

def Scan.tree (scanned : Scan) (stack : Stack) : Except ParseError Parsed :=
  (stack.run scanned.tokens).bind (·.finish scanned.ending)

theorem tree_cons (token : Token) (rest : List Token) (ending : Except ParseError Ending)
    (stack : Stack) :
    (⟨token :: rest, ending⟩ : Scan).tree stack = (stack.step token).bind (⟨rest, ending⟩ : Scan).tree := by
  rw [Scan.tree, Stack.run]
  cases stack.step token with
  | error error => rfl
  | ok after => rfl

theorem tree_token {c next : Cursor} {token : Token} (stepped : c.step = .token token next)
    (stack : Stack) : c.scan.tree stack = (stack.step token).bind next.scan.tree := by
  rw [Cursor.scan_token stepped, tree_cons]

theorem tree_ok {scanned : Scan} {stack : Stack} {parsed : Parsed}
    (read : scanned.tree stack = .ok parsed) :
    ∃ before ending, stack.run scanned.tokens = .ok ⟨[], before⟩ ∧ scanned.ending = .ok ending ∧
      parsed = ⟨(Node.pushText ending.tail before).reverse, ending.delimiters⟩ := by
  rw [Scan.tree] at read
  cases ran : stack.run scanned.tokens with
  | error error => simp [ran, Except.bind] at read
  | ok after =>
      rw [ran] at read
      obtain ⟨frames, before⟩ := after
      cases ended : scanned.ending with
      | error error => simp [Except.bind, Stack.finish, ended] at read
      | ok ending =>
          cases frames with
          | cons frame outer => simp [Except.bind, Stack.finish, ended] at read
          | nil =>
              simp only [Except.bind, Stack.finish, ended, Except.ok.injEq] at read
              exact ⟨before, ending, rfl, rfl, read.symm⟩

def resume (frames : List Frame) {c : Cursor} (read : Siblings c) : Except ParseError Parsed :=
  match frames with
  | [] => .ok ⟨read.nodes, read.next.delimiters⟩
  | frame :: outer => read.next.scan.tree ⟨outer, frame.close read.nodes⟩

theorem resume_since (frames : List Frame) {start earlier : Cursor}
    (read : Except ParseError (Siblings start))
    (shorter : start.rest.length < earlier.rest.length) :
    (read.map (·.since earlier shorter)).bind (resume frames) = read.bind (resume frames) := by
  cases read with
  | error error => rfl
  | ok read => rfl

-- The induction is on what is left of the source. Only an opening tag needs the
-- hypothesis twice: for its children, and for what follows their closing tag.
theorem tree_siblings (c : Cursor) (frames : List Frame) (before : List Node) :
    c.scan.tree ⟨frames, before⟩ =
      (c.siblings (frames.head?.map (·.opened)) before).bind (resume frames) := by
  rw [Cursor.siblings]
  split
  · next error stepped =>
      rw [Cursor.scan_fault stepped]
      rfl
  · next tail last stepped =>
      rw [Cursor.scan_finish stepped]
      cases frames with
      | nil => rfl
      | cons frame outer => rfl
  · next token next stepped =>
      have ahead := Cursor.length_step_lt stepped
      rw [tree_token stepped, Stack.step]
      cases tag : token.tag with
      | comment | stray | delimiters =>
          rw [resume_since]
          exact tree_siblings next frames _
      | value name escape | inclusion name =>
          rw [resume_since]
          exact tree_siblings next frames _
      | opening inverted name =>
          -- The children are read first; what they leave of the source is shorter.
          refine (tree_siblings next _ []).trans ?_
          cases inner : next.siblings (some ⟨name, token.line⟩) [] with
          | error error => simp [inner, Except.bind]
          | ok children =>
              have within := children.shorter
              simp only [List.head?_cons, Option.map_some, inner]
              rw [resume_since]
              exact tree_siblings children.next frames _
      | closing name =>
          cases frames with
          | nil => rfl
          | cons frame outer =>
              by_cases fits : name = frame.opened.name
              · simp [fits, Except.bind, resume]
              · simp [fits, Except.bind]
termination_by c.rest.length

/-- Reading section by section gives the tree that the stack gives. -/
theorem parse_eq_tree (source : Text) (delimiters : Delimiters) :
    parse source delimiters = (scan source delimiters).tree .bottom := by
  have flat := tree_siblings (Cursor.start source delimiters) [] []
  rw [List.head?_nil, Option.map_none] at flat
  rw [parse, scan, Stack.bottom, flat]
  cases (Cursor.start source delimiters).siblings none [] with
  | error error => rfl
  | ok read => rfl

end Mustache
