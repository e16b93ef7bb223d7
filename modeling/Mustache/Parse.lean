import Mustache.Token
import Mustache.Node
import Mustache.Note

/-!
From a source to its tree. Nodes are read one after the other. An opening tag is
followed by the nodes of its section, which are read first and end with the closing
tag of the section. Whatever reading them does to the delimiters stays in force.
-/

namespace Mustache

structure OpenSection where
  name : Text
  line : Nat
  deriving DecidableEq

def Token.withText (token : Token) (before : List Node) : List Node :=
  let spaced := Node.pushText token.text before
  if token.standalone then spaced else Node.pushText token.padding spaced

/-- Siblings read from `start` on. What is left of the source after them is no
longer than it was. -/
structure Siblings (start : Cursor) where
  nodes : List Node
  next : Cursor
  shorter : next.rest.length ≤ start.rest.length

def Siblings.since {start : Cursor} (siblings : Siblings start) (earlier : Cursor)
    (shorter : start.rest.length < earlier.rest.length) : Siblings earlier :=
  ⟨siblings.nodes, siblings.next, Nat.le_trans siblings.shorter (Nat.le_of_lt shorter)⟩

/-- Reads the siblings after `before`, nearest first, up to the closing tag of the
section `inside`, or to the end of the source. -/
def Cursor.siblings (inside : Option OpenSection) (before : List Node) (c : Cursor) :
    Except ParseError (Siblings c) :=
  match stepped : c.step with
  | .fault error => .error error
  | .finish tail last =>
      match inside with
      | some opened => .error ⟨.unclosedSection opened.name, opened.line⟩
      | none =>
          .ok ⟨(Node.pushText tail before).reverse, last, Cursor.length_finish_le stepped⟩
  | .token token next =>
      have ahead := Cursor.length_step_lt stepped
      let spaced := token.withText before
      match token.tag with
      | .comment | .stray | .delimiters _ =>
          (next.siblings inside spaced).map (·.since c ahead)
      | .value name escape =>
          (next.siblings inside (.variableTag name escape :: spaced)).map (·.since c ahead)
      | .inclusion name =>
          (next.siblings inside (.partialTag name token.padding true :: spaced)).map
            (·.since c ahead)
      | .opening inverted name =>
          match next.siblings (some ⟨name, token.line⟩) [] with
          | .error error => .error error
          | .ok children =>
              have := children.shorter
              let section_ := .sectionTag name inverted token.line children.nodes
              (children.next.siblings inside (section_ :: spaced)).map
                (·.since c (Nat.lt_of_le_of_lt children.shorter ahead))
      | .closing name =>
          match inside with
          | none => .error ⟨.unmatchedCloseTag, token.endLine⟩
          | some opened =>
              if name = opened.name then .ok ⟨spaced.reverse, next, Nat.le_of_lt ahead⟩
              else .error ⟨.interleavedClosingTag name, token.endLine⟩
termination_by c.rest.length

structure Parsed where
  nodes : List Node
  delimiters : Delimiters

def parse (source : Text) (delimiters : Delimiters) : Except ParseError Parsed :=
  ((Cursor.start source delimiters).siblings none []).map fun read =>
    ⟨read.nodes, read.next.delimiters⟩

def fitting (names : List Text) : List Token → List Token
  | [] => []
  | token :: rest =>
      match token.tag with
      | .opening _ name => token :: fitting (name :: names) rest
      | .closing name =>
          match names with
          | innermost :: outer => if name = innermost then token :: fitting outer rest else []
          | [] => []
      | _ => token :: fitting names rest

def Token.note? (token : Token) : Option Note :=
  match token.tag with
  | .delimiters (some pair) => some (.delimitersChanged pair.opening pair.closing token.endLine)
  | .delimiters none => some (.delimitersIgnored token.endLine)
  | _ => none

/-- What there is to report about reading the tree of `source`. -/
def parseNotes (source : Text) (delimiters : Delimiters) : List Note :=
  let scanned := scan source delimiters
  let changes := (fitting [] scanned.tokens).filterMap Token.note?
  match parse source delimiters, scanned.ending with
  | .ok parsed, .ok ending => changes ++ [.parsed parsed.nodes.length ending.line]
  | _, _ => changes

end Mustache
