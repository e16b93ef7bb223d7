import Mustache.Lookup
import Mustache.Parse
import Mustache.Provider
import Mustache.Text.Escape
import Mustache.Text.Indent

/-!
Rendering a tree against a chain of contexts. What is written goes to a sink piece
by piece; a sink may refuse a piece, and nothing written before an error is taken
back. The text of a partial is fetched, indented and parsed whenever its tag is
reached. Partials may name each other without end, so the depth of their nesting
is bounded.
-/

namespace Mustache

/-- The pieces written, the last one first, and how many more may be written. -/
structure Sink where
  written : List Text
  room : Option Nat
  deriving DecidableEq

def Sink.open (room : Option Nat) : Sink := ⟨[], room⟩

def Sink.pieces (sink : Sink) : List Text := sink.written.reverse

def Sink.text (sink : Sink) : Text := sink.pieces.flatten

/-- The state of a rendering: the host's data, the sink, and what there is to
report, the last note first. -/
structure Progress where
  host : Host
  sink : Sink
  notes : List Note

abbrev Render := EStateM Fault Progress

structure Settings where
  adapterOf : Value → Adapter
  strict : Bool
  delimiters : Delimiters
  provider : Provider

namespace Render

def onHost {α : Type} (read : Eval α) : Render α := fun progress =>
  match read progress.host with
  | .ok result host => .ok result { progress with host }
  | .error fault host => .error fault { progress with host }

def write (text : Text) : Render Unit := fun progress =>
  match progress.sink.room with
  | some 0 => .error (.host ⟨.os, "sink full".toList⟩) progress
  | room =>
      .ok () { progress with sink := ⟨text :: progress.sink.written, room.map (· - 1)⟩ }

def report (notes : List Note) : Render Unit :=
  modify fun progress => { progress with notes := notes.reverse ++ progress.notes }

section Nodes
variable (settings : Settings)

def variableTag (name : Text) (escape : Bool) (chain : Chain) : Render Unit := do
  let found ← onHost (lookup settings.adapterOf settings.strict chain name)
  if found.isMissing then return
  let v ← onHost (strip settings.adapterOf found)
  if v.isNull then return
  let text := v.shown (← get).host
  write (if escape then text.escapeHtml else text)

/-- Renders `body` as often as a section asks for it: in the chain as it stands for
an inverted section over an empty value and for a scalar, with a record on top of
the chain, and with each item of a list on top of it. -/
def sectionTag (name : Text) (inverted : Bool) (body : Chain → Render Unit) (chain : Chain) :
    Render Unit := do
  let found ← onHost (lookup settings.adapterOf false chain name)
  let empty ← onHost (isEmpty settings.adapterOf found)
  if empty != inverted then return
  if inverted then body chain
  else
    -- Only items keep their layers: a record is put on the chain without them.
    let target ← onHost (strip settings.adapterOf found)
    match ← onHost (kindOf settings.adapterOf target) with
    | .list =>
        let items ← onHost ((settings.adapterOf target).iterate target)
        items.forM fun item => body (item :: chain)
    | .record => body (target :: chain)
    | .scalar => body chain

abbrev Expand := Text → Text → Bool → Chain → Render Unit

mutual
def node (expand : Expand) : Node → Chain → Render Unit
  | .text content, _ => write content
  | .variableTag name escape, chain => variableTag settings name escape chain
  | .sectionTag name inverted _ children, chain =>
      sectionTag settings name inverted (nodes expand children) chain
  | .partialTag name indent linked, chain => expand name indent linked chain
  | .unknownTag _, _ => throw (.unknownNode "TagNode".toList)
  | .unknown, _ => throw (.unknownNode "TemplateNode".toList)

def nodes (expand : Expand) : List Node → Chain → Render Unit
  | [], _ => return
  | first :: rest, chain => do
      node expand first chain
      nodes expand rest chain
end

def fetchPartial (name indent : Text) (linked : Bool) : Render Text := do
  let fetched ← if linked then onHost (settings.provider.fetch name) else pure (.str [])
  match Provider.textOf (← get).host indent fetched with
  | .ok text => return Text.indentLines indent text
  | .error error => throw (.host error)

/-- Renders a partial in which others are nested less than `depth` deep. It is part
of the text around it and has the same contexts. -/
def expandPartial : Nat → Expand
  | 0, _, _, _, _ => throw .tooDeep
  | depth + 1, name, indent, linked, chain => do
      let source ← fetchPartial settings name indent linked
      report (parseNotes source settings.delimiters)
      match parse source settings.delimiters with
      | .error error => throw (.parse error)
      | .ok parsed =>
          report [.expanded name parsed.nodes.length]
          nodes settings (expandPartial depth) parsed.nodes chain

def tree (depth : Nat) (tree : List Node) (chain : Chain) : Render Unit :=
  nodes settings (expandPartial settings depth) tree chain

end Nodes

/-- Renders into a sink of its own and gives its text; the sink around it stays as it is. -/
def toText (act : Render Unit) : Render Text := fun progress =>
  match act { progress with sink := .open none } with
  | .ok () after => .ok after.sink.text { after with sink := progress.sink }
  | .error fault after => .error fault { after with sink := progress.sink }

end Render
end Mustache
