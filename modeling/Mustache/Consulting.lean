import Mustache.Template

/-!
Reading and rendering with a registry that remembers. Whatever needs the adapter of a
value asks the registry in use, which may come to remember another lineage by that. Apart
from where the adapters come from, this is reading and rendering as it is without a memory.
-/

namespace Mustache

structure InUse (σ : Type) where
  registry : Registry
  state : σ

abbrev Consult (σ : Type) := EStateM Fault (InUse σ)

namespace Consult

section Access
variable {σ α : Type}

def aside (act : EStateM Fault σ α) : Consult σ α := fun use =>
  match act use.state with
  | .ok result state => .ok result { use with state }
  | .error fault state => .error fault { use with state }

def adapterFor (v : Value) : Consult σ Adapter := fun use =>
  let (adapter, registry) := use.registry.adapterFor v
  .ok adapter { use with registry }

def onHost (act : Consult Host α) : Consult Progress α := fun use =>
  match act ⟨use.registry, use.state.host⟩ with
  | .ok result after => .ok result ⟨after.registry, { use.state with host := after.state }⟩
  | .error fault after => .error fault ⟨after.registry, { use.state with host := after.state }⟩

end Access

def settle (v : Value) : Consult Host Value := do
  let adapter ← adapterFor v
  match adapter.opening v with
  | .fails error => throw (.host error)
  | _ => return v

def strip (v : Value) : Consult Host Value :=
  if v.isAbsent then return v
  else do
    let adapter ← adapterFor v
    match _ : adapter.opening v with
    | .closed => return v
    | .opens inner => strip inner
    | .counts slot => do
        let count ← aside (countCall slot)
        settle count
    | .fails error => throw (.host error)
termination_by sizeOf v
decreasing_by exact Adapter.size_opening ‹_›

def isEmpty (v : Value) : Consult Host Bool := do
  let v ← strip v
  if v.isAbsent then return true
  else do
    let adapter ← adapterFor v
    aside (adapter.isEmpty v)

def kindOf (v : Value) : Consult Host ValueKind := do
  let v ← strip v
  if v.isAbsent then return .scalar
  else do
    let adapter ← adapterFor v
    return adapter.kind

def lookupWithin (name : Text) (v : Value) : Consult Host Value :=
  if v.isAbsent then return .missing
  else do
    let adapter ← adapterFor v
    let found ← aside (adapter.invoke v name)
    if found.isMissing then
      match _ : adapter.opening v with
      | .closed => aside (member adapter v name)
      | .opens inner => lookupWithin name inner
      | .counts slot => do
          let count ← aside (countCall slot)
          let count ← settle count
          let adapter ← adapterFor count
          aside (member adapter count name)
      | .fails error => throw (.host error)
    else return found
termination_by sizeOf v
decreasing_by exact Adapter.size_opening ‹_›

def lookupInFrame (name : Text) (frame : Value) : Consult Host Value :=
  if name = Path.self then return frame else lookupWithin name frame

def lookupSegment (name : Text) : Chain → Consult Host Value
  | [] => return .missing
  | frame :: outer => do
      let found ← lookupInFrame name frame
      if found.isMissing then lookupSegment name outer else return found

def lookupPath (required : Bool) : Path → Chain → Consult Host Value
  | [], _ => return .missing
  | segment :: rest, chain => do
      let found ← lookupSegment segment chain
      if found.isMissing then
        if required then throw (.missingVariable segment) else return .missing
      else if rest = [] then return found
      else lookupPath required rest [found]

def lookup (required : Bool) (chain : Chain) (name : Text) : Consult Host Value :=
  lookupPath required (Path.ofName name) chain

/-! The settings of a rendering, but that its adapters are those of the registry in use. -/

section Nodes
variable (settings : Settings)

def variableTag (name : Text) (escape : Bool) (chain : Chain) : Consult Progress Unit := do
  let found ← onHost (lookup settings.strict chain name)
  if found.isMissing then return
  let v ← onHost (strip found)
  if v.isNull then return
  aside do
    let text := v.shown (← get).host
    Render.write (if escape then text.escapeHtml else text)

def sectionTag (name : Text) (inverted : Bool) (body : Chain → Consult Progress Unit)
    (chain : Chain) : Consult Progress Unit := do
  let found ← onHost (lookup false chain name)
  let empty ← onHost (isEmpty found)
  if empty != inverted then return
  if inverted then body chain
  else
    let target ← onHost (strip found)
    match ← onHost (kindOf target) with
    | .list =>
        let adapter ← adapterFor target
        let items ← aside (Render.onHost (adapter.iterate target))
        items.forM fun item => body (item :: chain)
    | .record => body (target :: chain)
    | .scalar => body chain

mutual
def node (expand : Text → Text → Bool → Chain → Consult Progress Unit) :
    Node → Chain → Consult Progress Unit
  | .text content, _ => aside (Render.write content)
  | .variableTag name escape, chain => variableTag settings name escape chain
  | .sectionTag name inverted _ children, chain =>
      sectionTag name inverted (nodes expand children) chain
  | .partialTag name indent linked, chain => expand name indent linked chain
  | .unknownTag _, _ => throw (.unknownNode "TagNode".toList)
  | .unknown, _ => throw (.unknownNode "TemplateNode".toList)

def nodes (expand : Text → Text → Bool → Chain → Consult Progress Unit) :
    List Node → Chain → Consult Progress Unit
  | [], _ => return
  | first :: rest, chain => do
      node expand first chain
      nodes expand rest chain
end

def expandPartial : Nat → Text → Text → Bool → Chain → Consult Progress Unit
  | 0, _, _, _, _ => throw .tooDeep
  | depth + 1, name, indent, linked, chain => do
      let source ← aside (Render.fetchPartial settings name indent linked)
      aside (Render.report (parseNotes source settings.delimiters))
      match parse source settings.delimiters with
      | .error error => throw (.parse error)
      | .ok parsed =>
          aside (Render.report [.expanded name parsed.nodes.length])
          nodes settings (expandPartial depth) parsed.nodes chain

def tree (depth : Nat) (tree : List Node) (chain : Chain) : Consult Progress Unit :=
  nodes settings (expandPartial settings depth) tree chain

end Nodes

def toText (act : Consult Progress Unit) : Consult Progress Text := fun use =>
  match act { use with state := { use.state with sink := .open none } } with
  | .ok () after =>
      .ok after.state.sink.text { after with state := { after.state with sink := use.state.sink } }
  | .error fault after =>
      .error fault { after with state := { after.state with sink := use.state.sink } }

def render (depth : Nat) (template : Template) (contexts : Chain) : Consult Progress Text :=
  fun use =>
    toText (tree (template.settings use.registry) depth template.nodes contexts) use

end Consult

inductive Query where
  | adapterFor (v : Value)
  | unwrap (v : Value)
  | isEmpty (v : Value)
  | kindOf (v : Value)
  | lookup (required : Bool) (chain : Chain) (name : Text)
  | render (depth : Nat) (template : Template) (contexts : Chain)

inductive Answer where
  | adapter (adapter : Adapter)
  | value (v : Value)
  | flag (b : Bool)
  | kind (kind : ValueKind)
  | text (t : Text)

def Query.ask : Query → Consult Progress Answer
  | .adapterFor v => .adapter <$> Consult.adapterFor v
  | .unwrap v => .value <$> Consult.onHost (Consult.strip v)
  | .isEmpty v => .flag <$> Consult.onHost (Consult.isEmpty v)
  | .kindOf v => .kind <$> Consult.onHost (Consult.kindOf v)
  | .lookup required chain name => .value <$> Consult.onHost (Consult.lookup required chain name)
  | .render depth template contexts => .text <$> Consult.render depth template contexts

/-- What happens to a registry. A question changes it even if there is no answer. -/
inductive Event where
  | register (name : ClassName) (adapter : Adapter)
  | ask (query : Query)

namespace Event

def next : Event → InUse Progress → InUse Progress
  | .register name adapter, use => { use with registry := use.registry.register name adapter }
  | .ask query, use =>
      match query.ask use with
      | .ok _ after => after
      | .error _ after => after

def run (events : List Event) (use : InUse Progress) : InUse Progress :=
  events.foldl (fun use event => event.next use) use

end Event
end Mustache
