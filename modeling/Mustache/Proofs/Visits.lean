import Mustache.Proofs.HostData
import Mustache.Template

/-!
The variable tags that a rendering comes to. What a section or a partial asks for is told
apart from rendering it: a section renders its body in some chains, one after the other,
and a partial stands for some nodes. Along these the variables are listed in the order in
which they are evaluated, each with the state it is evaluated in.
-/

namespace Mustache

/-- A variable tag that is evaluated: its name, and the chain and the state it is found in. -/
structure Visit where
  name : Text
  chain : Chain
  start : Progress

abbrev Visits := Progress → List Visit

namespace Visits

def after {α : Type} (act : Render α) (next : α → Visits) : Visits := fun start =>
  match act start with
  | .ok result later => next result later
  | .error _ _ => []

def each (body : Chain → Render Unit) (inside : Chain → Visits) : List Chain → Visits
  | [], _ => []
  | chain :: rest, start =>
      inside chain start ++ after (body chain) (fun _ => each body inside rest) start

section After
variable {α : Type} {act : Render α} {start later : Progress}

theorem after_of_ok {result : α} (ran : act start = .ok result later) (next : α → Visits) :
    after act next start = next result later := by
  rw [after, ran]

theorem after_of_error {fault : Fault} (ran : act start = .error fault later) (next : α → Visits) :
    after act next start = [] := by
  rw [after, ran]

end After

end Visits

namespace Render
variable (settings : Settings)

def sectionChains (name : Text) (inverted : Bool) (chain : Chain) : Render (List Chain) := do
  let found ← onHost (lookup settings.adapterOf false chain name)
  let empty ← onHost (isEmpty settings.adapterOf found)
  if empty != inverted then return []
  if inverted then return [chain]
  else
    let target ← onHost (strip settings.adapterOf found)
    match ← onHost (kindOf settings.adapterOf target) with
    | .list =>
        let items ← onHost ((settings.adapterOf target).iterate target)
        return items.map (· :: chain)
    | .record => return [target :: chain]
    | .scalar => return [chain]

def indentedSource (indent : Text) (fetched : Value) : Render Text := do
  match Provider.textOf (← get).host indent fetched with
  | .ok text => return Text.indentLines indent text
  | .error error => throw (.host error)

def partialNodes (name indent : Text) (linked : Bool) : Render (List Node) := do
  let source ← fetchPartial settings name indent linked
  report (parseNotes source settings.delimiters)
  match parse source settings.delimiters with
  | .error error => throw (.parse error)
  | .ok parsed =>
      report [.expanded name parsed.nodes.length]
      return parsed.nodes

mutual
def visits (expand : Expand) (inside : Text → Text → Bool → Chain → Visits) :
    Node → Chain → Visits
  | .variableTag name _, chain, start => [⟨name, chain, start⟩]
  | .sectionTag name inverted _ children, chain, start =>
      Visits.after (sectionChains settings name inverted chain)
        (Visits.each (nodes settings expand children) (visitsAll expand inside children)) start
  | .partialTag name indent linked, chain, start => inside name indent linked chain start
  | .text _, _, _ | .unknownTag _, _, _ | .unknown, _, _ => []

def visitsAll (expand : Expand) (inside : Text → Text → Bool → Chain → Visits) :
    List Node → Chain → Visits
  | [], _, _ => []
  | first :: rest, chain, start =>
      visits expand inside first chain start ++
        Visits.after (node settings expand first chain)
          (fun _ => visitsAll expand inside rest chain) start
end

def partialVisits : Nat → Text → Text → Bool → Chain → Visits
  | 0, _, _, _, _ => fun _ => []
  | depth + 1, name, indent, linked, chain =>
      Visits.after (partialNodes settings name indent linked) fun inside =>
        visitsAll settings (expandPartial settings depth) (partialVisits depth) inside chain

theorem for_single (body : Chain → Render Unit) (chain : Chain) : [chain].forM body = body chain :=
  bind_pure (body chain)

theorem for_map (body : Chain → Render Unit) (items : List Value) (chain : Chain) :
    (items.map (· :: chain)).forM body = items.forM fun item => body (item :: chain) := by
  induction items with
  | nil => rfl
  | cons item rest ih =>
      show (body (item :: chain) >>= fun _ => (rest.map (· :: chain)).forM body) =
        (body (item :: chain) >>= fun _ => rest.forM fun item => body (item :: chain))
      rw [ih]

/-- A section finds its chains before anything of its body is rendered. -/
theorem section_eq (name : Text) (inverted : Bool) (body : Chain → Render Unit) (chain : Chain) :
    sectionTag settings name inverted body chain =
      sectionChains settings name inverted chain >>= fun chains => chains.forM body := by
  unfold sectionTag sectionChains
  simp only [bind_assoc]
  congr 1
  funext found
  congr 1
  funext empty
  cases empty with
  | true =>
      cases inverted with
      | true => exact (for_single body chain).symm
      | false => rfl
  | false =>
      cases inverted with
      | true => rfl
      | false =>
          simp only [bne_self_eq_false, Bool.false_eq_true, if_false, bind_assoc]
          congr 1
          funext target
          congr 1
          funext kind
          cases kind with
          | list => simp only [bind_assoc, pure_bind, for_map]
          | record => exact (for_single body (target :: chain)).symm
          | scalar => exact (for_single body chain).symm

theorem fetch_eq (name indent : Text) (linked : Bool) :
    fetchPartial settings name indent linked =
      (if linked then onHost (settings.provider.fetch name) else pure (.str [])) >>=
        indentedSource indent := by
  unfold fetchPartial
  split <;> rfl

theorem expand_eq (depth : Nat) (name indent : Text) (linked : Bool) (chain : Chain) :
    expandPartial settings (depth + 1) name indent linked chain =
      partialNodes settings name indent linked >>= fun inside =>
        nodes settings (expandPartial settings depth) inside chain := by
  rw [expandPartial, partialNodes]
  simp only [bind_assoc]
  congr 1
  funext source
  congr 1
  funext _
  cases parse source settings.delimiters with
  | error error => rfl
  | ok parsed => simp only [bind_assoc, pure_bind]

end Render

/-- The variable tags that the rendering of a template evaluates, in this order. -/
def Template.visits (registry : Registry) (depth : Nat) (template : Template) (contexts : Chain) :
    Visits :=
  let settings := template.settings registry
  Render.visitsAll settings (Render.expandPartial settings depth)
    (Render.partialVisits settings depth) template.nodes contexts

end Mustache
