import Mustache.Proofs.Visits

/-!
What a rendering comes to. Siblings are rendered one after the other, a section turns to its
children in each of its chains, and a partial to the nodes that it stands for. Besides, each
node has an act of its own. What is true of all these acts is true of the rendering, and the
rendering fails exactly where one of them does.
-/

namespace Mustache

open Render

/-- Siblings that are still to be rendered: in which chain, from which state on, and how deep
partials may be nested in them. -/
structure Ahead where
  depth : Nat
  nodes : List Node
  chain : Chain
  start : Progress

namespace Ahead
variable (settings : Settings)

def run (ahead : Ahead) : EStateM.Result Fault Progress Unit :=
  Render.nodes settings (expandPartial settings ahead.depth) ahead.nodes ahead.chain ahead.start

inductive Next : Ahead → Ahead → Prop
  | sibling {depth : Nat} {first : Node} {rest : List Node} {chain : Chain}
      {start after : Progress} :
      node settings (expandPartial settings depth) first chain start = .ok () after →
      Next ⟨depth, first :: rest, chain, start⟩ ⟨depth, rest, chain, after⟩
  /-- The children in one of the chains, once they are rendered in the chains before it. -/
  | child {depth : Nat} {name : Text} {inverted : Bool} {line : Int} {children rest : List Node}
      {chain inner : Chain} {earlier later : List Chain} {start found after : Progress} :
      sectionChains settings name inverted chain start = .ok (earlier ++ inner :: later) found →
      earlier.forM (Render.nodes settings (expandPartial settings depth) children) found =
        .ok () after →
      Next ⟨depth, .sectionTag name inverted line children :: rest, chain, start⟩
        ⟨depth, children, inner, after⟩
  | included {depth : Nat} {name indent : Text} {linked : Bool} {rest inside : List Node}
      {chain : Chain} {start after : Progress} :
      partialNodes settings name indent linked start = .ok inside after →
      Next ⟨depth + 1, .partialTag name indent linked :: rest, chain, start⟩
        ⟨depth, inside, chain, after⟩

inductive Reaches : Ahead → Ahead → Prop
  | here (ahead : Ahead) : Reaches ahead ahead
  | later {a b c : Ahead} : Next settings a b → Reaches b c → Reaches a c

variable {settings} in
/-- What every step keeps is true of all that is reached. -/
theorem reaches_keep {holds : Ahead → Prop}
    (step : ∀ a b, Next settings a b → holds a → holds b) {a b : Ahead}
    (reached : Reaches settings a b) (first : holds a) : holds b := by
  induction reached with
  | here => exact first
  | later next _ ih => exact ih (step _ _ next first)

def own (depth : Nat) (first : Node) (chain : Chain) : Render Unit :=
  match first with
  | .sectionTag name inverted _ _ =>
      sectionChains settings name inverted chain >>= fun _ => pure ()
  | .partialTag name indent linked =>
      match depth with
      | 0 => throw .tooDeep
      | _ + 1 => partialNodes settings name indent linked >>= fun _ => pure ()
  | leaf => node settings (expandPartial settings depth) leaf chain

/-- What is true of doing nothing and of one thing after another, and of each node's own act
wherever the rendering comes to it. -/
structure Keeps (holds : Progress → EStateM.Result Fault Progress Unit → Prop) (ahead : Ahead) :
    Prop where
  nothing : ∀ start, holds start (.ok () start)
  andThen : ∀ start between result, holds start (.ok () between) → holds between result →
    holds start result
  own : ∀ depth first rest chain start,
    Reaches settings ahead ⟨depth, first :: rest, chain, start⟩ →
    holds start (own settings depth first chain start)

section Keeping
variable {settings} {holds : Progress → EStateM.Result Fault Progress Unit → Prop}

theorem keeps_next {a b : Ahead} (keeps : Keeps settings holds a) (next : Next settings a b) :
    Keeps settings holds b where
  nothing := keeps.nothing
  andThen := keeps.andThen
  own depth first rest chain start reached :=
    keeps.own depth first rest chain start (.later next reached)

theorem keeps_bind {α : Type} {a : Ahead} {act : Render α} {next : α → Render Unit}
    {start : Progress} (keeps : Keeps settings holds a)
    (first : holds start ((act >>= fun _ => pure ()) start))
    (rest : ∀ result after, act start = .ok result after → holds after (next result after)) :
    holds start ((act >>= next) start) := by
  cases ran : act start with
  | error fault after =>
      rw [bind_of_error ran] at first ⊢
      exact first
  | ok result after =>
      rw [bind_of_ok ran] at first ⊢
      exact keeps.andThen start after _ first (rest result after ran)

variable {depth : Nat} {name : Text} {inverted : Bool} {line : Int} {children rest : List Node}
  {chain : Chain}

/-- The children are rendered in the chains `later`, after they were in the chains `earlier`. -/
theorem keeps_each {start found between : Progress} (earlier later : List Chain)
    (keeps : Keeps settings holds
      ⟨depth, .sectionTag name inverted line children :: rest, chain, start⟩)
    (inside : ∀ inner between, Keeps settings holds ⟨depth, children, inner, between⟩ →
      holds between (Render.nodes settings (expandPartial settings depth) children inner between))
    (chains : sectionChains settings name inverted chain start = .ok (earlier ++ later) found)
    (before : earlier.forM (Render.nodes settings (expandPartial settings depth) children) found =
      .ok () between) :
    holds between
      (later.forM (Render.nodes settings (expandPartial settings depth) children) between) := by
  induction later generalizing earlier between with
  | nil => exact keeps.nothing between
  | cons inner later ih =>
      have here := inside inner between (keeps_next keeps (.child chains before))
      have whole : holds between ((Render.nodes settings (expandPartial settings depth) children
          inner >>= fun _ => pure ()) between) := by
        simpa only [bind_pure_comp, id_map'] using here
      apply keeps_bind keeps whole
      intro _ after ran
      -- The chain that was rendered is among the earlier ones of those that follow.
      apply ih (earlier ++ [inner])
      · simpa using chains
      · simp only [List.forM_eq_forM, List.forM_append] at before ⊢
        rw [bind_of_ok before]
        exact (bind_of_ok ran _).trans rfl

def KeepsExpand (settings : Settings) (depth : Nat)
    (holds : Progress → EStateM.Result Fault Progress Unit → Prop) : Prop :=
  ∀ name indent linked rest chain start,
    Keeps settings holds ⟨depth, .partialTag name indent linked :: rest, chain, start⟩ →
    holds start (expandPartial settings depth name indent linked chain start)

mutual
theorem keeps_node (expand : KeepsExpand settings depth holds) (first : Node) (rest : List Node)
    (chain : Chain) (start : Progress)
    (keeps : Keeps settings holds ⟨depth, first :: rest, chain, start⟩) :
    holds start (node settings (expandPartial settings depth) first chain start) := by
  have act := keeps.own depth first rest chain start (.here _)
  match first with
  | .text _ | .variableTag _ _ | .unknownTag _ | .unknown => exact act
  | .partialTag name indent linked => exact expand name indent linked rest chain start keeps
  | .sectionTag name inverted _ children =>
      rw [node, section_eq]
      apply keeps_bind keeps act
      intro chains found ran
      exact keeps_each [] chains keeps (keeps_nodes expand children) ran rfl

theorem keeps_nodes (expand : KeepsExpand settings depth holds) (siblings : List Node)
    (chain : Chain) (start : Progress)
    (keeps : Keeps settings holds ⟨depth, siblings, chain, start⟩) :
    holds start (Render.nodes settings (expandPartial settings depth) siblings chain start) := by
  match siblings with
  | [] => exact keeps.nothing start
  | first :: rest =>
      have act := keeps_node expand first rest chain start keeps
      apply keeps_bind keeps
      · simpa only [bind_pure_comp, id_map'] using act
      · intro _ after ran
        exact keeps_nodes expand rest chain after (keeps_next keeps (.sibling ran))
end

theorem keeps_expand (depth : Nat) : KeepsExpand settings depth holds := by
  induction depth with
  | zero =>
      intro name indent linked rest chain start keeps
      exact keeps.own 0 _ rest chain start (.here _)
  | succ depth ih =>
      intro name indent linked rest chain start keeps
      rw [expand_eq]
      apply keeps_bind keeps (keeps.own _ _ rest chain start (.here _))
      intro inside after ran
      exact keeps_nodes ih inside chain after (keeps_next keeps (.included ran))

/-- A rendering keeps what the acts of the nodes it comes to keep. -/
theorem run_keeps {ahead : Ahead} (keeps : Keeps settings holds ahead) :
    holds ahead.start (ahead.run settings) :=
  keeps_nodes (keeps_expand ahead.depth) ahead.nodes ahead.chain ahead.start keeps

end Keeping

section Failing
variable {settings} {fault : Fault} {after : Progress}

theorem error_of_discarded {α : Type} {act : Render α} {start : Progress}
    (failed : (act >>= fun _ => (pure () : Render Unit)) start = .error fault after) :
    act start = .error fault after := by
  cases ran : act start with
  | ok result between =>
      rw [bind_of_ok ran] at failed
      cases failed
  | error fault' between =>
      rw [bind_of_error ran] at failed
      cases failed
      rfl

theorem node_fails {depth : Nat} {first : Node} {chain : Chain} {start : Progress}
    (fails : own settings depth first chain start = .error fault after) :
    node settings (expandPartial settings depth) first chain start = .error fault after := by
  cases first with
  | text _ | variableTag _ _ | unknownTag _ | unknown => exact fails
  | sectionTag name inverted _ children =>
      rw [node, section_eq]
      exact bind_of_error (error_of_discarded fails) _
  | partialTag name indent linked =>
      cases depth with
      | zero => exact fails
      | succ depth =>
          rw [node, expand_eq]
          exact bind_of_error (error_of_discarded fails) _

/-- What stands behind a node that fails is not looked at. -/
theorem siblings_fail {depth : Nat} {first : Node} {chain : Chain} {start : Progress}
    (fails : node settings (expandPartial settings depth) first chain start = .error fault after)
    (rest : List Node) :
    Render.nodes settings (expandPartial settings depth) (first :: rest) chain start =
      .error fault after :=
  bind_of_error fails _

theorem next_fails {a b : Ahead} (next : Next settings a b)
    (fails : b.run settings = .error fault after) : a.run settings = .error fault after := by
  cases next with
  | sibling ran => exact (bind_of_ok ran _).trans fails
  | child chains before =>
      apply siblings_fail
      rw [node, section_eq, bind_of_ok chains]
      simp only [List.forM_eq_forM, List.forM_append] at before ⊢
      exact (bind_of_ok before _).trans (bind_of_error fails _)
  | included ran =>
      apply siblings_fail
      rw [node, expand_eq, bind_of_ok ran]
      exact fails

structure FailsAt (settings : Settings) (fault : Fault) (after : Progress) (ahead failing : Ahead)
    (node : Node) : Prop where
  reached : Reaches settings ahead failing
  first : ∃ rest, failing.nodes = node :: rest
  fails : own settings failing.depth node failing.chain failing.start = .error fault after

/-- A rendering fails exactly if it comes to a node whose own act fails. -/
theorem run_fails_iff (ahead : Ahead) :
    ahead.run settings = .error fault after ↔
      ∃ failing node, FailsAt settings fault after ahead failing node := by
  constructor
  · -- Nothing is done after a failure, so the failure of a part is that of the whole.
    intro failed
    have keeps : Keeps settings (fun _ result => result = .error fault after →
        ∃ failing node, FailsAt settings fault after ahead failing node) ahead :=
      { nothing := by
          intro start same
          cases same
        andThen := fun _ _ _ _ later => later
        own := fun _ first rest _ _ reached fails => ⟨_, first, reached, ⟨rest, rfl⟩, fails⟩ }
    exact run_keeps keeps failed
  · rintro ⟨⟨depth, nodes, chain, start⟩, node, reached, ⟨rest, rfl⟩, fails⟩
    -- The failure goes back through every step that led to it.
    have here : (⟨depth, node :: rest, chain, start⟩ : Ahead).run settings = .error fault after :=
      siblings_fail (node_fails fails) rest
    generalize (⟨depth, node :: rest, chain, start⟩ : Ahead) = failing at reached here
    induction reached with
    | here => exact here
    | later next _ ih => exact next_fails next (ih here)

end Failing

section Writing
variable {settings}

def Quiet {α : Type} (act : Render α) : Prop := ∀ start, (final (act start)).sink = start.sink

theorem quiet_bind {α β : Type} {act : Render α} {next : α → Render β} (first : Quiet act)
    (rest : ∀ result, Quiet (next result)) : Quiet (act >>= next) := by
  intro start
  have kept := first start
  cases ran : act start with
  | ok result after =>
      rw [ran] at kept
      rw [bind_of_ok ran]
      exact (rest result after).trans kept
  | error fault after =>
      rw [ran] at kept
      rw [bind_of_error ran]
      exact kept

theorem quiet_on_host {α : Type} (read : Eval α) : Quiet (onHost read) := by
  intro start
  unfold onHost
  cases read start.host <;> rfl

theorem quiet_section_chains (name : Text) (inverted : Bool) (chain : Chain) :
    Quiet (sectionChains settings name inverted chain) := by
  apply quiet_bind (quiet_on_host _)
  intro found
  apply quiet_bind (quiet_on_host _)
  intro empty
  split
  · exact fun _ => rfl
  · split
    · exact fun _ => rfl
    · apply quiet_bind (quiet_on_host _)
      intro target
      apply quiet_bind (quiet_on_host _)
      rintro (_ | _ | _)
      · exact fun _ => rfl
      · exact quiet_bind (quiet_on_host _) fun _ _ => rfl
      · exact fun _ => rfl

theorem quiet_get {α : Type} {next : Progress → Render α}
    (rest : ∀ progress, Quiet (next progress)) : Quiet (get >>= next) := fun start => rest start start

theorem quiet_fetch (name indent : Text) (linked : Bool) :
    Quiet (fetchPartial settings name indent linked) := by
  rw [fetch_eq]
  apply quiet_bind
  · split
    · exact quiet_on_host _
    · exact fun _ => rfl
  · intro fetched
    apply quiet_get
    intro progress
    split <;> exact fun _ => rfl

theorem quiet_partial_nodes (name indent : Text) (linked : Bool) :
    Quiet (partialNodes settings name indent linked) := by
  apply quiet_bind (quiet_fetch name indent linked)
  intro source
  apply quiet_bind (fun _ => rfl)
  intro _
  split
  · exact fun _ => rfl
  · exact quiet_bind (fun _ => rfl) fun _ _ => rfl

inductive Prints : Node → Text → Prop
  | text (content : Text) : Prints (.text content) content
  | value (name : Text) (escape : Bool) (v : Value) (host : Host) :
      Prints (.variableTag name escape)
        (if escape then (v.shown host).escapeHtml else v.shown host)

/-- Either nothing is written or `text` is, and then nothing fails any more. -/
def WritesOnce (start : Progress) (printed : Text → Prop)
    (result : EStateM.Result Fault Progress Unit) : Prop :=
  (final result).sink = start.sink ∨
    ∃ text after, result = .ok () after ∧ printed text ∧
      after.sink.written = text :: start.sink.written

theorem writes_after_quiet {α : Type} {act : Render α} {next : α → Render Unit} {start : Progress}
    {printed : Text → Prop} (quiet : Quiet act)
    (rest : ∀ result after, WritesOnce after printed (next result after)) :
    WritesOnce start printed ((act >>= next) start) := by
  have kept := quiet start
  cases ran : act start with
  | error fault after =>
      rw [ran] at kept
      rw [bind_of_error ran]
      exact Or.inl kept
  | ok result after =>
      rw [ran] at kept
      rw [bind_of_ok ran]
      have later := rest result after
      unfold WritesOnce at later ⊢
      rw [← show after.sink = start.sink from kept]
      exact later

theorem write_once (text : Text) (start : Progress) :
    WritesOnce start (· = text) (write text start) := by
  unfold write
  split
  · exact Or.inl rfl
  · exact Or.inr ⟨text, _, rfl, rfl, rfl⟩

theorem variable_writes (name : Text) (escape : Bool) (chain : Chain) (start : Progress) :
    WritesOnce start (Prints (.variableTag name escape))
      (variableTag settings name escape chain start) := by
  apply writes_after_quiet (quiet_on_host _)
  intro found looked
  split
  · exact Or.inl rfl
  · apply writes_after_quiet (quiet_on_host _)
    intro v stripped
    split
    · exact Or.inl rfl
    · rcases write_once
        (if escape then (v.shown stripped.host).escapeHtml else v.shown stripped.host)
        stripped with kept | ⟨_, after, ran, rfl, wrote⟩
      · exact Or.inl kept
      · exact Or.inr ⟨_, after, ran, .value name escape v stripped.host, wrote⟩

theorem own_writes (depth : Nat) (first : Node) (chain : Chain) (start : Progress) :
    WritesOnce start (Prints first) (own settings depth first chain start) := by
  cases first with
  | text content =>
      rcases write_once content start with kept | ⟨_, after, ran, rfl, wrote⟩
      · exact Or.inl kept
      · exact Or.inr ⟨_, after, ran, .text _, wrote⟩
  | variableTag name escape => exact variable_writes name escape chain start
  | sectionTag name inverted _ _ =>
      exact Or.inl (quiet_bind (quiet_section_chains name inverted chain) (fun _ _ => rfl) start)
  | partialTag name indent linked =>
      cases depth with
      | zero => exact Or.inl rfl
      | succ depth =>
          exact Or.inl (quiet_bind (quiet_partial_nodes name indent linked) (fun _ _ => rfl) start)
  | unknownTag _ | unknown => exact Or.inl rfl

end Writing
end Ahead
end Mustache
