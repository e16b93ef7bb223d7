import Mathlib
import Mustache.Proofs.Merging
import Mustache.Proofs.Reaching

/-!
What a rendering does to its sink. It only adds pieces, and which ones does not depend on
those that are there already. So a text is the same whether it is collected first or written
as it is made, and a failure leaves exactly what was written before the tag that failed.
-/

namespace Mustache

open Render

def onState {ε σ α : Type} (change : σ → σ) : EStateM.Result ε σ α → EStateM.Result ε σ α
  | .ok result state => .ok result (change state)
  | .error fault state => .error fault (change state)

def Progress.behind (earlier : List Text) (progress : Progress) : Progress :=
  { progress with sink := ⟨progress.sink.written ++ earlier.reverse, progress.sink.room⟩ }

@[simp] theorem pieces_behind (earlier : List Text) (progress : Progress) :
    (progress.behind earlier).sink.pieces = earlier ++ progress.sink.pieces := by
  simp [Progress.behind, Sink.pieces]

@[simp] theorem host_behind (earlier : List Text) (progress : Progress) :
    (progress.behind earlier).host = progress.host := rfl

theorem behind_of_room {progress : Progress} {sink : Sink} (roomy : sink.room = none) :
    ({ progress with sink := .open none } : Progress).behind sink.pieces =
      { progress with sink := sink } := by
  cases sink
  cases roomy
  simp [Progress.behind, Sink.open, Sink.pieces]

/-- A rendering that does not look at what was written before it, and leaves that as it is. -/
def Appends {α : Type} (act : Render α) : Prop :=
  ∀ earlier start, act (start.behind earlier) = onState (·.behind earlier) (act start)

section Steps
variable {α β : Type}

theorem appends_pure (result : α) : Appends (pure result) := fun _ _ => rfl

theorem appends_throw (fault : Fault) : Appends (throw fault : Render α) := fun _ _ => rfl

theorem appends_bind {act : Render α} {next : α → Render β} (first : Appends act)
    (rest : ∀ result, Appends (next result)) : Appends (act >>= next) := by
  intro earlier start
  have here := first earlier start
  cases ran : act start with
  | ok result after =>
      rw [ran] at here
      rw [bind_of_ok ran, bind_of_ok here]
      exact rest result earlier after
  | error fault after =>
      rw [ran] at here
      rw [bind_of_error ran, bind_of_error here]
      rfl

theorem appends_on_host (read : Eval α) : Appends (onHost read) := by
  intro earlier start
  unfold onHost
  rw [host_behind]
  cases read start.host <;> rfl

theorem appends_get {next : Progress → Render α} (rest : ∀ progress, Appends (next progress))
    (blind : ∀ earlier progress, next (progress.behind earlier) = next progress) :
    Appends (get >>= next) := by
  intro earlier start
  show next (start.behind earlier) (start.behind earlier) = _
  rw [blind]
  exact rest start earlier start

theorem appends_write (text : Text) : Appends (write text) := by
  rintro earlier ⟨host, ⟨written, room⟩, notes⟩
  cases room with
  | none => rfl
  | some left =>
      cases left with
      | zero => rfl
      | succ left => rfl

theorem appends_report (notes : List Note) : Appends (report notes) := fun _ _ => rfl

theorem appends_for (items : List α) {body : α → Render Unit} (each : ∀ item, Appends (body item)) :
    Appends (items.forM body) := by
  induction items with
  | nil => exact appends_pure ()
  | cons item rest ih => exact appends_bind (each item) fun _ => ih

end Steps

section Nodes
variable (settings : Settings)

theorem appends_variable (name : Text) (escape : Bool) (chain : Chain) :
    Appends (variableTag settings name escape chain) := by
  apply appends_bind (appends_on_host _)
  intro found
  split
  · exact appends_pure ()
  · apply appends_bind (appends_on_host _)
    intro v
    split
    · exact appends_pure ()
    · exact appends_get (fun _ => appends_write _) fun _ _ => rfl

theorem appends_section (name : Text) (inverted : Bool) {body : Chain → Render Unit}
    (inside : ∀ chain, Appends (body chain)) (chain : Chain) :
    Appends (sectionTag settings name inverted body chain) := by
  apply appends_bind (appends_on_host _)
  intro found
  apply appends_bind (appends_on_host _)
  intro empty
  split
  · exact appends_pure ()
  · split
    · exact inside chain
    · apply appends_bind (appends_on_host _)
      intro target
      apply appends_bind (appends_on_host _)
      rintro (_ | _ | _)
      · exact inside chain
      · exact appends_bind (appends_on_host _) fun items => appends_for items fun _ => inside _
      · exact inside (target :: chain)

variable {settings} {expand : Expand}

mutual
theorem appends_node
    (expands : ∀ name indent linked chain, Appends (expand name indent linked chain))
    (first : Node) (chain : Chain) : Appends (node settings expand first chain) := by
  match first with
  | .text content => exact appends_write content
  | .variableTag name escape => exact appends_variable settings name escape chain
  | .sectionTag name inverted _ children =>
      exact appends_section settings name inverted (appends_nodes expands children) chain
  | .partialTag name indent linked => exact expands name indent linked chain
  | .unknownTag _ | .unknown => exact appends_throw _

theorem appends_nodes
    (expands : ∀ name indent linked chain, Appends (expand name indent linked chain))
    (siblings : List Node) (chain : Chain) : Appends (nodes settings expand siblings chain) := by
  match siblings with
  | [] => exact appends_pure ()
  | first :: rest =>
      exact appends_bind (appends_node expands first chain) fun _ =>
        appends_nodes expands rest chain
end

theorem appends_fetch (name indent : Text) (linked : Bool) :
    Appends (fetchPartial settings name indent linked) := by
  rw [fetch_eq]
  apply appends_bind
  · split
    · exact appends_on_host _
    · exact appends_pure _
  · intro fetched
    refine appends_get (fun progress => ?_) fun _ _ => rfl
    split
    · exact appends_pure _
    · exact appends_throw _

theorem appends_expand (depth : Nat) (name indent : Text) (linked : Bool) (chain : Chain) :
    Appends (expandPartial settings depth name indent linked chain) := by
  induction depth generalizing name indent linked chain with
  | zero => exact appends_throw _
  | succ depth ih =>
      apply appends_bind (appends_fetch name indent linked)
      intro source
      apply appends_bind (appends_report _)
      intro _
      split
      · exact appends_throw _
      · exact appends_bind (appends_report _) fun _ => appends_nodes ih _ chain

theorem appends_run (depth : Nat) (siblings : List Node) (chain : Chain) :
    Appends (nodes settings (expandPartial settings depth) siblings chain) :=
  appends_nodes (appends_expand depth) siblings chain

theorem behind_fresh (progress : Progress) :
    ({ progress with sink := ⟨[], progress.sink.room⟩ } : Progress).behind progress.sink.pieces =
      progress := by
  simp [Progress.behind, Sink.pieces]

/-- What was written before a rendering stays, however it ends. -/
theorem kept_of_appends {α : Type} {act : Render α} (appends : Appends act) (start : Progress) :
    start.sink.pieces <+: (final (act start)).sink.pieces := by
  -- The rendering from an empty sink, put behind what was there.
  let fresh : Progress := { start with sink := ⟨[], start.sink.room⟩ }
  have here := appends start.sink.pieces fresh
  rw [behind_fresh start] at here
  rw [here]
  cases act fresh <;> simp [onState, final]

/-- Siblings that fail do so at the first that fails, whatever stands behind it. -/
theorem first_failing {siblings : List Node} {chain : Chain} {start after : Progress}
    {fault : Fault} (failed : nodes settings expand siblings chain start = .error fault after) :
    ∃ before tag rest reached, siblings = before ++ tag :: rest ∧
      nodes settings expand before chain start = .ok () reached ∧
      node settings expand tag chain reached = .error fault after := by
  induction siblings generalizing start with
  | nil => cases failed
  | cons first rest ih =>
      cases ran : node settings expand first chain start with
      | error fault' stopped =>
          have same := (bind_of_error ran _).symm.trans failed
          exact ⟨[], first, rest, start, rfl, rfl, ran.trans same⟩
      | ok _ between =>
          have later := (bind_of_ok ran _).symm.trans failed
          obtain ⟨before, tag, behind, reached, rfl, went, fails⟩ := ih later
          exact ⟨first :: before, tag, behind, reached, rfl, (bind_of_ok ran _).trans went, fails⟩

end Nodes

def Template.ahead (depth : Nat) (template : Template) (contexts : Chain) (start : Progress) :
    Ahead :=
  ⟨depth, template.nodes, contexts, start⟩

/-- A rendering fails having written `written`. It does so at a node whose own act fails and
writes nothing, and the nodes behind that one, or behind the root it is in, do not matter. -/
structure StopsAfter (registry : Registry) (depth : Nat) (template : Template) (contexts : Chain)
    (fault : Fault) (written : List Text) (start later : Progress) : Prop where
  fails : template.renderTo registry depth contexts start = .error fault later
  adds : later.sink.pieces = start.sink.pieces ++ written
  /-- All of `written` stands in the sink when the failing node is reached. -/
  reached : ∃ failing node,
    Ahead.FailsAt (template.settings registry) fault later
      (template.ahead depth contexts start) failing node ∧
    failing.start.sink = later.sink ∧
    ∀ others, Ahead.run (template.settings registry) { failing with nodes := node :: others } =
      .error fault later
  root : ∃ before node rest reached, template.nodes = before ++ node :: rest ∧
    { template with nodes := before }.renderTo registry depth contexts start = .ok () reached ∧
    ∀ others, { template with nodes := before ++ node :: others }.renderTo registry depth contexts
      start = .error fault later

section Streaming
variable (template : Template) (registry : Registry) (depth : Nat) (contexts : Chain)

theorem render_to_behind (start : Progress) {sink : Sink} (roomy : sink.room = none) :
    template.renderTo registry depth contexts { start with sink } =
      onState (·.behind sink.pieces)
        (template.renderTo registry depth contexts { start with sink := .open none }) := by
  have appends : Appends (template.renderTo registry depth contexts) :=
    appends_run depth template.nodes contexts
  rw [← appends, behind_of_room roomy]

theorem stops_after {fault : Fault} {start later : Progress} {written : List Text}
    (fails : template.renderTo registry depth contexts start = .error fault later)
    (adds : later.sink.pieces = start.sink.pieces ++ written) :
    StopsAfter registry depth template contexts fault written start later where
  fails := fails
  adds := adds
  reached := by
    obtain ⟨failing, node, at_⟩ :=
      (Ahead.run_fails_iff (template.ahead depth contexts start)).mp fails
    refine ⟨failing, node, at_, ?_, ?_⟩
    · -- A node that writes does not fail any more, so the failing one has written nothing.
      rcases Ahead.own_writes failing.depth node failing.chain failing.start with
        kept | ⟨_, _, ran, -⟩
      · rw [at_.fails] at kept
        exact kept.symm
      · cases at_.fails.symm.trans ran
    · exact Ahead.siblings_fail (Ahead.node_fails at_.fails)
  root := by
    obtain ⟨before, node, rest, reached, split, went, failed⟩ := first_failing fails
    refine ⟨before, node, rest, reached, split, went, fun others => ?_⟩
    show nodes _ _ (before ++ node :: others) contexts start = _
    rw [nodes_append]
    exact (bind_of_ok went _).trans (Ahead.siblings_fail failed others)

variable {template registry depth contexts}

theorem render_to_of_render {start after : Progress} {text : Text}
    (rendered : template.render registry depth contexts start = .ok text after) :
    ∃ stopped, template.renderTo registry depth contexts { start with sink := .open none } =
        .ok () stopped ∧
      text = stopped.sink.text ∧ after = { stopped with sink := start.sink } := by
  unfold Template.render toText at rendered
  split at rendered
  · next stopped ran =>
      cases rendered
      exact ⟨stopped, ran, rfl, rfl⟩
  · cases rendered

theorem render_to_of_render_error {start after : Progress} {fault : Fault}
    (rendered : template.render registry depth contexts start = .error fault after) :
    ∃ stopped, template.renderTo registry depth contexts { start with sink := .open none } =
        .error fault stopped ∧ after = { stopped with sink := start.sink } := by
  unfold Template.render toText at rendered
  split at rendered
  · cases rendered
  · next stopped ran =>
      cases rendered
      exact ⟨stopped, ran, rfl⟩

variable (template registry depth contexts)

/-- A text is written to a sink as it is collected in one of its own. If the rendering fails,
what it adds to the sink does not depend on the sink, and is what was written up to the node
that fails. No rendering changes what is in the sink already. -/
theorem streaming_agrees_with_buffering (start : Progress) :
    (∀ text after, template.render registry depth contexts start = .ok text after →
      ∀ sink : Sink, sink.room = none → ∃ later,
        template.renderTo registry depth contexts { start with sink } = .ok () later ∧
          later.sink.text = sink.text ++ text ∧ later.host = after.host) ∧
    (∀ fault after, template.render registry depth contexts start = .error fault after →
      ∃ written, ∀ sink : Sink, sink.room = none → ∃ later,
        StopsAfter registry depth template contexts fault written { start with sink } later ∧
          later.host = after.host) ∧
    ∀ ahead : Ahead, ahead.start.sink.pieces <+:
      (final (ahead.run (template.settings registry))).sink.pieces := by
  refine ⟨?_, ?_, fun ahead => kept_of_appends (appends_run _ _ _) ahead.start⟩
  · intro text after rendered sink roomy
    obtain ⟨stopped, ran, rfl, rfl⟩ := render_to_of_render rendered
    refine ⟨stopped.behind sink.pieces, ?_, ?_, rfl⟩
    · rw [render_to_behind template registry depth contexts start roomy, ran]
      rfl
    · simp only [Sink.text, pieces_behind, List.flatten_append]
  · intro fault after rendered
    obtain ⟨stopped, ran, rfl⟩ := render_to_of_render_error rendered
    refine ⟨stopped.sink.pieces, fun sink roomy => ⟨stopped.behind sink.pieces, ?_, rfl⟩⟩
    apply stops_after
    · rw [render_to_behind template registry depth contexts start roomy, ran]
      rfl
    · exact pieces_behind sink.pieces stopped

end Streaming

def listPage : Template :=
  ⟨[.text ['a'], .sectionTag ['l'] false 1 [.variableTag ['n'] true], .text ['z']], .standard,
    .empty, .standard⟩

def listData : Chain :=
  [.mapping .dict none [(.str ['l'], .sequence .list
    [.mapping .dict none [(.str ['n'], .str ['b'])], .mapping .dict none []])]]

theorem streaming_of_list_page :
    (∃ later, listPage.renderTo .standard 0 listData ⟨.initial, ⟨[['s']], none⟩, []⟩ =
      .ok () later ∧ later.sink.text = ['s', 'a', 'b', 'z']) ∧
    ∃ written later, StopsAfter .standard 0 (listPage.withErrorOnMissing true) listData
        (.missingVariable ['n']) written ⟨.initial, ⟨[['s']], none⟩, []⟩ later ∧
      later.sink.text = ['s', 'a', 'b'] := by
  have rendered : listPage.render .standard 0 listData ⟨.initial, .open none, []⟩ =
      .ok ['a', 'b', 'z'] ⟨.initial, .open none, []⟩ := by cbv
  have failed : (listPage.withErrorOnMissing true).render .standard 0 listData
      ⟨.initial, .open none, []⟩ =
        .error (.missingVariable ['n']) ⟨.initial, .open none, []⟩ := by cbv
  have stopped : (listPage.withErrorOnMissing true).renderTo .standard 0 listData
      ⟨.initial, ⟨[['s']], none⟩, []⟩ =
        .error (.missingVariable ['n']) ⟨.initial, ⟨[['b'], ['a'], ['s']], none⟩, []⟩ := by cbv
  constructor
  · obtain ⟨later, ran, text, -⟩ :=
      (streaming_agrees_with_buffering listPage .standard 0 listData ⟨.initial, .open none, []⟩).1
        _ _ rendered ⟨[['s']], none⟩ rfl
    exact ⟨later, ran, text⟩
  · obtain ⟨written, stops⟩ :=
      (streaming_agrees_with_buffering (listPage.withErrorOnMissing true) .standard 0 listData
        ⟨.initial, .open none, []⟩).2.1 _ _ failed
    obtain ⟨later, stop, -⟩ := stops ⟨[['s']], none⟩ rfl
    cases stop.fails.symm.trans stopped
    exact ⟨written, _, stop, rfl⟩

end Mustache
