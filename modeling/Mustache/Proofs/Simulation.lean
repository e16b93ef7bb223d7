import Mustache.Proofs.HostData
import Mustache.Render

/-!
Two renderings compared, the second of which follows the first. They write the same
text, in pieces of whatever length, read the host's data in the same way and end in the
same way. Renderings of the same tree agree, and so do those of trees put together in the
same way from parts that agree.
-/

namespace Mustache

/-- What two renderings are compared under. -/
structure Terms where
  /-- How the questions to the providers compare. -/
  asks : List Text → List Text → Prop
  more : ∀ name a b, asks a b → asks (name :: a) (name :: b)
  /-- What is true of the host's data all through the first rendering. -/
  holds : Host → Prop
  /-- The faults of the first rendering after which nothing is compared. -/
  spares : Fault → Prop

structure Progress.Like (asks : List Text → List Text → Prop) (a b : Progress) : Prop where
  host : Host.Like asks a.host b.host
  text : a.sink.text = b.sink.text
  roomy : a.sink.room = none
  roomy' : b.sink.room = none

namespace Terms

def Covers {α : Type} (terms : Terms) (start : Progress)
    (result : EStateM.Result Fault Progress α) : Prop :=
  (∀ fault after, result = .error fault after → ¬ terms.spares fault) ∧
    ∀ host, start.host.Before host → host.Before (final result).host → terms.holds host

def strict : Terms := ⟨Eq, fun _ _ _ same => same ▸ rfl, fun _ => True, fun _ => False⟩

theorem strict_covers {α : Type} (start : Progress) (result : EStateM.Result Fault Progress α) :
    strict.Covers start result :=
  ⟨fun _ _ _ spared => spared, fun _ _ _ => trivial⟩

end Terms

/-- `follow` does what `lead` does. -/
structure Sim {α : Type} (terms : Terms) (lead follow : Render α) : Prop where
  grows : ∀ start : Progress, start.sink.room = none →
    start.host.Before (final (lead start)).host ∧ (final (lead start)).sink.room = none
  agree : ∀ a b : Progress, Progress.Like terms.asks a b → terms.Covers a (lead a) →
    Agree (Progress.Like terms.asks) (lead a) (follow b)

section Steps
variable {terms : Terms} {α β : Type}

theorem sim_pure (result : α) : Sim terms (pure result) (pure result) where
  grows _ roomy := ⟨Host.before_refl _, roomy⟩
  agree _ _ like _ := ⟨rfl, like⟩

theorem sim_throw (fault : Fault) :
    Sim terms (throw fault : Render α) (throw fault) where
  grows _ roomy := ⟨Host.before_refl _, roomy⟩
  agree _ _ like _ := ⟨rfl, like⟩

theorem sim_spared (fault : Fault) (spared : terms.spares fault) (follow : Render α) :
    Sim terms (throw fault) follow where
  grows _ roomy := ⟨Host.before_refl _, roomy⟩
  agree a _ _ covers := absurd spared (covers.1 fault a rfl)

theorem sim_bind {lead follow : Render α} {next next' : α → Render β}
    (first : Sim terms lead follow) (rest : ∀ result, Sim terms (next result) (next' result)) :
    Sim terms (lead >>= next) (follow >>= next') where
  grows start roomy := by
    have grown := first.grows start roomy
    cases ran : lead start with
    | error fault after =>
        rw [ran] at grown
        rw [bind_of_error ran]
        exact grown
    | ok result after =>
        rw [ran] at grown
        rw [bind_of_ok ran]
        have later := (rest result).grows after grown.2
        exact ⟨Host.before_trans grown.1 later.1, later.2⟩
  agree a b like covers := by
    have agree := first.agree a b like
    have grown := first.grows a like.roomy
    cases ran : lead a with
    | error fault after =>
        rw [bind_of_error ran] at covers ⊢
        rw [ran] at agree
        obtain ⟨after', ran', alike⟩ := agree_of_error
          (agree ⟨fun _ _ same => covers.1 _ after (by cases same; rfl), covers.2⟩)
        rw [bind_of_error ran']
        exact ⟨rfl, alike⟩
    | ok result after =>
        rw [bind_of_ok ran] at covers ⊢
        rw [ran] at agree grown
        -- Whatever lies between `a` and `after` lies between `a` and the end.
        have later := (rest result).grows after grown.2
        obtain ⟨after', ran', alike⟩ := agree_of_ok
          (agree ⟨fun _ _ failed => (nomatch failed),
            fun host first last => covers.2 host first (Host.before_trans last later.1)⟩)
        rw [bind_of_ok ran']
        exact (rest result).agree after after' alike
          ⟨covers.1, fun host first last =>
            covers.2 host (Host.before_trans grown.1 first) last⟩

theorem sim_on_host {act : Eval α} (steady : Steady terms.asks act) :
    Sim terms (Render.onHost act) (Render.onHost act) where
  grows start roomy := by
    have grown := steady.grows start.host
    unfold Render.onHost
    generalize act start.host = ran at grown
    cases ran <;> exact ⟨grown, roomy⟩
  agree a b like _ := by
    have agree := steady.agree a.host b.host like.host
    unfold Render.onHost
    generalize act a.host = ran at agree
    generalize act b.host = ran' at agree
    cases ran <;> cases ran'
    · exact ⟨agree.1, { like with host := agree.2 }⟩
    · exact absurd agree id
    · exact absurd agree id
    · exact ⟨agree.1, { like with host := agree.2 }⟩

theorem write_roomy (text : Text) (start : Progress) (roomy : start.sink.room = none) :
    Render.write text start =
      .ok () { start with sink := ⟨text :: start.sink.written, none⟩ } := by
  rw [Render.write, roomy]
  rfl

theorem text_cons (text : Text) (written : List Text) (room : Option Nat) :
    (⟨text :: written, room⟩ : Sink).text = (⟨written, room⟩ : Sink).text ++ text := by
  simp [Sink.text, Sink.pieces]

theorem sim_write (text : Text) : Sim terms (Render.write text) (Render.write text) where
  grows start roomy := by
    rw [write_roomy text start roomy]
    exact ⟨Host.before_refl _, rfl⟩
  agree a b like _ := by
    rw [write_roomy text a like.roomy, write_roomy text b like.roomy']
    refine ⟨rfl, { like with text := ?_, roomy := rfl, roomy' := rfl }⟩
    rw [text_cons, text_cons]
    exact congrArg (· ++ text) like.text

theorem sim_report (notes notes' : List Note) :
    Sim terms (Render.report notes) (Render.report notes') where
  grows _ roomy := ⟨Host.before_refl _, roomy⟩
  agree _ _ like _ := ⟨rfl, { like with }⟩

theorem sim_get {next : Progress → Render α} (rest : ∀ progress, Sim terms (next progress) (next progress))
    (same : ∀ a b, Progress.Like terms.asks a b → next a = next b) :
    Sim terms (get >>= next) (get >>= next) where
  grows start roomy := (rest start).grows start roomy
  agree a b like covers := by
    show Agree _ (next a a) (next b b)
    rw [← same a b like]
    exact (rest a).agree a b like covers

theorem sim_ite {c : Prop} [Decidable c] {lead lead' follow follow' : Render α}
    (yes : Sim terms lead follow) (no : Sim terms lead' follow') :
    Sim terms (if c then lead else lead') (if c then follow else follow') := by
  split
  · exact yes
  · exact no

theorem sim_for (items : List α) {body body' : α → Render Unit}
    (each : ∀ item, Sim terms (body item) (body' item)) :
    Sim terms (items.forM body) (items.forM body') := by
  induction items with
  | nil => exact sim_pure _
  | cons item rest ih =>
      show Sim terms (body item >>= fun _ => rest.forM body) (body' item >>= fun _ => rest.forM body')
      exact sim_bind (each item) fun _ => ih

end Steps

section Strict
variable {terms : Terms} {α : Type} {asks : List Text → List Text → Prop}

theorem like_of_strict {a b c : Progress} (first : Progress.Like Eq a b)
    (second : Progress.Like asks b c) : Progress.Like asks a c where
  host :=
    { calls := first.host.calls.trans second.host.calls
      changes := first.host.changes.trans second.host.changes
      asked := fun number => first.host.asked number ▸ second.host.asked number }
  text := first.text.trans second.text
  roomy := first.roomy
  roomy' := second.roomy'

theorem strict_of_like {a b c : Progress} (first : Progress.Like asks a b)
    (second : Progress.Like Eq b c) : Progress.Like asks a c where
  host :=
    { calls := first.host.calls.trans second.host.calls
      changes := first.host.changes.trans second.host.changes
      asked := fun number => second.host.asked number ▸ first.host.asked number }
  text := first.text.trans second.text
  roomy := first.roomy
  roomy' := second.roomy'

theorem like_flip {asks' : List Text → List Text → Prop} (flip : ∀ a b, asks a b → asks' b a)
    {a b : Progress} (like : Progress.Like asks a b) : Progress.Like asks' b a where
  host :=
    { calls := like.host.calls.symm
      changes := like.host.changes.symm
      asked := fun number => flip _ _ (like.host.asked number) }
  text := like.text.symm
  roomy := like.roomy'
  roomy' := like.roomy

theorem like_self (a : Progress) (roomy : a.sink.room = none) : Progress.Like Eq a a where
  host := ⟨rfl, rfl, fun _ => rfl⟩
  text := rfl
  roomy := roomy
  roomy' := roomy

theorem strict_agree {lead follow : Render α} (same : Sim .strict lead follow) (a : Progress)
    (roomy : a.sink.room = none) : Agree (Progress.Like Eq) (lead a) (follow a) :=
  same.agree a a (like_self a roomy) (Terms.strict_covers a _)

theorem sim_strict_lead {lead' lead follow : Render α} (same : Sim .strict lead' lead)
    (sim : Sim terms lead follow) : Sim terms lead' follow where
  grows := same.grows
  agree a b like covers := by
    have strict := strict_agree same a like.roomy
    refine agree_trans (fun x y z (first : Progress.Like Eq x y)
      (second : Progress.Like terms.asks y z) => like_of_strict first second) strict
      (sim.agree a b like ⟨?_, ?_⟩)
    · intro fault after failed
      rw [failed] at strict
      cases ran : lead' a with
      | ok result state => simp [ran, Agree] at strict
      | error fault' state =>
          rw [ran] at strict
          obtain ⟨rfl, _⟩ := strict
          exact covers.1 fault' state ran
    · intro host first last
      have ended := Host.before_of_changes (agree_final strict).host.changes.symm
      exact covers.2 host first (Host.before_trans last ended)

theorem sim_strict_follow {lead follow follow' : Render α} (sim : Sim terms lead follow)
    (same : Sim .strict follow follow') : Sim terms lead follow' where
  grows := sim.grows
  agree a b like covers :=
    agree_trans (fun x y z (first : Progress.Like terms.asks x y)
      (second : Progress.Like Eq y z) => strict_of_like first second) (sim.agree a b like covers)
      (strict_agree same b like.roomy')

theorem sim_symm {lead follow : Render α} (same : Sim .strict lead follow) :
    Sim .strict follow lead where
  grows start roomy := by
    have ended := agree_final (strict_agree same start roomy)
    have grown := same.grows start roomy
    exact ⟨Host.before_trans grown.1 (Host.before_of_changes ended.host.changes), ended.roomy'⟩
  agree a b like covers := by
    have back := same.agree b a (like_flip (fun _ _ => Eq.symm) like) (Terms.strict_covers b _)
    exact agree_flip (fun (_ _ : Progress) => like_flip (fun _ _ => Eq.symm)) back

end Strict

section Nodes
variable {terms : Terms} (settings : Settings)
open Render

theorem sim_variable (name : Text) (escape : Bool) (chain : Chain) :
    Sim terms (variableTag settings name escape chain) (variableTag settings name escape chain) := by
  refine sim_bind (sim_on_host (steady_lookup _ _ _ _)) fun found => ?_
  refine sim_ite (sim_pure _) (sim_bind (sim_on_host (steady_strip _ _)) fun v => ?_)
  refine sim_ite (sim_pure _) ?_
  refine sim_get (fun progress => sim_write _) fun a b like => ?_
  rw [Host.shown_like like.host v]

theorem sim_section (name : Text) (inverted : Bool) {body body' : Chain → Render Unit}
    (inside : ∀ chain, Sim terms (body chain) (body' chain)) (chain : Chain) :
    Sim terms (sectionTag settings name inverted body chain)
      (sectionTag settings name inverted body' chain) := by
  refine sim_bind (sim_on_host (steady_lookup _ _ _ _)) fun found => ?_
  refine sim_bind (sim_on_host (steady_is_empty _ _)) fun empty => ?_
  refine sim_ite (sim_pure _) (sim_ite (inside chain) ?_)
  refine sim_bind (sim_on_host (steady_strip _ _)) fun target => ?_
  refine sim_bind (sim_on_host (steady_kind _ _)) fun kind => ?_
  cases kind with
  | list =>
      exact sim_bind (sim_on_host (steady_iterate _ _)) fun items =>
        sim_for items fun item => inside (item :: chain)
  | record => exact inside (target :: chain)
  | scalar => exact inside chain

def SimExpand (terms : Terms) (lead follow : Expand) : Prop :=
  ∀ name indent linked chain, Sim terms (lead name indent linked chain) (follow name indent linked chain)

mutual
theorem sim_node {lead follow : Expand} (expand : SimExpand terms lead follow) (first : Node)
    (chain : Chain) : Sim terms (node settings lead first chain) (node settings follow first chain) := by
  match first with
  | .text content => exact sim_write content
  | .variableTag name escape => exact sim_variable settings name escape chain
  | .sectionTag name inverted _ children =>
      exact sim_section settings name inverted (sim_nodes expand children) chain
  | .partialTag name indent linked => exact expand name indent linked chain
  | .unknownTag _ | .unknown => exact sim_throw _

theorem sim_nodes {lead follow : Expand} (expand : SimExpand terms lead follow)
    (siblings : List Node) (chain : Chain) :
    Sim terms (nodes settings lead siblings chain) (nodes settings follow siblings chain) := by
  match siblings with
  | [] => exact sim_pure _
  | first :: rest =>
      exact sim_bind (sim_node expand first chain) fun _ => sim_nodes expand rest chain
end

theorem sim_fetch (name indent : Text) (linked : Bool) :
    Sim terms (fetchPartial settings name indent linked)
      (fetchPartial settings name indent linked) := by
  refine sim_ite (sim_bind (sim_on_host (steady_fetch terms.more _ _)) fun fetched => ?_)
    (sim_bind (sim_pure _) fun fetched => ?_)
  all_goals
    refine sim_get (fun progress => ?_) fun a b like => ?_
    · split
      · exact sim_pure _
      · exact sim_throw _
    · rw [text_of_like like.host indent fetched]

theorem sim_expand (depth depth' : Nat) (deeper : depth ≤ depth')
    (spared : depth < depth' → terms.spares .tooDeep) :
    SimExpand terms (expandPartial settings depth) (expandPartial settings depth') := by
  intro name indent linked chain
  induction depth generalizing depth' name indent linked chain with
  | zero =>
      cases depth' with
      | zero => exact sim_throw _
      | succ depth' => exact sim_spared _ (spared (Nat.succ_pos _)) _
  | succ depth ih =>
      cases depth' with
      | zero => omega
      | succ depth' =>
          refine sim_bind (sim_fetch settings name indent linked) fun source => ?_
          refine sim_bind (sim_report _ _) fun _ => ?_
          cases parse source settings.delimiters with
          | error error => exact sim_throw _
          | ok parsed =>
              refine sim_bind (sim_report _ _) fun _ => ?_
              -- One level of partials is used up on both sides.
              have inner : SimExpand terms (expandPartial settings depth)
                  (expandPartial settings depth') :=
                fun name indent linked chain => ih depth' (by omega) (fun less => spared (by omega))
                  name indent linked chain
              exact sim_nodes settings inner parsed.nodes chain

end Nodes
end Mustache
