import Mathlib
import Mustache.Proofs.Growth
import Mustache.Proofs.LayeredLookup
import Mustache.Proofs.SectionChoice

/-!
The two sections of a name, the normal one and then the inverted one. Whatever the name leads to,
one of them is rendered and the other one is not, and while the one is rendered nothing happens to
the data that would let the other one be rendered after it.
-/

namespace Mustache

/-- The same but for how often functions were called and what providers were asked. -/
structure Progress.SameWritten (a b : Progress) : Prop where
  sink : a.sink = b.sink
  notes : a.notes = b.notes
  changes : a.host.changes = b.host.changes

/-- The name leads to `v`, and no mapping makes up an entry on the way. -/
def StillLeadsTo (adapterOf : Value → Adapter) (chain : Chain) (name : Text) (v : Value)
    (host : Host) : Prop :=
  ∃ after, lookup adapterOf false chain name host = .ok v after ∧ after.changes = host.changes

section Rendering
open Render
variable {settings : Settings} {chain : Chain} {name : Text} {v target : Value}
  {host : Host} {start : Progress}

theorem agree_same {α : Type} {result : EStateM.Result Fault Progress α} :
    Agree Progress.SameWritten result result := by
  cases result <;> exact ⟨rfl, rfl, rfl, rfl⟩

theorem choice_kept {adapterOf : Value → Adapter} {after : Host} {chains : List Chain}
    (same : after.changes = host.changes)
    (choice : Choice adapterOf chain host target true chains) :
    Choice adapterOf chain after target true chains := by
  cases choice with
  | absent absent => exact .absent absent
  | empty present empty => exact .empty present (empty_kept same empty)

theorem bare_full_grows {adapterOf : Value → Adapter} {after : Host}
    (grown : Grown .anything host after) (told : bareEmpty adapterOf target host = .ok false host) :
    bareEmpty adapterOf target after = .ok false after := by
  unfold bareEmpty at told ⊢
  split
  · next absent =>
      rw [if_pos absent] at told
      cases told
  · next present =>
      rw [if_neg present] at told
      exact full_grows grown told

theorem nodes_pair (expand : Expand) (first second : Node) (chain : Chain) :
    nodes settings expand [first, second] chain =
      node settings expand first chain >>= fun _ => node settings expand second chain := by
  rw [nodes, nodes_single]

section Pair
variable {depth : Nat} {line line' : Int} {body other : List Node} {chains : List Chain}
  (looked : lookup settings.adapterOf false chain name start.host = .ok v host)
  (again : ∀ between, node settings (expandPartial settings depth)
      (.sectionTag name false line body) chain start = .ok () between →
    StillLeadsTo settings.adapterOf chain name v between.host)
  (stripped : strip settings.adapterOf v = pure target)
include looked again stripped

/-- Where the inverted section is chosen, the normal one has done nothing before it. -/
theorem inverted_after_skipped (choice : Choice settings.adapterOf chain host target true chains) :
    ∃ before : Host, lookup settings.adapterOf false chain name host = .ok v before ∧
      before.changes = host.changes ∧
      nodes settings (expandPartial settings depth)
          [.sectionTag name false line body, .sectionTag name true line' other] chain start =
        chains.forM (nodes settings (expandPartial settings depth) other)
          { start with host := before } := by
  have skipped := chains_of_other looked stripped (empty_of_choice choice)
    (Bool.noConfusion : true ≠ false)
  obtain ⟨before, seen, same⟩ := again _ (section_of_chains skipped)
  have chosen : sectionChains settings name true chain { start with host } =
      .ok chains { start with host := before } :=
    chains_of_choice seen stripped (choice_kept same choice)
  refine ⟨before, seen, same, ?_⟩
  rw [nodes_pair, bind_of_ok (section_of_chains skipped), section_of_chains chosen]

/-- Where the normal section is chosen, nothing that its body does makes the value empty, so the
inverted one does nothing after it. -/
theorem inverted_skipped_after (choice : Choice settings.adapterOf chain host target false chains) :
    Agree Progress.SameWritten
      (chains.forM (nodes settings (expandPartial settings depth) body) { start with host })
      (nodes settings (expandPartial settings depth)
        [.sectionTag name false line body, .sectionTag name true line' other] chain start) := by
  have chosen : node settings (expandPartial settings depth) (.sectionTag name false line body)
      chain start = chains.forM (nodes settings (expandPartial settings depth) body)
        { start with host } := section_of_chains (chains_of_choice looked stripped choice)
  have grown := each_grow (nodes_grow settings depth body) chains { start with host }
  cases ran : chains.forM (nodes settings (expandPartial settings depth) body)
      { start with host } with
  | error fault failed =>
      -- A body that fails leaves the inverted section unrendered, too.
      rw [nodes_pair, bind_of_error (chosen.trans ran)]
      exact ⟨rfl, rfl, rfl, rfl⟩
  | ok result done =>
      rw [ran] at grown
      obtain ⟨after, seen, same⟩ := again done (chosen.trans ran)
      have full := bare_full_grows (grown.trans (.of_changes same)) (empty_of_choice choice)
      have skipped := chains_of_other seen stripped full (Bool.noConfusion : false ≠ true)
      rw [nodes_pair, bind_of_ok (chosen.trans ran), section_of_chains skipped]
      exact ⟨rfl, rfl, rfl, same.symm⟩

end Pair

end Rendering

def boxedTexts : Value := .wrapped .box [] (.sequence .list [.str ['a'], .str ['b']])

def boxedChain : Chain := [.mapping .dict none [(.str ['x'], boxedTexts)]]

def boxedSettings : Settings := ⟨Registry.standard.adapterOf, false, .standard, .empty⟩

def itemBody : List Node := [.text ['<'], .variableTag ['.'] true, .text ['>']]

end Mustache
