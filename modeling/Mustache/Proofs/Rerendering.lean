import Mathlib
import Mustache.Proofs.Effects
import Mustache.Proofs.Simulation

/-!
Rendering a template again. A second rendering reads what the first one left, so it does the
same if the first one changed nothing that can be read. This is so for data in which no function
is counted and no mapping makes up entries; a mapping that does keeps what it made up.
-/

namespace Mustache

open Render

theorem Grown.unchanged {permit : Permit} {before after : Host} (grown : Grown permit before after)
    (unfilled : ∀ slot, ¬ permit.fills slot) (uncounted : ∀ slot, ¬ permit.counts slot) :
    Host.Like (fun _ _ => True) before after where
  calls := (funext fun slot => grown.calls slot (uncounted slot)).symm
  changes := (funext fun slot => grown.spared slot (unfilled slot)).symm
  asked _ := trivial

theorem to_text_host (act : Render Unit) (start : Progress) :
    (final (toText act start)).host = (final (act { start with sink := .open none })).host := by
  unfold toText
  cases act { start with sink := .open none } <;> rfl

theorem to_text_agree {asks : List Text → List Text → Prop} {act act' : Render Unit}
    {a b : Progress} (agree : Agree (Progress.Like asks) (act { a with sink := .open none })
      (act' { b with sink := .open none })) :
    Agree (fun _ _ => True) (toText act a) (toText act' b) := by
  unfold toText
  cases ran : act { a with sink := .open none } with
  | ok result after =>
      rw [ran] at agree
      obtain ⟨after', ran', like⟩ := agree_of_ok agree
      rw [ran']
      exact ⟨like.text, trivial⟩
  | error fault after =>
      rw [ran] at agree
      obtain ⟨after', ran', like⟩ := agree_of_error agree
      rw [ran']
      exact ⟨rfl, trivial⟩

def Terms.unasked : Terms := ⟨fun _ _ => True, fun _ _ _ => id, fun _ => True, fun _ => False⟩

section Template
variable (template : Template) (registry : Registry) (depth : Nat) (contexts : Chain)

theorem render_agree {a b : Progress} (like : Host.Like (fun _ _ => True) a.host b.host) :
    Agree (fun _ _ => True) (template.render registry depth contexts a)
      (template.render registry depth contexts b) := by
  let settings := template.settings registry
  have expand : SimExpand .unasked (expandPartial settings depth) (expandPartial settings depth) :=
    sim_expand settings depth depth (Nat.le_refl depth) fun deeper =>
      absurd deeper (Nat.lt_irrefl depth)
  have same := sim_nodes settings expand template.nodes contexts
  apply to_text_agree
  exact same.agree _ _ ⟨like, rfl, rfl, rfl⟩ ⟨fun _ _ _ => id, fun _ _ _ => trivial⟩

variable {permit : Permit}

/-- Whether it succeeds or fails, a rendering only calls functions and fills mappings that make
up entries, at the slots that are in its data. If there are no such slots, it leaves all data as
it was, and rendering again comes to the same text or fault. -/
theorem rendering_grows_data (provider : template.provider.Permitted permit)
    (data : contexts.Permitted permit) (start : Progress) :
    Grown permit start.host (final (template.renderTo registry depth contexts start)).host ∧
      Grown permit start.host (final (template.render registry depth contexts start)).host ∧
      ((∀ slot, ¬ permit.fills slot) → (∀ slot, ¬ permit.counts slot) →
        ∀ again : Progress,
          again.host = (final (template.render registry depth contexts start)).host →
          Host.Like (fun _ _ => True) start.host again.host ∧
            Agree (fun _ _ => True) (template.render registry depth contexts start)
              (template.render registry depth contexts again)) := by
  have grown : Grown permit start.host
      (final (template.render registry depth contexts start)).host := by
    unfold Template.render
    rw [to_text_host]
    exact render_to_grows template registry depth provider data
      { start with sink := .open none }
  refine ⟨render_to_grows template registry depth provider data start, grown, ?_⟩
  intro unfilled uncounted again left
  have like : Host.Like (fun _ _ => True) start.host again.host := by
    rw [left]
    exact grown.unchanged unfilled uncounted
  exact ⟨like, render_agree template registry depth contexts like⟩

end Template

def absentPage : Template :=
  ⟨[.sectionTag ['d'] true 1 [.text ['-']], .variableTag ['d', '.', 'x'] true], .standard, .empty,
    .standard⟩

def absentData (d : Value) : Chain := [.mapping .dict none [(.str ['d'], d)]]

def absentStart : Progress := ⟨.initial, .open none, []⟩

def stillRecord : Value :=
  .object ⟨['R'], none, none, none, false⟩
    [(['x'], .shared, .function ⟨some [], .returns, true⟩ (.int 1)),
      (['_', 'n'], .shared, .function ⟨some [], .counts (.fixed [0]), true⟩ .null)]

theorem still_record_permitted : stillRecord.Permitted .still := by
  apply Value.permitted_plain rfl rfl
  intro part inside
  have only : part = .function ⟨some [], .returns, true⟩ (.int 1) := by
    simpa [stillRecord, Value.partsSeen, Permit.still, Value.isPrivate] using inside
  rw [only]
  exact Value.permitted_plain rfl rfl
    (List.forall_mem_singleton.mpr (Value.permitted_leaf rfl rfl rfl))

/-- A record whose private method would count stays as it is, and renders as before. -/
theorem still_page_again :
    let rendered := absentPage.render .standard 0 (absentData stillRecord) absentStart
    Host.Like (fun _ _ => True) absentStart.host (final rendered).host ∧
      Agree (fun _ _ => True) rendered (absentPage.render .standard 0 (absentData stillRecord)
        ⟨(final rendered).host, .open none, []⟩) := by
  have data : (absentData stillRecord).Permitted .still :=
    List.forall_mem_singleton.mpr (Value.permitted_mapping
      (List.forall_mem_singleton.mpr ⟨Value.permitted_str _, still_record_permitted⟩))
  exact (rendering_grows_data absentPage .standard 0 _ trivial data
    absentStart).2.2 (fun _ => id) (fun _ => id) ⟨_, .open none, []⟩ rfl

/-- A mapping that makes up an empty text keeps it, and is no longer empty when the same
template is rendered again. -/
theorem absent_page_differs :
    let contexts := absentData (.filling (.fixed [0]) [] (.str []))
    let rendered := absentPage.render .standard 0 contexts absentStart
    absentStart.host.changes [0] = [] ∧ (final rendered).host.changes [0] = [.fill ['x']] ∧
      ¬ Agree (fun _ _ => True) rendered (absentPage.render .standard 0 contexts
        ⟨(final rendered).host, .open none, []⟩) := by
  constructor
  · rfl
  constructor
  · cbv
  · -- The first text is a dash, and the second one is empty.
    cbv
    rintro ⟨same, _⟩
    cases same

end Mustache
