import Mathlib
import Mustache.Proofs.LayeredLookup
import Mustache.Proofs.LayeredText

/-!
Rendering layered data. Two renderings of a tree, one in chains with layers and one in the
same chains without them, come to the same variables one after the other. As long as none of
these prints a layer, they write the same.
-/

namespace Mustache

/-- The second of two variables prints no layer that the first one does not print. -/
def Visit.Alike (settings : Settings) (plain layered : Visit) : Prop :=
  ∀ v w host, plain.Prints settings v host → layered.Prints settings w host →
    ¬ PrintsLayer settings.adapterOf host v w

theorem alike_agreeing (settings : Settings) :
    Agreeing settings (Congruent (Layered settings.adapterOf)) (Visit.Alike settings) :=
  fun _ _ v w host alike prints prints' congruent =>
    congruent_shown congruent (alike v w host prints prints')

/-- No variable that a template comes to shows a layer that the data without layers does not
have. -/
def Template.Unshown (registry : Registry) (depth : Nat) (template : Template)
    (plain layered : Chain) (start : Progress) : Prop :=
  ∀ pair ∈ (template.visits registry depth plain start).zip
      (template.visits registry depth layered start),
    pair.1.Alike (template.settings registry) pair.2

section Template
variable (template : Template) (registry : Registry) (depth : Nat) {plain layered : Chain}
  {start : Progress}

theorem layered_render_to (same : LayeredChain registry.adapterOf plain layered)
    (hidden : template.Unshown registry depth plain layered start) :
    template.renderTo registry depth layered start =
      template.renderTo registry depth plain start :=
  render_to_indistinct template registry depth (layered_indistinct (by_class_of_registry registry))
    (alike_agreeing _) same hidden

theorem layered_render (same : LayeredChain registry.adapterOf plain layered)
    (hidden : template.Unshown registry depth plain layered { start with sink := .open none }) :
    template.render registry depth layered start = template.render registry depth plain start :=
  render_indistinct template registry depth (layered_indistinct (by_class_of_registry registry))
    (alike_agreeing _) same hidden

end Template

def methodPage : Template :=
  ⟨[.sectionTag ['u'] false 1 [.variableTag ['f'] true]], .standard, .empty, .standard⟩

def answering (answer : Value) : Value :=
  .object ⟨['R'], none, none, none, true⟩
    [(['f'], .shared, .function ⟨some [], .returns, true⟩ answer)]

def bareData : Chain := [.mapping .dict none [(.str ['u'], answering (.str ['y']))]]

def boxedData : Chain :=
  [.wrapped .reference [] (.mapping .dict none
    [(.str ['u'], .wrapped .box [] (answering (.wrapped .box [] (.str ['y']))))])]

theorem standard_reference (inner : Value) :
    LayerOver Registry.standard.adapterOf (.wrapped .reference [] inner) inner :=
  ⟨rfl, fun _ => rfl⟩

theorem standard_box (inner : Value) :
    LayerOver Registry.standard.adapterOf (.wrapped .box [] inner) inner :=
  ⟨rfl, fun _ => rfl⟩

theorem boxed_data_layered : LayeredChain Registry.standard.adapterOf bareData boxedData := by
  have answer := Layered.layer (standard_box (.str ['y'])) Value.noConfusion (layered_same _)
  have answering := Congruent.object ⟨['R'], none, none, none, true⟩
    [.called ['f'] .shared ⟨some [], .returns, true⟩ _ _] (by simp [MemberPair.Fits])
    (List.forall_mem_singleton.mpr answer)
  have boxed := Layered.layer (standard_box _) Value.noConfusion (.core answering)
  have mapping := Congruent.mapping .dict none [(.str ['u'], _, _)]
    (List.forall_mem_singleton.mpr boxed)
  exact .cons (.layer (standard_reference _) Value.noConfusion (.core mapping)) .nil

theorem boxed_data_unshown :
    methodPage.Unshown .standard 0 bareData boxedData ⟨.initial, .open none, []⟩ := by
  have bare : methodPage.visits .standard 0 bareData ⟨.initial, .open none, []⟩ =
      [⟨['f'], answering (.str ['y']) :: bareData, ⟨.initial, .open none, []⟩⟩] := by cbv
  have boxed : methodPage.visits .standard 0 boxedData ⟨.initial, .open none, []⟩ =
      [⟨['f'], answering (.wrapped .box [] (.str ['y'])) :: boxedData,
        ⟨.initial, .open none, []⟩⟩] := by cbv
  have answer : lookup Registry.standard.adapterOf false
      (answering (.wrapped .box [] (.str ['y'])) :: boxedData) ['f'] .initial =
      .ok (.wrapped .box [] (.str ['y'])) .initial := by cbv
  have printed : strip Registry.standard.adapterOf (.wrapped .box [] (.str ['y'])) .initial =
      .ok (.str ['y']) .initial := by cbv
  intro pair member
  rw [bare, boxed] at member
  obtain rfl := List.mem_singleton.mp member
  rintro v w host - ⟨found, between, looked, -, stripped⟩ ⟨-, shows⟩
  cases answer.symm.trans looked
  cases printed.symm.trans stripped
  cases shows with
  | here covers => cases covers.opens

end Mustache
