import Mustache.Proofs.LayeredLookup
import Mustache.Proofs.SectionChoice
import Mustache.Proofs.TagNames

/-!
Sections over records. A section over a record puts it on the chain without its layers, and a
section over a list puts each item there with them. No name but the dot tells the two apart,
unless a layer answers it itself.
-/

namespace Mustache

/-- The second value is the first one inside silent layers, and is found where the first one is. -/
def Around (adapterOf : Value → Adapter) (a b : Value) : Prop :=
  Within adapterOf a b ∧ b.isMissing = a.isMissing

section Reading
variable {adapterOf : Value → Adapter}

theorem around_itself (v : Value) : Around adapterOf v v := ⟨.itself, rfl⟩

theorem around_each (items : List Value) : List.Forall₂ (Around adapterOf) items items :=
  List.forall₂_same.mpr fun item _ => around_itself item

/-- Silent layers are never seen: what is read through them is what is inside. -/
theorem around_indistinct : Indistinct adapterOf (Around adapterOf) Eq where
  same := around_itself
  missing around := around.2
  stripped around := by
    rw [strip_within around.1]
    exact matches_refl Eq.refl _
  found name around := by
    rw [lookup_within_within around.1]
    exact matches_refl around_itself _
  bottom := by
    rintro a _ rfl
    exact ⟨around_itself a, rfl, rfl, rfl, rfl, matches_refl around_each _⟩

variable {v target : Value}

theorem missing_of_present (present : v.isAbsent = false) : v.isMissing = false :=
  (Bool.or_eq_false_iff.mp present).2

theorem around_of_within (within : Within adapterOf target v) (present : target.isAbsent = false) :
    Around adapterOf target v := by
  refine ⟨within, ?_⟩
  cases within with
  | itself => rfl
  | layer covers _ =>
      rw [missing_of_present present, missing_of_present (layer_not_absent covers)]

/-- Only the dot tells a value from the layers around it. -/
theorem lookup_past_layers (within : Within adapterOf target v) {name : Text}
    (named : name ≠ Path.self) (required : Bool) (chain : Chain) :
    lookup adapterOf required (v :: chain) name =
      lookup adapterOf required (target :: chain) name := by
  obtain ⟨later, split⟩ := Path.name_head named
  have same : lookupSegment adapterOf (Path.head name) (v :: chain) =
      lookupSegment adapterOf (Path.head name) (target :: chain) := by
    unfold lookupSegment lookupInFrame
    rw [if_neg (Path.head_not_self name), if_neg (Path.head_not_self name),
      lookup_within_within within]
  rw [lookup, lookup, split, lookupPath, lookupPath, same]

end Reading

section Rendering
open Render
variable {settings : Settings} {v target : Value} {start : Progress} {host : Host}

/-- Whatever is rendered in a value comes out the same in the silent layers around it. -/
theorem nodes_within (within : Within settings.adapterOf target v)
    (present : target.isAbsent = false) (depth : Nat) (siblings : List Node) (chain : Chain) :
    nodes settings (expandPartial settings depth) siblings (target :: chain) =
      nodes settings (expandPartial settings depth) siblings (v :: chain) := by
  have indistinct : Indistinct settings.adapterOf (Around settings.adapterOf) Eq :=
    around_indistinct
  have prints : Agreeing settings Eq fun _ _ => True := by
    rintro _ _ v _ host _ _ _ rfl
    rfl
  have pushed : List.Forall₂ (Around settings.adapterOf) (target :: chain) (v :: chain) :=
    .cons (around_of_within within present) (around_each chain)
  have follows := follows_nodes indistinct prints (follows_expand indistinct prints depth)
    siblings pushed
  exact funext fun start => eq_of_paired (follows start fun _ _ => trivial).1

/-- A section over a record renders its body in the record without its layers, and a section over
a list of nothing but this record in the record as it is. If the layers answer no name themselves,
both come to the same: the same text, the same fault and the same data, and each name but the dot
is looked up alike. -/
theorem record_section_is_list_iteration (settings : Settings) (depth : Nat) (chain : Chain)
    (body : List Node) (line line' : Int) {record list : Text} {v target held items : Value}
    {start : Progress} {host : Host}
    (named : lookup settings.adapterOf false chain record start.host = .ok v host)
    (stripped : strip settings.adapterOf v = pure target)
    (filled : Filled settings.adapterOf .record target host)
    (given : lookup settings.adapterOf false chain list start.host = .ok held host)
    (bare : strip settings.adapterOf held = pure items)
    (full : Filled settings.adapterOf .list items host)
    (single : (settings.adapterOf items).iterate items host = .ok [v] host) :
    let expand := expandPartial settings depth
    let alone := node settings expand (.sectionTag record false line body) chain start
    let listed := node settings expand (.sectionTag list false line' body) chain start
    alone = nodes settings expand body (target :: chain) { start with host } ∧
      listed = nodes settings expand body (v :: chain) { start with host } ∧
      (Within settings.adapterOf target v →
        alone = listed ∧ ∀ name, name ≠ Path.self → ∀ required,
          lookup settings.adapterOf required (v :: chain) name =
            lookup settings.adapterOf required (target :: chain) name) := by
  intro expand alone listed
  -- Both sections render their body once: over the bare record, and over the only item.
  have once : alone = nodes settings expand body (target :: chain) { start with host } := by
    have chains := chains_of_choice named stripped (.record filled)
    exact (section_of_chains chains).trans (congrFun (for_single _ _) _)
  have each : listed = nodes settings expand body (v :: chain) { start with host } := by
    have chains := chains_of_choice given bare (.list full single)
    exact (section_of_chains chains).trans (congrFun (for_single _ _) _)
  refine ⟨once, each, fun within => ⟨?_, ?_⟩⟩
  · rw [once, each, nodes_within within filled.present depth body chain]
  · intro name named required
    exact lookup_past_layers within named required chain

end Rendering

def memberPage (name : Text) : Template :=
  ⟨[.sectionTag name false 1 [.variableTag ['m'] true]], .standard, .empty, .standard⟩

def memberRecord : Value := .mapping .dict none [(.str ['m'], .str "inner".toList)]

def recordData (v : Value) : Chain :=
  [.mapping .dict none [(.str ['x'], v), (.str "xs".toList, .sequence .list [v])]]

theorem boxed_record_as_in_list :
    let settings := (memberPage ['x']).settings .standard
    let boxed := Value.wrapped .box [] memberRecord
    let expand := Render.expandPartial settings 0
    let body := [Node.variableTag ['m'] true]
    let start : Progress := ⟨.initial, .open none, []⟩
    Render.node settings expand (.sectionTag ['x'] false 1 body) (recordData boxed) start =
      Render.node settings expand (.sectionTag "xs".toList false 1 body) (recordData boxed)
        start := by
  intro settings boxed expand body start
  have layer : LayerOver settings.adapterOf boxed memberRecord := ⟨rfl, fun _ => rfl⟩
  have stripped : strip settings.adapterOf boxed = pure memberRecord :=
    (strip_layer layer).trans (strip_closed rfl rfl)
  have named : lookup settings.adapterOf false (recordData boxed) ['x'] start.host =
      .ok boxed .initial := by cbv
  have given : lookup settings.adapterOf false (recordData boxed) "xs".toList start.host =
      .ok (.sequence .list [boxed]) .initial := by cbv
  have same := record_section_is_list_iteration settings 0 (recordData boxed) body 1 1 named
    stripped ⟨rfl, rfl, rfl⟩ given (strip_closed rfl rfl) ⟨rfl, rfl, rfl⟩ rfl
  exact (same.2.2 (.layer layer .itself)).1

/-- A layer that answers a name itself is asked in the list, and is not there in the section over
the record. -/
theorem loud_record_not_as_in_list :
    let adapterOf := Registry.standard.adapterOf
    let loud := Value.wrapped .loudBox [(['m'], .str "loud".toList)] memberRecord
    let start : Progress := ⟨.initial, .open none, []⟩
    lookup adapterOf false (recordData loud) ['x'] .initial = .ok loud .initial ∧
      lookup adapterOf false (recordData loud) "xs".toList .initial =
        .ok (.sequence .list [loud]) .initial ∧
      isEmpty adapterOf loud .initial = .ok false .initial ∧
      kindOf adapterOf loud .initial = .ok .record .initial ∧
      (memberPage ['x']).render .standard 0 (recordData loud) start =
        .ok "inner".toList start ∧
      (memberPage "xs".toList).render .standard 0 (recordData loud) start =
        .ok "loud".toList start := by
  refine ⟨?_, ?_, ?_, ?_, ?_, ?_⟩ <;> cbv

end Mustache
