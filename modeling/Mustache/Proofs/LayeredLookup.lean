import Mustache.Proofs.Indistinct
import Mustache.Proofs.LayeredReading

/-!
Looking through layers. Below all layers the data is the same, so what a section asks for
does not depend on them. A name is found behind layers where it is found without them, and
what is found is the same up to layers.
-/

namespace Mustache
variable {adapterOf : Value → Adapter}

section Layer
variable {layer inner : Value} (covers : LayerOver adapterOf layer inner)
include covers

theorem strip_layer : strip adapterOf layer = strip adapterOf inner := by
  rw [strip_eq, layer_not_absent covers, covers.opens]
  rfl

theorem lookup_within_layer (name : Text) :
    lookupWithin adapterOf name layer = lookupWithin adapterOf name inner := by
  rw [lookup_within_eq, layer_not_absent covers, covers.opens, covers.silent, pure_bind]
  rfl

end Layer

variable {a b : Value}

theorem congruent_is_absent {rel : Value → Value → Prop} (congruent : Congruent rel a b) :
    b.isAbsent = a.isAbsent := by
  have absent := congruent_absent congruent
  rw [Value.isAbsent, Value.isAbsent, absent.1, absent.2]

theorem layered_strip {a b : Value} (by_class : ByClass adapterOf)
    (layered : Layered adapterOf a b) :
    Matches (Congruent (Layered adapterOf)) (strip adapterOf a) (strip adapterOf b) := by
  -- The recursion is on `b`: a layer that both have is taken off both, another one off `b` only.
  cases layered with
  | layer covers found inside =>
      have smaller := Adapter.size_opening covers.opens
      rw [strip_layer covers]
      exact layered_strip by_class inside
  | core congruent =>
      have adapter := by_class b a (congruent_lineage congruent)
      have same := layered_opening (adapterOf b) congruent
      rw [strip_eq, strip_eq, congruent_is_absent congruent, ← adapter]
      split
      · exact matches_pure congruent
      · generalize left_opening : (adapterOf b).opening a = left,
          right_opening : (adapterOf b).opening b = right at same ⊢
        cases same with
        | closed => exact matches_pure congruent
        | opens inside =>
            have smaller := Adapter.size_opening right_opening
            exact layered_strip by_class inside
        | counts slot => exact matches_refl (fun v => .same v) _
        | fails error => exact matches_throw _
termination_by sizeOf b

theorem lookup_within_object (name : Text) {v : Value} (present : v.isAbsent = false)
    (reads : adapterOf v = .object) :
    lookupWithin adapterOf name v = asked name .object v := by
  rw [lookup_within_eq, present, reads]
  rfl

theorem layered_lookup_within {a b : Value} (by_class : ByClass adapterOf) (name : Text)
    (layered : Layered adapterOf a b) :
    Matches (Layered adapterOf) (lookupWithin adapterOf name a)
      (lookupWithin adapterOf name b) := by
  cases layered with
  | layer covers found inside =>
      have smaller := Adapter.size_opening covers.opens
      rw [lookup_within_layer covers]
      exact layered_lookup_within by_class name inside
  | core congruent =>
      have adapter := by_class b a (congruent_lineage congruent)
      have absent := congruent_is_absent congruent
      have same := layered_opening (adapterOf b) congruent
      cases here : b.isAbsent with
      | true =>
          rw [here] at absent
          rw [lookup_within_eq, lookup_within_eq, here, ← absent]
          exact layered_missing
      | false =>
          rw [here] at absent
          -- An object may answer by a routine that hides its other members, so it is told as a
          -- whole.
          by_cases object : adapterOf b = .object
          · rw [lookup_within_object name here object,
              lookup_within_object name absent.symm (adapter.symm.trans object)]
            exact layered_asked_object name congruent
          · rw [lookup_within_eq, lookup_within_eq, here, ← absent, ← adapter]
            apply matches_bind (layered_adapter_invoke name object congruent)
            intro found found' related
            rw [is_missing_layered related]
            split
            · generalize left_opening : (adapterOf b).opening a = left,
                right_opening : (adapterOf b).opening b = right at same ⊢
              cases same with
              | closed => exact layered_member name by_class object congruent
              | opens inside =>
                  have smaller := Adapter.size_opening right_opening
                  exact layered_lookup_within by_class name inside
              | counts slot => exact matches_refl layered_same _
              | fails error => exact matches_throw _
            · exact matches_pure related
termination_by sizeOf b

theorem layered_reads (by_class : ByClass adapterOf)
    (congruent : Congruent (Layered adapterOf) a b) :
    ReadAlike adapterOf (Layered adapterOf) a b where
  related := .core congruent
  adapter := by_class b a (congruent_lineage congruent)
  null := (congruent_absent congruent).1
  missing := (congruent_absent congruent).2
  empty := layered_adapter_empty by_class _ congruent
  items := layered_iterate by_class _ congruent

theorem layered_indistinct (by_class : ByClass adapterOf) :
    Indistinct adapterOf (Layered adapterOf) (Congruent (Layered adapterOf)) where
  same := layered_same
  missing := is_missing_layered
  stripped := layered_strip by_class
  found := layered_lookup_within by_class
  bottom := layered_reads by_class

theorem layered_is_empty (by_class : ByClass adapterOf) (layered : Layered adapterOf a b) :
    isEmpty adapterOf b = isEmpty adapterOf a :=
  is_empty_indistinct (layered_indistinct by_class) layered

theorem layered_kind (by_class : ByClass adapterOf) (layered : Layered adapterOf a b) :
    kindOf adapterOf b = kindOf adapterOf a :=
  kind_indistinct (layered_indistinct by_class) layered

abbrev LayeredChain (adapterOf : Value → Adapter) : Chain → Chain → Prop :=
  List.Forall₂ (Layered adapterOf)

theorem layered_lookup (by_class : ByClass adapterOf) {chain chain' : Chain} (required : Bool)
    (name : Text) (layered : LayeredChain adapterOf chain chain') :
    Matches (Layered adapterOf) (lookup adapterOf required chain name)
      (lookup adapterOf required chain' name) :=
  lookup_indistinct (layered_indistinct by_class) required name layered

/-- A value inside any number of layers. -/
inductive Within (adapterOf : Value → Adapter) (v : Value) : Value → Prop
  | itself : Within adapterOf v v
  | layer {inner layer : Value} : LayerOver adapterOf layer inner → Within adapterOf v inner →
      Within adapterOf v layer

section Within
variable {adapterOf : Value → Adapter} {v w : Value}

theorem strip_within (within : Within adapterOf v w) : strip adapterOf w = strip adapterOf v := by
  induction within with
  | itself => rfl
  | layer covers _ ih => exact (strip_layer covers).trans ih

theorem lookup_within_within (within : Within adapterOf v w) (name : Text) :
    lookupWithin adapterOf name w = lookupWithin adapterOf name v := by
  induction within with
  | itself => rfl
  | layer covers _ ih => exact (lookup_within_layer covers name).trans ih

theorem layered_within (present : v ≠ .missing) (within : Within adapterOf v w) :
    Layered adapterOf v w := by
  induction within with
  | itself => exact layered_same v
  | layer covers _ ih => exact .layer covers present ih

theorem null_within (within : Within adapterOf .null w) :
    strip adapterOf w = pure .null ∧ isEmpty adapterOf w = pure true ∧
      kindOf adapterOf w = pure .scalar ∧
      ∀ name, lookupWithin adapterOf name w = pure .missing := by
  have bare : strip adapterOf w = pure .null := by
    rw [strip_within within, strip_eq]
    rfl
  refine ⟨bare, ?_, ?_, ?_⟩
  · rw [isEmpty, bare]
    rfl
  · rw [kindOf, bare]
    rfl
  · intro name
    rw [lookup_within_within within, lookup_within_eq]
    rfl

end Within

end Mustache
