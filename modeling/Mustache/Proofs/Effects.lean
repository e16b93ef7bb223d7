import Mustache.Proofs.Permission
import Mustache.Proofs.Reaching

/-!
What a rendering does to the host's data. It calls functions and fills mappings that make up
entries, where its data permits this, and does nothing else. Each function of the reader is
shown to keep to this and to give permitted values, and so does a whole rendering.
-/

namespace Mustache

/-- The host's data before and after readings that are permitted: functions are called and
mappings are filled, at permitted slots only, and nothing else happens to any value. -/
structure Grown (permit : Permit) (before after : Host) : Prop where
  calls : ∀ slot, ¬ permit.counts slot → after.calls slot = before.calls slot
  changes : ∀ slot, ∃ keys : List Text, after.changes slot = before.changes slot ++ keys.map .fill
  spared : ∀ slot, ¬ permit.fills slot → after.changes slot = before.changes slot

namespace Grown
variable {permit : Permit} {a b c : Host}

theorem refl (host : Host) : Grown permit host host where
  calls _ _ := rfl
  changes _ := ⟨[], (List.append_nil _).symm⟩
  spared _ _ := rfl

theorem trans (first : Grown permit a b) (second : Grown permit b c) : Grown permit a c where
  calls slot silent := (second.calls slot silent).trans (first.calls slot silent)
  changes slot := by
    obtain ⟨keys, between⟩ := first.changes slot
    obtain ⟨more, after⟩ := second.changes slot
    exact ⟨keys ++ more, by rw [after, between, List.map_append, List.append_assoc]⟩
  spared slot fixed := (second.spared slot fixed).trans (first.spared slot fixed)

theorem count {slot : Slot} (allowed : permit.counts slot) (host : Host) :
    Grown permit host (host.countCall slot) where
  calls other silent := by
    have apart : other ≠ slot := fun same => silent (same ▸ allowed)
    exact if_neg apart
  changes _ := ⟨[], (List.append_nil _).symm⟩
  spared _ _ := rfl

theorem fill {slot : Slot} (allowed : permit.fills slot) (name : Text) (host : Host) :
    Grown permit host (host.change slot (.fill name)) where
  calls _ _ := rfl
  changes other := by
    by_cases same : other = slot
    · exact ⟨[name], by simp [Host.change, same]⟩
    · exact ⟨[], by simp [Host.change, same]⟩
  spared other fixed := by
    have apart : other ≠ slot := fun same => fixed (same ▸ allowed)
    exact if_neg apart

theorem ask (number : Nat) (name : Text) (host : Host) :
    Grown permit host (host.ask number name) where
  calls _ _ := rfl
  changes _ := ⟨[], (List.append_nil _).symm⟩
  spared _ _ := rfl

end Grown

/-- A computation that does to the host's data what is permitted, and whose results are as
`gives` says. -/
structure Effects {σ α : Type} (hostOf : σ → Host) (permit : Permit) (gives : α → Prop)
    (act : EStateM Fault σ α) : Prop where
  grows : ∀ start, Grown permit (hostOf start) (hostOf (final (act start)))
  gives : ∀ start result after, act start = .ok result after → gives result

section Steps
variable {σ α β : Type} {hostOf : σ → Host} {permit : Permit} {gives : α → Prop}
  {gives' : β → Prop}

theorem effects_pure {result : α} (good : gives result) :
    Effects hostOf permit gives (pure result) where
  grows _ := .refl _
  gives start result' after same := by
    cases same
    exact good

theorem effects_throw (fault : Fault) :
    Effects hostOf permit gives (throw fault : EStateM Fault σ α) where
  grows _ := .refl _
  gives _ _ _ same := nomatch same

theorem effects_bind {act : EStateM Fault σ α} {next : α → EStateM Fault σ β}
    (first : Effects hostOf permit gives act)
    (rest : ∀ result, gives result → Effects hostOf permit gives' (next result)) :
    Effects hostOf permit gives' (act >>= next) where
  grows start := by
    have grown := first.grows start
    cases ran : act start with
    | ok result after =>
        rw [ran] at grown
        rw [bind_of_ok ran]
        exact grown.trans ((rest result (first.gives _ _ _ ran)).grows after)
    | error fault after =>
        rw [ran] at grown
        rw [bind_of_error ran]
        exact grown
  gives start result after same := by
    cases ran : act start with
    | ok between later =>
        rw [bind_of_ok ran] at same
        exact (rest between (first.gives _ _ _ ran)).gives later result after same
    | error fault later =>
        rw [bind_of_error ran] at same
        cases same

theorem effects_get {next : σ → EStateM Fault σ α}
    (rest : ∀ state, Effects hostOf permit gives (next state)) :
    Effects hostOf permit gives (get >>= next) where
  grows start := (rest start).grows start
  gives start result after same := (rest start).gives start result after same

theorem effects_modify {change : σ → σ}
    (grows : ∀ start, Grown permit (hostOf start) (hostOf (change start))) :
    Effects hostOf permit (fun _ => True) (modify change) where
  grows := grows
  gives _ _ _ _ := trivial

theorem effects_ite {c : Prop} [Decidable c] {act act' : EStateM Fault σ α}
    (yes : Effects hostOf permit gives act) (no : Effects hostOf permit gives act') :
    Effects hostOf permit gives (if c then act else act') := by
  split
  · exact yes
  · exact no

theorem effects_weaken {gives' : α → Prop} {act : EStateM Fault σ α}
    (effects : Effects hostOf permit gives act) (weaker : ∀ result, gives result → gives' result) :
    Effects hostOf permit gives' act where
  grows := effects.grows
  gives start result after ran := weaker result (effects.gives start result after ran)

end Steps

section Reading
variable {permit : Permit}

abbrev ReadEffects {α : Type} (permit : Permit) (gives : α → Prop) (act : Eval α) : Prop :=
  Effects (fun host : Host => host) permit gives act

abbrev ValueEffects (permit : Permit) (act : Eval Value) : Prop :=
  ReadEffects permit (·.Permitted permit) act

theorem effects_count_call {slot : Slot} (allowed : permit.counts slot) :
    ValueEffects permit (countCall slot) :=
  effects_bind (effects_modify (Grown.count allowed)) fun _ _ =>
    effects_get fun _ => effects_pure (Value.permitted_leaf rfl rfl rfl)

theorem effects_fill {slot : Slot} {v : Value} (allowed : permit.fills slot)
    (v_allowed : v.Permitted permit) (name : Text) :
    ValueEffects permit (do modify (Host.change slot (.fill name)); return v) :=
  effects_bind (effects_modify (Grown.fill allowed name)) fun _ _ => effects_pure v_allowed

theorem effects_call {call : Call} {result : Value}
    (allowed : (Value.function call result).Permitted permit) :
    ValueEffects permit (call.run result) := by
  unfold Call.run
  cases opens : call.opening result with
  | closed => exact effects_pure (Value.permitted_result allowed)
  | opens inner =>
      cases Call.result_of_opening opens
      exact effects_pure (Value.permitted_result allowed)
  | counts slot => exact effects_count_call (Value.permitted_call_counts allowed opens)
  | fails error => exact effects_throw _

theorem effects_invoke {v : Value} (allowed : v.Permitted permit) (name : Text) :
    ValueEffects permit (v.invoke name) := by
  unfold Value.invoke
  by_cases hidden : Value.isPrivate name
  · rw [if_pos hidden]
    exact effects_pure Value.permitted_missing
  · rw [if_neg hidden]
    split
    · split
      · next found =>
          have function_allowed := Value.permitted_held allowed (by simpa using hidden) found
          exact effects_ite (effects_pure Value.permitted_missing) (effects_call function_allowed)
      · exact effects_pure Value.permitted_missing
    · exact effects_pure Value.permitted_missing

theorem effects_attribute {v : Value} (allowed : v.Permitted permit) (name : Text) :
    ValueEffects permit (v.attributeOf name) := by
  unfold Value.attributeOf
  by_cases hidden : Value.isPrivate name
  · rw [if_pos hidden]
    exact effects_pure Value.permitted_missing
  · rw [if_neg hidden]
    have shown : Value.isPrivate name = false := by simpa using hidden
    split
    · split
      · exact effects_pure Value.permitted_missing
      · next found =>
          have function_allowed := Value.permitted_held allowed shown found
          unfold Value.computed
          split
          · exact effects_pure (Value.permitted_dynamic_member allowed shown)
          · exact effects_call function_allowed
      · next found => exact effects_pure (Value.permitted_held allowed shown found)
      · exact effects_pure (Value.permitted_dynamic_member allowed shown)
    · next fields =>
        cases found : Value.field? name fields with
        | none => exact effects_pure Value.permitted_missing
        | some w =>
            exact effects_pure (Value.permitted_field (fun _ => Value.permitted_part allowed) found)
    · exact effects_pure Value.permitted_missing
    · next exposed inner _ =>
        have inner_allowed := Value.permitted_part allowed List.mem_cons_self
        apply effects_ite (effects_pure inner_allowed)
        apply effects_ite (effects_pure ?_) (effects_pure Value.permitted_missing)
        apply Value.permitted_mapping
        intro entry inside
        obtain ⟨field, member, rfl⟩ := List.mem_map.mp inside
        have field_allowed : field.2.Permitted permit :=
          Value.permitted_part allowed (List.mem_cons_of_mem _ (List.mem_map_of_mem member))
        exact ⟨Value.permitted_str _, field_allowed⟩
    · exact effects_pure Value.permitted_missing

theorem effects_entry {v : Value} (allowed : v.Permitted permit) (name : Text) :
    ValueEffects permit (v.entry name) := by
  apply effects_get
  intro host
  split
  · next found => exact effects_pure (Value.permitted_entry allowed found)
  · exact effects_pure Value.permitted_missing
  · next made =>
      obtain ⟨here, made_allowed⟩ := Value.permitted_entry_made allowed made
      exact effects_fill here made_allowed name
  · exact effects_ite (effects_pure Value.permitted_missing) (effects_throw _)

theorem effects_adapter_invoke (adapter : Adapter) {v : Value} (allowed : v.Permitted permit)
    (name : Text) : ValueEffects permit (adapter.invoke v name) := by
  unfold Adapter.invoke
  split
  · exact effects_invoke allowed name
  · next exposed _ =>
      cases found : Value.field? name exposed with
      | none => exact effects_pure Value.permitted_missing
      | some w =>
          have exposed_allowed : ∀ part ∈ exposed.map (·.2), part.Permitted permit :=
            fun part inside => Value.permitted_part allowed (List.mem_cons_of_mem _ inside)
          exact effects_pure (Value.permitted_field exposed_allowed found)
  · exact effects_pure Value.permitted_missing

theorem effects_member (adapter : Adapter) {v : Value} (allowed : v.Permitted permit)
    (name : Text) : ValueEffects permit (member adapter v name) := by
  have field : ValueEffects permit (adapter.getField v name) := by
    unfold Adapter.getField
    split
    · exact effects_attribute allowed name
    · exact effects_pure Value.permitted_missing
  apply effects_bind field
  intro found found_allowed
  refine effects_ite ?_ (effects_pure found_allowed)
  unfold Adapter.getKey
  split
  · exact effects_entry allowed name
  · exact effects_pure Value.permitted_missing

theorem effects_iterate (adapter : Adapter) {v : Value} (allowed : v.Permitted permit) :
    ReadEffects permit (∀ item ∈ ·, Value.Permitted permit item) (adapter.iterate v) := by
  unfold Adapter.iterate
  split
  · apply effects_get
    intro host
    split
    · next elements => exact effects_pure (Value.permitted_elements allowed elements)
    · exact effects_throw _
  · apply effects_pure
    intro item inside
    exact Value.permitted_part allowed (List.mem_reverse.mp inside)
  · exact effects_pure (List.forall_mem_singleton.mpr allowed)

variable (adapterOf : Value → Adapter)

theorem effects_settle {v : Value} (allowed : v.Permitted permit) :
    ValueEffects permit (settle adapterOf v) := by
  unfold settle
  split
  · exact effects_throw _
  · exact effects_pure allowed

theorem effects_strip {v : Value} (allowed : v.Permitted permit) :
    ValueEffects permit (strip adapterOf v) := by
  rw [strip]
  apply effects_ite (effects_pure allowed)
  split
  · exact effects_pure allowed
  · next inner opens =>
      have smaller := Adapter.size_opening opens
      exact effects_strip (Value.permitted_opening allowed opens)
  · next slot counts =>
      have here := Value.permitted_opening_counts allowed counts
      exact effects_bind (effects_count_call here) fun _ => effects_settle adapterOf
  · exact effects_throw _
termination_by sizeOf v

theorem effects_empty_value (adapter : Adapter) (v : Value) :
    ReadEffects permit (fun _ => True) (adapter.isEmpty v) := by
  have length : ReadEffects permit (fun _ => True) (Adapter.hasNoLength v) := by
    apply effects_get
    intro host
    split
    · exact effects_pure trivial
    · exact effects_throw _
  unfold Adapter.isEmpty
  split
  · exact effects_pure trivial
  · exact length
  · exact length
  · exact effects_pure trivial
  · exact effects_get fun _ => effects_pure trivial

theorem effects_is_empty {v : Value} (allowed : v.Permitted permit) :
    ReadEffects permit (fun _ => True) (isEmpty adapterOf v) := by
  apply effects_bind (effects_strip adapterOf allowed)
  intro inner _
  exact effects_ite (effects_pure trivial) (effects_empty_value _ inner)

theorem effects_kind {v : Value} (allowed : v.Permitted permit) :
    ReadEffects permit (fun _ => True) (kindOf adapterOf v) :=
  effects_bind (effects_strip adapterOf allowed) fun _ _ =>
    effects_ite (effects_pure trivial) (effects_pure trivial)

theorem effects_lookup_within (name : Text) {v : Value} (allowed : v.Permitted permit) :
    ValueEffects permit (lookupWithin adapterOf name v) := by
  rw [lookupWithin]
  apply effects_ite (effects_pure Value.permitted_missing)
  apply effects_bind (effects_adapter_invoke _ allowed name)
  intro found found_allowed
  refine effects_ite ?_ (effects_pure found_allowed)
  split
  · exact effects_member _ allowed name
  · next inner opens =>
      have smaller := Adapter.size_opening opens
      exact effects_lookup_within name (Value.permitted_opening allowed opens)
  · next slot counts =>
      -- A function that is opened is counted before its result is looked into.
      have here := Value.permitted_opening_counts allowed counts
      apply effects_bind (effects_bind (effects_count_call here) fun _ => effects_settle adapterOf)
      intro count count_allowed
      exact effects_member _ count_allowed name
  · exact effects_throw _
termination_by sizeOf v

def Chain.Permitted (permit : Permit) (chain : Chain) : Prop :=
  ∀ v ∈ chain, Value.Permitted permit v

theorem effects_lookup_segment (name : Text) {chain : Chain} (allowed : chain.Permitted permit) :
    ValueEffects permit (lookupSegment adapterOf name chain) := by
  induction chain with
  | nil => exact effects_pure Value.permitted_missing
  | cons frame outer ih =>
      obtain ⟨frame_allowed, outer_allowed⟩ := List.forall_mem_cons.mp allowed
      have here : ValueEffects permit (lookupInFrame adapterOf name frame) :=
        effects_ite (effects_pure frame_allowed)
          (effects_lookup_within adapterOf name frame_allowed)
      exact effects_bind here fun _ found_allowed =>
        effects_ite (ih outer_allowed) (effects_pure found_allowed)

theorem effects_lookup_path (required : Bool) (path : Path) {chain : Chain}
    (allowed : chain.Permitted permit) :
    ValueEffects permit (lookupPath adapterOf required path chain) := by
  induction path generalizing chain with
  | nil => exact effects_pure Value.permitted_missing
  | cons segment rest ih =>
      apply effects_bind (effects_lookup_segment adapterOf segment allowed)
      intro found found_allowed
      apply effects_ite
      · exact effects_ite (effects_throw _) (effects_pure Value.permitted_missing)
      · exact effects_ite (effects_pure found_allowed)
          (ih (List.forall_mem_singleton.mpr found_allowed))

theorem effects_lookup (required : Bool) {chain : Chain} (allowed : chain.Permitted permit)
    (name : Text) : ValueEffects permit (lookup adapterOf required chain name) :=
  effects_lookup_path adapterOf required (Path.ofName name) allowed

end Reading

def Provider.Permitted (permit : Permit) : Provider → Prop
  | .dictionary partials | .recording partials _ => partials.Permitted permit
  | .empty | .failing _ _ => True

section Rendering
open Render

variable {permit : Permit} {settings : Settings}

abbrev RenderEffects {α : Type} (permit : Permit) (gives : α → Prop) (act : Render α) : Prop :=
  Effects Progress.host permit gives act

theorem effects_on_host {α : Type} {gives : α → Prop} {read : Eval α}
    (effects : ReadEffects permit gives read) : RenderEffects permit gives (onHost read) where
  grows start := by
    have grown := effects.grows start.host
    unfold onHost
    generalize read start.host = ran at grown
    cases ran <;> exact grown
  gives start result after same := by
    unfold onHost at same
    cases ran : read start.host with
    | ok result' host =>
        rw [ran] at same
        cases same
        exact effects.gives _ _ _ ran
    | error fault host =>
        rw [ran] at same
        cases same

theorem effects_write (text : Text) : RenderEffects permit (fun _ => True) (write text) where
  grows start := by
    unfold write
    split <;> exact .refl _
  gives _ _ _ _ := trivial

theorem effects_report (notes : List Note) :
    RenderEffects permit (fun _ => True) (report notes) :=
  effects_modify fun _ => .refl _

theorem effects_variable (name : Text) (escape : Bool) {chain : Chain}
    (allowed : chain.Permitted permit) :
    RenderEffects permit (fun _ => True) (variableTag settings name escape chain) := by
  apply effects_bind (effects_on_host (effects_lookup _ _ allowed name))
  intro found found_allowed
  apply effects_ite (effects_pure trivial)
  apply effects_bind (effects_on_host (effects_strip _ found_allowed))
  intro v _
  exact effects_ite (effects_pure trivial) (effects_get fun _ => effects_write _)

theorem effects_section_chains (name : Text) (inverted : Bool) {chain : Chain}
    (allowed : chain.Permitted permit) :
    RenderEffects permit (∀ inner ∈ ·, Chain.Permitted permit inner)
      (sectionChains settings name inverted chain) := by
  apply effects_bind (effects_on_host (effects_lookup _ _ allowed name))
  intro found found_allowed
  apply effects_bind (effects_on_host (effects_is_empty _ found_allowed))
  intro empty _
  apply effects_ite (effects_pure (List.forall_mem_nil _))
  apply effects_ite (effects_pure (List.forall_mem_singleton.mpr allowed))
  apply effects_bind (effects_on_host (effects_strip _ found_allowed))
  intro target target_allowed
  have pushed (item : Value) (item_allowed : item.Permitted permit) :
      Chain.Permitted permit (item :: chain) := List.forall_mem_cons.mpr ⟨item_allowed, allowed⟩
  apply effects_bind (effects_on_host (effects_kind _ target_allowed))
  rintro (_ | _ | _) _
  · exact effects_pure (List.forall_mem_singleton.mpr allowed)
  · apply effects_bind (effects_on_host (effects_iterate _ target_allowed))
    intro items items_allowed
    exact effects_pure (List.forall_mem_map.mpr fun item member =>
      pushed item (items_allowed item member))
  · exact effects_pure (List.forall_mem_singleton.mpr (pushed target target_allowed))

theorem effects_fetch {provider : Provider} (allowed : provider.Permitted permit) (name : Text) :
    ReadEffects permit (fun _ => True) (provider.fetch name) := by
  cases provider with
  | empty => exact effects_pure trivial
  | failing kind reason => exact effects_throw _
  | recording partials number =>
      exact effects_bind (effects_modify (Grown.ask number name)) fun _ _ =>
        effects_get fun _ => effects_pure trivial
  | dictionary partials =>
      apply effects_get
      intro host
      split
      · exact effects_pure trivial
      · exact effects_throw _
      · next made =>
          obtain ⟨here, made_allowed⟩ := Value.permitted_entry_made allowed made
          exact effects_weaken (effects_fill here made_allowed name) fun _ _ => trivial
      · exact effects_ite (effects_throw _) (effects_throw _)

theorem effects_partial_nodes (allowed : settings.provider.Permitted permit) (name indent : Text)
    (linked : Bool) :
    RenderEffects permit (fun _ => True) (partialNodes settings name indent linked) := by
  have fetched : RenderEffects permit (fun _ => True)
      (fetchPartial settings name indent linked) := by
    rw [fetch_eq]
    apply effects_bind
    · exact effects_ite (effects_on_host (effects_fetch allowed name)) (effects_pure trivial)
    · intro v _
      apply effects_get
      intro progress
      split
      · exact effects_pure trivial
      · exact effects_throw _
  apply effects_bind fetched
  intro source _
  apply effects_bind (effects_report _)
  intro _ _
  split
  · exact effects_throw _
  · exact effects_bind (effects_report _) fun _ _ => effects_pure trivial

namespace Ahead

theorem effects_own (provider : settings.provider.Permitted permit) (depth : Nat) (first : Node)
    {chain : Chain} (allowed : chain.Permitted permit) :
    RenderEffects permit (fun _ => True) (own settings depth first chain) := by
  cases first with
  | text content => exact effects_write content
  | variableTag name escape => exact effects_variable name escape allowed
  | sectionTag name inverted _ _ =>
      exact effects_bind (effects_section_chains name inverted allowed) fun _ _ =>
        effects_pure trivial
  | partialTag name indent linked =>
      cases depth with
      | zero => exact effects_throw _
      | succ depth =>
          exact effects_bind (effects_partial_nodes provider name indent linked) fun _ _ =>
            effects_pure trivial
  | unknownTag _ | unknown => exact effects_throw _

theorem permitted_next {a b : Ahead} (next : Next settings a b)
    (allowed : a.chain.Permitted permit) : b.chain.Permitted permit := by
  cases next with
  | sibling _ => exact allowed
  | child chains _ =>
      apply (effects_section_chains _ _ allowed).gives _ _ _ chains
      exact List.mem_append_right _ List.mem_cons_self
  | included _ => exact allowed

/-- A rendering does to the host's data what is permitted, also when it fails. -/
theorem run_grows (ahead : Ahead) (provider : settings.provider.Permitted permit)
    (allowed : ahead.chain.Permitted permit) :
    Grown permit ahead.start.host (final (ahead.run settings)).host := by
  have keeps : Keeps settings
      (fun start result => Grown permit start.host (final result).host) ahead :=
    { nothing := fun _ => .refl _
      andThen := fun _ _ _ first rest => first.trans rest
      own := by
        intro depth first rest chain start reached
        have here : chain.Permitted permit :=
          reaches_keep (fun _ _ => permitted_next) reached allowed
        exact (effects_own provider depth first here).grows start }
  exact run_keeps keeps

end Ahead

theorem render_to_grows (template : Template) (registry : Registry) (depth : Nat)
    {contexts : Chain} (provider : template.provider.Permitted permit)
    (data : contexts.Permitted permit) (start : Progress) :
    Grown permit start.host (final (template.renderTo registry depth contexts start)).host := by
  have allowed : (template.settings registry).provider.Permitted permit := provider
  exact Ahead.run_grows ⟨depth, template.nodes, contexts, start⟩ allowed data

end Rendering
end Mustache
