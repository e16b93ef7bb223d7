import Mustache.Proofs.LayeredData

/-!
The copies that a mapping makes up. A copy has the same parts, themselves copied, and it is
looked through to a copy of what is inside. So a copy of layered data is layered in the same
places.
-/

namespace Mustache

def Held.moveTo (base : Slot) : Held → Held
  | .routine call result =>
      .routine { call with act := call.act.moveTo base } (result.moveTo base)
  | .computed call result =>
      .computed { call with act := call.act.moveTo base } (result.moveTo base)
  | .plain v => .plain (v.moveTo base)

namespace Value

theorem move_all_eq (base : Slot) (items : List Value) :
    moveAll base items = items.map (moveTo base) := by
  induction items with
  | nil => rfl
  | cons v rest ih => rw [moveAll, ih, List.map_cons]

theorem move_entries_eq (base : Slot) (entries : List (Value × Value)) :
    moveEntries base entries =
      entries.map fun entry => (entry.1.moveTo base, entry.2.moveTo base) := by
  induction entries with
  | nil => rfl
  | cons entry rest ih => rw [moveEntries, ih, List.map_cons]

theorem move_fields_eq (base : Slot) (fields : List (Text × Value)) :
    moveFields base fields = fields.map fun field => (field.1, field.2.moveTo base) := by
  induction fields with
  | nil => rfl
  | cons field rest ih => rw [moveFields, ih, List.map_cons]

theorem move_members_eq (base : Slot) (members : List (Text × Access × Value)) :
    moveMembers base members =
      members.map fun member => (member.1, member.2.1, member.2.2.moveTo base) := by
  induction members with
  | nil => rfl
  | cons member rest ih => rw [moveMembers, ih, List.map_cons]

theorem move_lineage (base : Slot) (v : Value) : (v.moveTo base).lineage = v.lineage := by
  cases v with
  | sequence shape items => cases shape <;> rfl
  | mapping shape address entries => cases shape <;> rfl
  | wrapped layer exposed inner => cases layer <;> rfl
  | _ => rfl

theorem move_missing (base : Slot) {v : Value} (present : v ≠ .missing) :
    v.moveTo base ≠ .missing := by
  cases v with
  | missing => exact absurd rfl present
  | _ => exact Value.noConfusion

theorem move_field (base : Slot) (name : Text) (fields : List (Text × Value)) :
    field? name (moveFields base fields) = (field? name fields).map (moveTo base) := by
  unfold field?
  rw [move_fields_eq, List.find?_map, Option.map_map, Option.map_map]
  rfl

theorem move_data (base : Slot) {v : Value} (data : ∀ call result, v ≠ .function call result) :
    ∀ call result, v.moveTo base ≠ .function call result := by
  intro call result
  cases v with
  | function call' result' => exact absurd rfl (data call' result')
  | _ => exact Value.noConfusion

theorem move_holds (base : Slot) (access : Access) (v : Value) :
    access.holds (v.moveTo base) = (access.holds v).moveTo base := by
  rcases v.function_or_data with ⟨call, result, rfl⟩ | data
  · cases access <;> rfl
  · rw [Access.holds_data access data, Access.holds_data access (move_data base data)]
    rfl

theorem move_held (base : Slot) (name : Text) (members : List (Text × Access × Value)) :
    held? name (moveMembers base members) = (held? name members).map (Held.moveTo base) := by
  unfold held? member?
  rw [move_members_eq, List.find?_map]
  simp only [Option.map_map, Function.comp_def, move_holds]

theorem move_dynamic (base : Slot) (name : Text) (members : List (Text × Access × Value)) :
    dynamicMember? name (moveMembers base members) =
      (dynamicMember? name members).map (moveTo base) := by
  unfold dynamicMember?
  rw [move_members_eq, List.find?_map, Option.map_map, Option.map_map]
  rfl

theorem move_any_dynamic (base : Slot) (members : List (Text × Access × Value)) :
    ((moveMembers base members).any fun member => decide (member.2.1 = .dynamic)) =
      members.any fun member => decide (member.2.1 = .dynamic) := by
  rw [move_members_eq, List.any_map]
  rfl

theorem move_call_opens (base : Slot) {call : Call} {result inner : Value}
    (opens : call.opening result = .opens inner) :
    Call.opening { call with act := call.act.moveTo base } (result.moveTo base) =
      .opens (inner.moveTo base) := by
  unfold Call.opening at opens ⊢
  cases act : call.act with
  | returns =>
      rw [act] at opens
      cases opens
      rfl
  | raises error =>
      rw [act] at opens
      cases opens
  | counts address =>
      rw [act] at opens
      cases opens

theorem move_dynamic_content (base : Slot) {v w inner : Value}
    {members : List (Text × Access × Value)} (opens : dynamicContent v members = .opens inner) :
    dynamicContent w (moveMembers base members) = .opens (inner.moveTo base) := by
  unfold dynamicContent at opens ⊢
  rw [move_dynamic]
  cases found : dynamicMember? contentName members with
  | none =>
      rw [found] at opens
      cases opens
  | some held =>
      rw [found] at opens
      cases opens
      rfl

theorem move_content (base : Slot) {v inner : Value} (opens : v.content = .opens inner) :
    (v.moveTo base).content = .opens (inner.moveTo base) := by
  cases v with
  | wrapped layer exposed held =>
      cases layer with
      | reference => cases opens
      | box | subBox | loudBox => cases opens; rfl
  | namedTuple className fields =>
      simp only [moveTo, content, move_field] at opens ⊢
      cases found : field? contentName fields with
      | none =>
          rw [found] at opens
          cases opens
      | some held =>
          rw [found] at opens
          cases opens
          rfl
  | object look members =>
      simp only [moveTo, content, move_held, move_any_dynamic] at opens ⊢
      cases found : held? contentName members with
      | none =>
          rw [found] at opens
          exact move_dynamic_content base opens
      | some held =>
          rw [found] at opens
          cases held with
          | routine call result => cases opens; rfl
          | plain held => cases opens; rfl
          | computed call result =>
              -- Copying leaves the error as it is, so the dynamic members are asked in the same
              -- cases.
              simp only [Option.map_some, Held.moveTo] at opens ⊢
              split at opens
              · next argument raises =>
                  rw [raises]
                  split at opens
                  · next some_dynamic =>
                      simp only [Act.moveTo, some_dynamic, if_true]
                      exact move_dynamic_content base opens
                  · cases opens
              · have moved := move_call_opens base opens
                split
                · next argument raises =>
                    rw [Call.opening, raises] at moved
                    cases moved
                · exact moved
  | _ => cases opens

theorem move_opening (base : Slot) (adapter : Adapter) {v inner : Value}
    (opens : adapter.opening v = .opens inner) :
    adapter.opening (v.moveTo base) = .opens (inner.moveTo base) := by
  cases adapter with
  | box | loud => exact move_content base opens
  | reference =>
      cases v with
      | function call result =>
          simp only [Adapter.opening, moveTo] at opens ⊢
          split at opens
          · cases opens
          · next complete => exact (if_neg complete).trans (move_call_opens base opens)
      | wrapped layer exposed held =>
          cases layer with
          | reference => cases opens; rfl
          | box | subBox | loudBox => cases opens
      | _ => cases opens
  | base | scalar | sequence | mapping | object | reversed | once | label => cases opens

end Value

def MemberPair.moveTo (base : Slot) : MemberPair → MemberPair
  | .read name access before after => .read name access (before.moveTo base) (after.moveTo base)
  | .called name access call before after =>
      .called name access { call with act := call.act.moveTo base } (before.moveTo base)
        (after.moveTo base)

section MemberPair
variable (base : Slot) (member : MemberPair)

theorem left_move : (member.moveTo base).left =
    (member.left.1, member.left.2.1, member.left.2.2.moveTo base) := by
  cases member <;> rfl

theorem right_move : (member.moveTo base).right =
    (member.right.1, member.right.2.1, member.right.2.2.moveTo base) := by
  cases member <;> rfl

theorem before_move : (member.moveTo base).before = member.before.moveTo base := by
  cases member <;> rfl

theorem after_move : (member.moveTo base).after = member.after.moveTo base := by
  cases member <;> rfl

theorem fits_move (fits : member.Fits) : (member.moveTo base).Fits := by
  cases member with
  | read name access before after =>
      rintro (computed | ⟨not_dynamic, call, result, function⟩)
      · exact congrArg (Value.moveTo base) (fits (.inl computed))
      · have called : ∃ call result, before = .function call result := by
          by_contra data
          push Not at data
          exact Value.move_data base data call result function
        exact congrArg (Value.moveTo base) (fits (.inr ⟨not_dynamic, called⟩))
  | called name access call before after => trivial

end MemberPair

section Layered
variable {adapterOf : Value → Adapter}

/-- A registry that tells values apart by their classes only. -/
def ByClass (adapterOf : Value → Adapter) : Prop :=
  ∀ v w : Value, v.lineage = w.lineage → adapterOf v = adapterOf w

theorem by_class_of_registry (registry : Registry) : ByClass registry.adapterOf := by
  intro v w same
  unfold Registry.adapterOf Registry.adapterFor
  rw [same]

theorem move_layer (by_class : ByClass adapterOf) (base : Slot) {layer inner : Value}
    (covers : LayerOver adapterOf layer inner) :
    LayerOver adapterOf (layer.moveTo base) (inner.moveTo base) := by
  have adapter := by_class (layer.moveTo base) layer (Value.move_lineage base layer)
  constructor
  · rw [adapter]
    exact Value.move_opening base _ covers.opens
  · intro name
    have silent := covers.silent name
    have opens := covers.opens
    rw [adapter]
    generalize adapterOf layer = adapter at silent opens ⊢
    cases adapter with
    | object => cases opens
    | loud =>
        -- What the layer itself answers is copied too, and it answers nothing.
        cases layer with
        | wrapped kind exposed held =>
            have answer : (Value.field? name exposed).getD .missing = .missing := by
              injection congrFun silent Host.initial
            simp only [Adapter.invoke, Value.moveTo, Value.move_field]
            cases found : Value.field? name exposed with
            | none => rfl
            | some v =>
                rw [found] at answer
                cases answer
                rfl
        | _ => rfl
    | _ => rfl

theorem move_layered (by_class : ByClass adapterOf) (base : Slot) {a b : Value}
    (layered : Layered adapterOf a b) : Layered adapterOf (a.moveTo base) (b.moveTo base) := by
  refine layered_induct (motive := fun a b => Layered adapterOf (a.moveTo base) (b.moveTo base))
    ?core ?layer layered
  case layer =>
    intro a inner layer covers found inside ih
    exact .layer (move_layer by_class base covers) (Value.move_missing base found) ih
  case core =>
    intro a b congruent
    apply Layered.core
    -- The parts are held in pairs, so both copies are made by one map over the pairs.
    cases congruent with
    | same v => exact .same _
    | sequence shape items each =>
        have copied := Congruent.sequence shape
          (items.map fun item => (item.1.moveTo base, item.2.moveTo base))
          (List.forall_mem_map.mpr fun item m => (each item m).2)
        simpa only [Value.moveTo, Value.move_all_eq, List.map_map, Function.comp_def] using copied
    | mapping shape address entries each =>
        have copied := Congruent.mapping shape (address.map (·.moveTo base))
          (entries.map fun entry =>
            (entry.1.moveTo base, entry.2.1.moveTo base, entry.2.2.moveTo base))
          (List.forall_mem_map.mpr fun entry m => (each entry m).2)
        simpa only [Value.moveTo, Value.move_entries_eq, List.map_map, Function.comp_def]
          using copied
    | filling address entries each made =>
        have copied := Congruent.filling (address.moveTo base)
          (entries.map fun entry =>
            (entry.1.moveTo base, entry.2.1.moveTo base, entry.2.2.moveTo base))
          (List.forall_mem_map.mpr fun entry m => (each entry m).2) made.1
        simpa only [Value.moveTo, Value.move_entries_eq, List.map_map, Function.comp_def]
          using copied
    | namedTuple className fields each =>
        have copied := Congruent.namedTuple className
          (fields.map fun field => (field.1, field.2.1.moveTo base, field.2.2.moveTo base))
          (List.forall_mem_map.mpr fun field m => (each field m).2)
        simpa only [Value.moveTo, Value.move_fields_eq, List.map_map, Function.comp_def]
          using copied
    | object look members fits each =>
        have copied := Congruent.object look (members.map (·.moveTo base))
          (List.forall_mem_map.mpr fun member m => fits_move base member (fits member m))
          (List.forall_mem_map.mpr fun member m => by
            rw [before_move, after_move]
            exact (each member m).2)
        simpa only [Value.moveTo, Value.move_members_eq, List.map_map, Function.comp_def,
          left_move, right_move] using copied
    | function call returned => exact .function _ returned.2
    | wrapped layer exposed each inside =>
        have copied := Congruent.wrapped layer
          (exposed.map fun field => (field.1, field.2.1.moveTo base, field.2.2.moveTo base))
          (List.forall_mem_map.mpr fun field m => (each field m).2) inside.2
        simpa only [Value.moveTo, Value.move_fields_eq, List.map_map, Function.comp_def]
          using copied
    | reversedList text items each =>
        have copied := Congruent.reversedList text
          (items.map fun item => (item.1.moveTo base, item.2.moveTo base))
          (List.forall_mem_map.mpr fun item m => (each item m).2)
        simpa only [Value.moveTo, Value.move_all_eq, List.map_map, Function.comp_def] using copied

end Layered
end Mustache
