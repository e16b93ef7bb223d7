import Mustache.Proofs.Copies

/-!
Reading layered data. Whatever is read from it is read from the data without these layers
too, and the same calls are counted, the same entries made up and the same errors raised.
-/

namespace Mustache
variable {adapterOf : Value → Adapter} {a b : Value}

/-! What the host keeps of a value. -/

section Host
variable (host : Host)

theorem layered_entries (by_class : ByClass adapterOf)
    (congruent : Congruent (Layered adapterOf) a b) :
    Alongside (Layered adapterOf) (host.entries a) (host.entries b) := by
  cases congruent with
  | same => exact List.forall₂_same.mpr fun entry _ => ⟨rfl, layered_same _⟩
  | mapping shape address entries each =>
      have same := alongside_of_pairs Prod.fst each
      cases address with
      | none => exact same
      | some address =>
          exact changes_alongside (fun _ key => layered_same (.str key))
            (fun _ text => layered_same (.str text)) _ 0 same
  | filling address entries each made =>
      exact changes_alongside (fun index _ => move_layered by_class _ made)
        (fun _ text => layered_same (.str text)) _ 0 (alongside_of_pairs Prod.fst each)
  | _ => exact .nil

theorem layered_entry_of (by_class : ByClass adapterOf)
    (congruent : Congruent (Layered adapterOf) a b) (name : Text) :
    SameEntry (Layered adapterOf) (host.entry a name) (host.entry b name) := by
  have found := find_alongside name (layered_entries host by_class congruent)
  have lacks := congruent_not_keyed congruent
  cases congruent with
  | same =>
      cases host.entry a name with
      | found v => exact .found (layered_same v)
      | absent => exact .absent
      | made slot v => exact .made slot (layered_same v)
      | fails error => exact .fails error
  | mapping shape address entries each =>
      simp only [Host.entry]
      generalize Value.find? name (host.entries (.mapping shape address
          (entries.map fun entry => (entry.1, entry.2.1)))) = left,
        Value.find? name (host.entries (.mapping shape address
          (entries.map fun entry => (entry.1, entry.2.2)))) = right at found ⊢
      cases found with
      | some related => exact .found related
      | none =>
          cases shape with
          | raising error => exact .fails error
          | dict | userDict => exact .absent
  | filling address entries each made =>
      simp only [Host.entry]
      generalize Value.find? name (host.entries (.filling address
          (entries.map fun entry => (entry.1, entry.2.1)) _)) = left,
        Value.find? name (host.entries (.filling address
          (entries.map fun entry => (entry.1, entry.2.2)) _)) = right at found ⊢
      cases found with
      | some related => exact .found related
      -- What is made up is a copy, and copies of layered data are layered.
      | none => exact .made _ (move_layered by_class _ made)
  | _ =>
      simp only [Host.entry, lacks]
      exact .fails _

theorem layered_elements (by_class : ByClass adapterOf)
    (congruent : Congruent (Layered adapterOf) a b) :
    Option.Rel (List.Forall₂ (Layered adapterOf)) (host.elements? a) (host.elements? b) := by
  have entries := layered_entries host by_class congruent
  have keys : List.Forall₂ (Layered adapterOf) ((host.entries a).map (·.1))
      ((host.entries b).map (·.1)) := by
    apply List.forall₂_map_left_iff.mpr
    apply List.forall₂_map_right_iff.mpr
    apply entries.imp
    intro x y related
    rw [related.1]
    exact layered_same _
  cases congruent with
  | same =>
      cases host.elements? a with
      | none => exact .none
      | some items => exact .some (List.forall₂_same.mpr fun item _ => layered_same item)
  | sequence shape items each => exact .some (forall_of_pairs each)
  | mapping | filling => exact .some keys
  | namedTuple className fields each =>
      simp only [Host.elements?, List.map_map]
      exact .some (forall_of_pairs each)
  | object | function | wrapped | reversedList => exact .none

theorem layered_length (by_class : ByClass adapterOf)
    (congruent : Congruent (Layered adapterOf) a b) : host.length? b = host.length? a := by
  have elements := layered_elements host by_class congruent
  have same : (host.elements? b).map List.length = (host.elements? a).map List.length := by
    generalize host.elements? a = left, host.elements? b = right at elements ⊢
    cases elements with
    | none => rfl
    | some items => exact congrArg some items.length_eq.symm
  cases congruent with
  | same | object => rfl
  | _ => exact same

theorem layered_truth (by_class : ByClass adapterOf)
    (congruent : Congruent (Layered adapterOf) a b) : host.isTrue b = host.isTrue a := by
  have same := layered_length host by_class congruent
  cases congruent with
  | same | object => rfl
  | _ => exact congrArg (· != some 0) same

end Host

/-! What a value says of a name. -/

section Names
variable (name : Text)

theorem layered_take {opening opening' : Opening}
    (same : SameOpening (Layered adapterOf) opening opening') (layered : Layered adapterOf a b) :
    Matches (Layered adapterOf) (opening.take a) (opening'.take b) := by
  cases same with
  | closed => exact matches_pure layered
  | opens related => exact matches_pure related
  | counts slot => exact matches_refl layered_same _
  | fails error => exact matches_throw _

theorem layered_run (call : Call) {result result' : Value}
    (returned : Layered adapterOf result result') :
    Matches (Layered adapterOf) (call.run result) (call.run result') :=
  layered_take (layered_call_opening call returned) returned

theorem layered_missing :
    Matches (Layered adapterOf) (pure .missing : Eval Value) (pure .missing) :=
  matches_pure (layered_same .missing)

theorem layered_dynamic (members : List MemberPair)
    (each : ∀ member ∈ members, Layered adapterOf member.before member.after) :
    Layered adapterOf (Value.dynamicMember name (members.map (·.left)))
      (Value.dynamicMember name (members.map (·.right))) := by
  have same := MemberPair.find_dynamic name members each
  unfold Value.dynamicMember
  generalize Value.dynamicMember? name (members.map (·.left)) = left,
    Value.dynamicMember? name (members.map (·.right)) = right at same ⊢
  cases same with
  | none => exact layered_same .missing
  | some related => exact related

theorem layered_computed (call : Call) {result result' otherwise otherwise' : Value}
    (returned : Layered adapterOf result result') (left : Layered adapterOf otherwise otherwise') :
    Matches (Layered adapterOf) (Value.computed call result otherwise)
      (Value.computed call result' otherwise') := by
  unfold Value.computed
  split
  · exact matches_pure left
  · exact layered_run call returned

theorem layered_exposed (exposed : List (Text × Value × Value))
    (each : ∀ field ∈ exposed, Layered adapterOf field.2.1 field.2.2) :
    Layered adapterOf (Value.exposedMapping (exposed.map fun field => (field.1, field.2.1)))
      (Value.exposedMapping (exposed.map fun field => (field.1, field.2.2))) := by
  have same := Congruent.mapping .dict none
    (exposed.map fun field => (Value.str field.1, field.2))
    (List.forall_mem_map.mpr fun field member => each field member)
  apply Layered.core
  simpa only [Value.exposedMapping, List.map_map, Function.comp_def] using same

def asked (adapter : Adapter) (v : Value) : Eval Value :=
  adapter.invoke v name >>= fun found =>
    if found.isMissing then member adapter v name else pure found

theorem found_or_missing (found : Value) :
    (if found.isMissing then pure .missing else pure found : Eval Value) = pure found := by
  cases found <;> rfl

theorem asked_without_routine {v : Value} (silent : v.invoke name = pure .missing) :
    asked name .object v = v.attributeOf name := by
  have attribute_only : asked name .object v =
      v.attributeOf name >>= fun found =>
        if found.isMissing then pure .missing else pure found := by
    unfold asked
    rw [show Adapter.invoke .object v name = pure .missing from silent]
    rfl
  rw [attribute_only]
  simp only [found_or_missing, bind_pure]

theorem asked_object (look : Look) (members : List (Text × Access × Value)) :
    asked name .object (.object look members) =
      if Value.isPrivate name then pure .missing
      else match Value.held? name members with
        | some (.routine call result) =>
            if call.needsArguments then pure .missing else call.run result
        | some (.computed call result) =>
            Value.computed call result (Value.dynamicMember name members)
        | some (.plain v) => pure v
        | none => pure (Value.dynamicMember name members) := by
  -- A routine is called or hides the name; anything else is read as an attribute.
  by_cases routine : ∃ call result, Value.held? name members = some (.routine call result)
  · obtain ⟨call, result, held⟩ := routine
    have called : Adapter.invoke .object (.object look members) name =
        if Value.isPrivate name then pure .missing
        else if call.needsArguments then pure .missing else call.run result := by
      rw [Adapter.invoke, Value.invoke, held]
    have no_member : member .object (.object look members) name = pure .missing := by
      have no_attribute : Adapter.getField .object (.object look members) name =
          pure .missing := by
        rw [Adapter.getField, Value.attributeOf, held]
        exact ite_self _
      rw [member, no_attribute]
      rfl
    unfold asked
    simp only [called, no_member, found_or_missing, bind_pure, held]
  · have silent : (Value.object look members).invoke name = pure .missing := by
      unfold Value.invoke
      split
      · rfl
      · dsimp only
        split
        · next call result held => exact absurd ⟨call, result, held⟩ routine
        · rfl
    rw [asked_without_routine name silent, Value.attributeOf]
    cases held : Value.held? name members with
    | none => rfl
    | some other =>
        cases other with
        | routine call result => exact absurd ⟨call, result, held⟩ routine
        | computed | plain => rfl

/-- A function that is a layer around data gives this data when it is called. -/
theorem called_layer {call : Call} {result : Value}
    (data : ∀ call' result', a ≠ .function call' result')
    (layered : Layered adapterOf a (.function call result)) :
    call.needsArguments = false ∧ call.run result = pure result ∧ Layered adapterOf a result := by
  cases layered with
  | core congruent =>
      cases congruent with
      | same | function => exact absurd rfl (data _ _)
  | layer covers _ inside =>
      have opens := covers.opens
      generalize adapterOf (.function call result) = adapter at opens
      cases adapter with
      | reference =>
          simp only [Adapter.opening] at opens
          split at opens
          · cases opens
          · next complete =>
              cases Call.result_of_opening opens
              refine ⟨Bool.eq_false_iff.mpr complete, ?_, inside⟩
              rw [Call.run, opens]
              rfl
      | _ => cases opens

theorem layered_asked_members (look : Look) (members : List MemberPair)
    (fits : ∀ member ∈ members, member.Fits)
    (each : ∀ member ∈ members, Layered adapterOf member.before member.after) :
    Matches (Layered adapterOf) (asked name .object (.object look (members.map (·.left))))
      (asked name .object (.object look (members.map (·.right)))) := by
  have otherwise := layered_dynamic name members each
  have same := MemberPair.find_held name members fits each
  rw [asked_object, asked_object]
  split
  · exact layered_missing
  · generalize Value.held? name (members.map (·.left)) = left,
      Value.held? name (members.map (·.right)) = right at same ⊢
    cases same with
    | none => exact matches_pure otherwise
    | plain related => exact matches_pure related
    | computed call related => exact layered_computed call related otherwise
    | routine call related =>
        dsimp only
        split
        · exact layered_missing
        · exact layered_run call related
    | layer call data related =>
        obtain ⟨complete, runs, inside⟩ := called_layer data related
        simp only [complete, runs]
        exact matches_pure inside

theorem layered_attribute (congruent : Congruent (Layered adapterOf) a b)
    (no_object : ∀ look members, a ≠ .object look members) :
    Matches (Layered adapterOf) (a.attributeOf name) (b.attributeOf name) := by
  unfold Value.attributeOf
  split
  · exact layered_missing
  · cases congruent with
    | same => exact matches_refl layered_same _
    | object look members fits each => exact absurd rfl (no_object _ _)
    | namedTuple className fields each =>
        have same := field_alongside name (alongside_of_pairs Prod.fst each)
        dsimp only
        generalize Value.field? name (fields.map fun field => (field.1, field.2.1)) = left,
          Value.field? name (fields.map fun field => (field.1, field.2.2)) = right at same ⊢
        cases same with
        | none => exact layered_missing
        | some related => exact matches_pure related
    | wrapped layer exposed each inside =>
        have shown := layered_exposed exposed each
        cases layer with
        | reference => exact layered_missing
        | box | subBox | loudBox =>
            dsimp only
            split
            · exact matches_pure inside
            · split
              · exact matches_pure shown
              · exact layered_missing
    | _ => exact layered_missing

theorem invoke_no_object {v : Value} (no_object : ∀ look members, v ≠ .object look members) :
    v.invoke name = pure .missing := by
  unfold Value.invoke
  split
  · rfl
  · cases v with
    | object look members => exact absurd rfl (no_object look members)
    | _ => rfl

theorem layered_asked_object (congruent : Congruent (Layered adapterOf) a b) :
    Matches (Layered adapterOf) (asked name .object a) (asked name .object b) := by
  have plain (left : ∀ look members, a ≠ .object look members)
      (right : ∀ look members, b ≠ .object look members) :
      Matches (Layered adapterOf) (asked name .object a) (asked name .object b) := by
    rw [asked_without_routine name (invoke_no_object name left),
      asked_without_routine name (invoke_no_object name right)]
    exact layered_attribute name congruent left
  cases congruent with
  | same => exact matches_refl layered_same _
  | object look members fits each => exact layered_asked_members name look members fits each
  | _ => exact plain nofun nofun

theorem layered_entry (by_class : ByClass adapterOf)
    (congruent : Congruent (Layered adapterOf) a b) :
    Matches (Layered adapterOf) (a.entry name) (b.entry name) := by
  apply matches_after
  intro host
  have same := layered_entry_of host by_class congruent name
  generalize host.entry a name = left, host.entry b name = right at same ⊢
  cases same with
  | found related => exact matches_pure related
  | absent => exact layered_missing
  | made slot related =>
      exact matches_after _ fun _ => matches_pure related
  | fails error => exact matches_refl layered_same _

theorem layered_adapter_invoke {adapter : Adapter} (other : adapter ≠ .object)
    (congruent : Congruent (Layered adapterOf) a b) :
    Matches (Layered adapterOf) (adapter.invoke a name) (adapter.invoke b name) := by
  cases adapter with
  | object => exact absurd rfl other
  | loud =>
      cases congruent with
      | same => exact matches_refl layered_same _
      | wrapped layer exposed each inside =>
          have same := field_alongside name (alongside_of_pairs Prod.fst each)
          simp only [Adapter.invoke]
          generalize Value.field? name (exposed.map fun field => (field.1, field.2.1)) = left,
            Value.field? name (exposed.map fun field => (field.1, field.2.2)) = right at same ⊢
          cases same with
          | none => exact layered_missing
          | some related => exact matches_pure related
      | _ => exact layered_missing
  | _ => exact layered_missing

theorem is_missing_layered (layered : Layered adapterOf a b) : b.isMissing = a.isMissing := by
  cases layered with
  | core congruent => exact (congruent_absent congruent).2
  | layer covers found inside =>
      have hidden : b.isMissing = false := (Bool.or_eq_false_iff.mp (layer_not_absent covers)).2
      rw [hidden]
      cases a with
      | missing => exact absurd rfl found
      | _ => rfl

theorem layered_member (by_class : ByClass adapterOf) {adapter : Adapter}
    (other : adapter ≠ .object) (congruent : Congruent (Layered adapterOf) a b) :
    Matches (Layered adapterOf) (member adapter a name) (member adapter b name) := by
  have no_field (v : Value) : adapter.getField v name = pure .missing := by
    cases adapter with
    | object => exact absurd rfl other
    | _ => rfl
  have key (v : Value) : member adapter v name = adapter.getKey v name := by
    rw [member, no_field]
    rfl
  rw [key, key]
  cases adapter with
  | mapping => exact layered_entry name by_class congruent
  | _ => exact layered_missing

end Names

/-! What a section needs to know of a value without layers. -/

theorem layered_has_no_length (by_class : ByClass adapterOf)
    (congruent : Congruent (Layered adapterOf) a b) :
    Adapter.hasNoLength b = Adapter.hasNoLength a := by
  have error : b.noLength = a.noLength := congruent_error congruent _ _
  unfold Adapter.hasNoLength
  simp only [layered_length _ by_class congruent, error]

theorem layered_adapter_empty (by_class : ByClass adapterOf) (adapter : Adapter)
    (congruent : Congruent (Layered adapterOf) a b) : adapter.isEmpty b = adapter.isEmpty a := by
  have plain : (do return !(← get).isTrue b : Eval Bool) = do return !(← get).isTrue a := by
    simp only [layered_truth _ by_class congruent]
  cases adapter with
  | sequence | mapping => exact layered_has_no_length by_class congruent
  | scalar =>
      cases congruent with
      | same => rfl
      | _ => exact plain
  | reversed =>
      cases congruent with
      | same => rfl
      | reversedList text items each => simp only [Adapter.isEmpty, List.isEmpty_map]
      | _ => exact plain
  | _ => exact plain

theorem layered_iterate (by_class : ByClass adapterOf) (adapter : Adapter)
    (congruent : Congruent (Layered adapterOf) a b) :
    Matches (List.Forall₂ (Layered adapterOf)) (adapter.iterate a) (adapter.iterate b) := by
  have itself : Matches (List.Forall₂ (Layered adapterOf)) (pure [a] : Eval (List Value))
      (pure [b]) := matches_pure (.cons (.core congruent) .nil)
  cases adapter with
  | sequence =>
      apply matches_after
      intro host
      have error : b.notIterable = a.notIterable := congruent_error congruent _ _
      have same := layered_elements host by_class congruent
      generalize host.elements? a = left, host.elements? b = right at same ⊢
      cases same with
      | none =>
          rw [error]
          exact matches_throw _
      | some related => exact matches_pure related
  | reversed =>
      cases congruent with
      | same =>
          exact matches_refl (fun items => List.forall₂_same.mpr fun v _ => layered_same v) _
      | reversedList text items each =>
          simp only [Adapter.iterate, ← List.map_reverse]
          exact matches_pure (forall_of_pairs fun item member =>
            each item (List.mem_reverse.mp member))
      | _ => exact itself
  | _ => exact itself

end Mustache
