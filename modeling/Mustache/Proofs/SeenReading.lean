import Mustache.Proofs.Indistinct
import Mustache.Proofs.Seen

/-!
Reading what is seen. Taking the private members away before a value is read is taking them away
from what is read of it: the same calls are counted, the same entries made up and the same errors
raised. So two values of which the same is seen are not told apart.
-/

namespace Mustache

def Opening.map (change : Value → Value) : Opening → Opening
  | .closed => .closed
  | .opens inner => .opens (change inner)
  | .counts slot => .counts slot
  | .fails error => .fails error

open Value

/-! What a value says of a name. -/

theorem seen_call_opening (call : Call) (result : Value) :
    call.opening result.seen = (call.opening result).map seen := by
  unfold Call.opening
  cases call.act <;> rfl

theorem seen_count (slot : Slot) : seen <$> countCall slot = countCall slot := by
  unfold countCall
  simp only [map_bind, map_pure, seen]

theorem seen_take (opening : Opening) (v : Value) :
    (opening.map seen).take v.seen = seen <$> opening.take v := by
  cases opening with
  | counts slot => exact (seen_count slot).symm
  | closed | opens inner | fails error => rfl

theorem seen_run (call : Call) (result : Value) :
    call.run result.seen = seen <$> call.run result := by
  unfold Call.run
  rw [seen_call_opening, seen_take]

theorem seen_invoke (v : Value) (name : Text) : v.seen.invoke name = seen <$> v.invoke name := by
  unfold invoke
  split
  · rfl
  · next shown =>
      cases v with
      | object look members =>
          simp only [seen, seen_held (eq_false_of_ne_true shown)]
          cases held? name members with
          | none => rfl
          | some held =>
              cases held with
              | routine call result =>
                  simp only [Option.map_some, Held.seen]
                  split
                  · rfl
                  · exact seen_run call result
              | computed | plain => rfl
      | _ => rfl

theorem seen_computed (call : Call) (result otherwise : Value) :
    computed call result.seen otherwise.seen = seen <$> computed call result otherwise := by
  unfold computed
  split
  · rfl
  · exact seen_run call result

theorem seen_exposed (exposed : List (Text × Value)) :
    exposedMapping (seenFields exposed) = (exposedMapping exposed).seen := by
  simp only [exposedMapping, seen, seen_fields_eq, seen_entries_eq, List.map_map]
  rfl

theorem seen_attribute (v : Value) (name : Text) :
    v.seen.attributeOf name = seen <$> v.attributeOf name := by
  unfold attributeOf
  split
  · rfl
  · next shown =>
      have shown := eq_false_of_ne_true shown
      cases v with
      | object look members =>
          simp only [seen, seen_held shown, seen_dynamic shown]
          cases held? name members with
          | none => rfl
          | some held =>
              cases held with
              | computed call result => exact seen_computed call result _
              | routine | plain => rfl
      | namedTuple className fields =>
          simp only [seen, seen_field]
          cases field? name fields <;> rfl
      | wrapped layer exposed inner =>
          cases layer with
          | reference => rfl
          | box | subBox | loudBox =>
              simp only [seen, seen_exposed, apply_ite (seen <$> · : Eval Value → Eval Value)]
              rfl
      | _ => rfl

theorem seen_entry (v : Value) (name : Text) : v.seen.entry name = seen <$> v.entry name := by
  unfold entry
  simp only [map_bind]
  congr 1
  funext host
  rw [Host.seen_entry]
  cases host.entry v name with
  | found v => rfl
  | absent => rfl
  | made slot v => rfl
  | fails error =>
      simp only [Entry.map]
      split <;> rfl

theorem seen_adapter_invoke (adapter : Adapter) (v : Value) (name : Text) :
    adapter.invoke v.seen name = seen <$> adapter.invoke v name := by
  cases adapter with
  | object => exact seen_invoke v name
  | loud =>
      cases v with
      | wrapped layer exposed inner =>
          simp only [Adapter.invoke, seen, seen_field]
          cases field? name exposed <;> rfl
      | _ => rfl
  | _ => rfl

theorem seen_member_of (adapter : Adapter) (v : Value) (name : Text) :
    member adapter v.seen name = seen <$> member adapter v name := by
  have field : adapter.getField v.seen name = seen <$> adapter.getField v name := by
    cases adapter with
    | object => exact seen_attribute v name
    | _ => rfl
  have key : adapter.getKey v.seen name = seen <$> adapter.getKey v name := by
    cases adapter with
    | mapping => exact seen_entry v name
    | _ => rfl
  unfold member
  rw [field, bind_map_left, map_bind]
  congr 1
  funext found
  rw [seen_missing]
  split
  · exact key
  · rfl

/-- Objects are read by their members. -/
def ReadsObjects (adapterOf : Value → Adapter) : Prop :=
  ∀ look members, adapterOf (.object look members) = .object

theorem seen_no_attribute {v : Value} (other : ∀ look members, v ≠ .object look members)
    (name : Text) : v.seen.noAttribute name = v.noAttribute name := by
  cases v with
  | object look members => exact absurd rfl (other look members)
  | sequence shape items => cases shape <;> rfl
  | mapping shape address entries => cases shape <;> rfl
  | wrapped layer exposed inner => cases layer <;> rfl
  | _ => rfl

theorem seen_content {v : Value} (other : ∀ look members, v ≠ .object look members) :
    v.seen.content = v.content.map seen := by
  have lacks := seen_no_attribute other contentName
  cases v with
  | object look members => exact absurd rfl (other look members)
  | namedTuple className fields =>
      simp only [seen, content, seen_field]
      cases field? contentName fields <;> rfl
  | wrapped layer exposed inner => cases layer <;> rfl
  | _ => exact congrArg Opening.fails lacks

theorem seen_opening {v : Value} (other : ∀ look members, v ≠ .object look members)
    (adapter : Adapter) : adapter.opening v.seen = (adapter.opening v).map seen := by
  have uncalled : v.seen.notCallable = v.notCallable := seen_error v _ _
  cases adapter with
  | box | loud => exact seen_content other
  | reference =>
      cases v with
      | function call result =>
          simp only [Adapter.opening, seen]
          split
          · rfl
          · exact seen_call_opening call result
      | wrapped layer exposed inner => cases layer <;> rfl
      | _ => exact congrArg Opening.fails uncalled
  | _ => rfl

/-! What a section needs to know. -/

theorem seen_iterate (adapter : Adapter) (v : Value) :
    adapter.iterate v.seen = List.map seen <$> adapter.iterate v := by
  cases adapter with
  | sequence =>
      have error : v.seen.notIterable = v.notIterable := seen_error v _ _
      simp only [Adapter.iterate, map_bind]
      congr 1
      funext host
      rw [Host.seen_elements, error]
      cases host.elements? v <;> rfl
  | reversed =>
      cases v with
      | reversedList text items =>
          simp only [Adapter.iterate, seen, seen_all_eq, map_pure, List.map_reverse]
      | _ => rfl
  | _ => rfl

section Reading
variable {adapterOf : Value → Adapter} (by_class : ByClass adapterOf)
  (reads : ReadsObjects adapterOf)

section Objects
include reads

theorem seen_adapter_empty (v : Value) :
    (adapterOf v).isEmpty v.seen = (adapterOf v).isEmpty v := by
  have plain : (do return !(← get).isTrue v.seen : Eval Bool) = do return !(← get).isTrue v := by
    simp only [Host.seen_truth]
  by_cases object : ∃ look members, v = .object look members
  · obtain ⟨look, members, rfl⟩ := object
    rw [reads]
    exact plain
  · have other : ∀ look members, v ≠ .object look members :=
      fun look members is => object ⟨look, members, is⟩
    have length : Adapter.hasNoLength v.seen = Adapter.hasNoLength v := by
      have error : v.seen.noLength = v.noLength := seen_error v _ _
      unfold Adapter.hasNoLength
      simp only [Host.seen_length _ other, error]
    cases adapterOf v with
    | sequence | mapping => exact length
    | scalar => cases v <;> first | exact plain | rfl
    | reversed =>
        cases v with
        | reversedList text items => simp only [Adapter.isEmpty, seen, seen_all_eq, List.isEmpty_map]
        | _ => exact plain
    | _ => exact plain

theorem seen_opening_of (v : Value) :
    (adapterOf v).opening v.seen = ((adapterOf v).opening v).map seen := by
  by_cases object : ∃ look members, v = .object look members
  · obtain ⟨look, members, rfl⟩ := object
    rw [reads]
    rfl
  · exact seen_opening (fun look members is => object ⟨look, members, is⟩) _

end Objects

include by_class

theorem seen_adapter (v : Value) : adapterOf v.seen = adapterOf v :=
  by_class v.seen v (seen_lineage v)

include reads

theorem seen_settle (v : Value) : settle adapterOf v.seen = seen <$> settle adapterOf v := by
  unfold settle
  rw [seen_adapter by_class, seen_opening_of reads]
  cases (adapterOf v).opening v <;> rfl

theorem seen_settled (slot : Slot) :
    seen <$> (countCall slot >>= settle adapterOf) = countCall slot >>= settle adapterOf := by
  calc seen <$> (countCall slot >>= settle adapterOf)
      = countCall slot >>= fun count => settle adapterOf count.seen := by
        rw [map_bind]
        congr 1
        funext count
        exact (seen_settle by_class reads count).symm
    _ = (seen <$> countCall slot) >>= settle adapterOf := (bind_map_left seen _ _).symm
    _ = countCall slot >>= settle adapterOf := by rw [seen_count]

theorem seen_strip (v : Value) : strip adapterOf v.seen = seen <$> strip adapterOf v := by
  rw [strip_eq, strip_eq, seen_absent, seen_adapter by_class, seen_opening_of reads]
  split
  · rfl
  · cases opening : (adapterOf v).opening v with
    | closed => rfl
    | opens inner =>
        have smaller := Adapter.size_opening opening
        exact seen_strip inner
    | counts slot => exact (seen_settled by_class reads slot).symm
    | fails error => rfl
termination_by sizeOf v

theorem seen_lookup_within (name : Text) (v : Value) :
    lookupWithin adapterOf name v.seen = seen <$> lookupWithin adapterOf name v := by
  rw [lookup_within_eq, lookup_within_eq, seen_absent, seen_adapter by_class,
    seen_opening_of reads]
  split
  · rfl
  · rw [seen_adapter_invoke, bind_map_left, map_bind]
    congr 1
    funext found
    rw [seen_missing]
    split
    · cases opening : (adapterOf v).opening v with
      | closed => exact seen_member_of _ v name
      | opens inner =>
          have smaller := Adapter.size_opening opening
          exact seen_lookup_within name inner
      | counts slot =>
          -- The count itself is seen as it is, so only the member of it is left.
          let counted := countCall slot >>= settle adapterOf
          let answer (count : Value) : Eval Value := member (adapterOf count) count name
          calc counted >>= answer
              = (seen <$> counted) >>= answer := by rw [seen_settled by_class reads]
            _ = counted >>= fun count => answer count.seen := bind_map_left seen counted answer
            _ = seen <$> (counted >>= answer) := by
                simp only [answer, seen_adapter by_class, seen_member_of, map_bind]
      | fails error => rfl
    · rfl
termination_by sizeOf v

end Reading
end Mustache
