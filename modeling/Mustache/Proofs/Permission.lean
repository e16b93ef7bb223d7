import Mustache.Proofs.Copies

/-!
What reading a value may do. A value can be filled or counted only at the slots of the mappings
and functions that are in it, or in what such mappings make up. What is found in a permitted value
is permitted, so a slot that is not in the data is never come to. Members of objects may be left
out of this by name, if templates do not see them.
-/

namespace Mustache

/-- What may be done: the slots of mappings that may be filled, the slots of functions that may
be counted, and the names of the members that objects are looked at by. -/
structure Permit where
  fills : Slot → Prop
  counts : Slot → Prop
  sees : Text → Bool
  sees_public : ∀ name, Value.isPrivate name = false → sees name = true

theorem public_seen (name : Text) (shown : Value.isPrivate name = false) :
    (!Value.isPrivate name) = true := by
  rw [shown]
  rfl

def Permit.still : Permit where
  fills _ := False
  counts _ := False
  sees name := !Value.isPrivate name
  sees_public := public_seen

namespace Value

def parts : Value → List Value
  | .sequence _ items | .reversedList _ items => items
  | .mapping _ _ entries | .filling _ entries _ => entries.flatMap fun entry => [entry.1, entry.2]
  | .namedTuple _ fields => fields.map (·.2)
  | .object _ members => members.map (·.2.2)
  | .function _ result => [result]
  | .wrapped _ exposed inner => inner :: exposed.map (·.2)
  | _ => []

def partsSeen (sees : Text → Bool) : Value → List Value
  | .object _ members => (members.filter fun member => sees member.1).map (·.2.2)
  | v => v.parts

def filling? : Value → Option (Slot × Value)
  | .filling address _ fill => some (address.within [], fill)
  | _ => none

def counting? : Value → Option Slot
  | .function ⟨_, .counts address, _⟩ _ => some (address.within [])
  | _ => none

/-- All that is seen of a value, or is made up by it, fills and counts at permitted slots. -/
inductive Permitted (permit : Permit) : Value → Prop
  | intro {v : Value} : (∀ slot fill, v.filling? = some (slot, fill) → permit.fills slot) →
      (∀ slot fill index, v.filling? = some (slot, fill) →
        Permitted permit (Host.madeValue slot fill index)) →
      (∀ slot, v.counting? = some slot → permit.counts slot) →
      (∀ part ∈ v.partsSeen permit.sees, Permitted permit part) → Permitted permit v

variable {permit : Permit} {v : Value}

theorem permitted_part (allowed : v.Permitted permit) {part : Value}
    (inside : part ∈ v.partsSeen permit.sees) : part.Permitted permit := by
  cases allowed with
  | intro _ _ _ parts => exact parts part inside

theorem permitted_filling (allowed : v.Permitted permit) {slot : Slot} {fill : Value}
    (own : v.filling? = some (slot, fill)) :
    permit.fills slot ∧ ∀ index, (Host.madeValue slot fill index).Permitted permit := by
  cases allowed with
  | intro slots made _ _ => exact ⟨slots slot fill own, fun index => made slot fill index own⟩

theorem permitted_counting (allowed : v.Permitted permit) {slot : Slot}
    (own : v.counting? = some slot) : permit.counts slot := by
  cases allowed with
  | intro _ _ counts _ => exact counts slot own

theorem permitted_plain (fixed : v.filling? = none) (silent : v.counting? = none)
    (allowed : ∀ part ∈ v.partsSeen permit.sees, part.Permitted permit) : v.Permitted permit := by
  constructor
  · intro slot fill own
    cases fixed.symm.trans own
  · intro slot fill index own
    cases fixed.symm.trans own
  · intro slot own
    cases silent.symm.trans own
  · exact allowed

theorem permitted_leaf (fixed : v.filling? = none) (silent : v.counting? = none)
    (single : v.partsSeen permit.sees = []) : v.Permitted permit := by
  apply permitted_plain fixed silent
  rw [single]
  exact List.forall_mem_nil _

theorem permitted_missing : Value.missing.Permitted permit := permitted_leaf rfl rfl rfl

theorem permitted_str (text : Text) : (Value.str text).Permitted permit :=
  permitted_leaf rfl rfl rfl

def EntriesPermitted (permit : Permit) (entries : List (Value × Value)) : Prop :=
  ∀ entry ∈ entries, entry.1.Permitted permit ∧ entry.2.Permitted permit

theorem entries_permitted_iff {entries : List (Value × Value)} :
    EntriesPermitted permit entries ↔
      ∀ part ∈ entries.flatMap fun entry => [entry.1, entry.2], part.Permitted permit := by
  simp only [EntriesPermitted, List.mem_flatMap, List.mem_pair]
  constructor
  · rintro allowed part ⟨entry, member, rfl | rfl⟩
    · exact (allowed entry member).1
    · exact (allowed entry member).2
  · intro allowed entry member
    exact ⟨allowed _ ⟨entry, member, .inl rfl⟩, allowed _ ⟨entry, member, .inr rfl⟩⟩

theorem permitted_mapping {shape : MappingShape} {address : Option Address}
    {entries : List (Value × Value)} (allowed : EntriesPermitted permit entries) :
    (Value.mapping shape address entries).Permitted permit :=
  permitted_plain rfl rfl (entries_permitted_iff.mp allowed)

theorem permitted_set_entry {key v : Value} {entries : List (Value × Value)}
    (allowed : EntriesPermitted permit entries) (key_allowed : key.Permitted permit)
    (v_allowed : v.Permitted permit) : EntriesPermitted permit (setEntry key v entries) := by
  induction entries with
  | nil => exact List.forall_mem_singleton.mpr ⟨key_allowed, v_allowed⟩
  | cons entry rest ih =>
      obtain ⟨here, later⟩ := List.forall_mem_cons.mp allowed
      unfold setEntry
      split
      · exact List.forall_mem_cons.mpr ⟨⟨here.1, v_allowed⟩, later⟩
      · exact List.forall_mem_cons.mpr ⟨here, ih later⟩

theorem permitted_changes {made : Nat → Text → Value} {stored : Text → Text → Value}
    (made_allowed : ∀ index key, (made index key).Permitted permit)
    (stored_allowed : ∀ key text, (stored key text).Permitted permit) (changes : List Change)
    (index : Nat) {entries : List (Value × Value)} (allowed : EntriesPermitted permit entries) :
    EntriesPermitted permit (Change.applyAll made stored index changes entries) := by
  induction changes generalizing index entries with
  | nil => exact allowed
  | cons change rest ih =>
      apply ih
      cases change with
      | fill key => exact permitted_set_entry allowed (permitted_str key) (made_allowed index key)
      | set key text =>
          exact permitted_set_entry allowed (permitted_str key) (stored_allowed key text)
      | erase key => exact fun entry member => allowed entry (List.mem_of_mem_filter member)

theorem permitted_find {name : Text} {entries : List (Value × Value)}
    (allowed : EntriesPermitted permit entries) (found : find? name entries = some v) :
    v.Permitted permit :=
  (allowed _ (mem_of_find? found)).2

theorem permitted_field {name : Text} {fields : List (Text × Value)}
    (allowed : ∀ part ∈ fields.map (·.2), part.Permitted permit)
    (found : field? name fields = some v) : v.Permitted permit := by
  obtain ⟨field, here, rfl⟩ := Option.map_eq_some_iff.mp found
  exact allowed _ (List.mem_map_of_mem (List.mem_of_find?_eq_some here))

section Members
variable {look : Look} {members : List (Text × Access × Value)} {name : Text}
  (allowed : (Value.object look members).Permitted permit) (shown : isPrivate name = false)

include allowed shown in
theorem permitted_found {member : Text × Access × Value} (inside : member ∈ members)
    (named : member.1 = name) : member.2.2.Permitted permit := by
  apply permitted_part allowed
  have seen : permit.sees member.1 = true := permit.sees_public _ (named ▸ shown)
  exact List.mem_map_of_mem (List.mem_filter.mpr ⟨inside, seen⟩)

include allowed shown in
theorem permitted_held {held : Held} (found : held? name members = some held) :
    held.value.Permitted permit := by
  obtain ⟨access, present⟩ := member_of_held found
  obtain ⟨member, here, same⟩ := Option.map_eq_some_iff.mp present
  have named := List.find?_some here
  simp only [Bool.and_eq_true, decide_eq_true_eq] at named
  have result := permitted_found allowed shown (List.mem_of_find?_eq_some here) named.1
  rw [same] at result
  exact result

include allowed shown in
theorem permitted_dynamic (found : dynamicMember? name members = some v) : v.Permitted permit := by
  obtain ⟨member, here, rfl⟩ := Option.map_eq_some_iff.mp found
  have named := List.find?_some here
  simp only [Bool.and_eq_true, decide_eq_true_eq] at named
  exact permitted_found allowed shown (List.mem_of_find?_eq_some here) named.1

include allowed shown in
theorem permitted_dynamic_member : (dynamicMember name members).Permitted permit := by
  unfold dynamicMember
  cases found : dynamicMember? name members with
  | none => exact permitted_missing
  | some v => exact permitted_dynamic allowed shown found

end Members

theorem permitted_result {call : Call} {result : Value}
    (allowed : (Value.function call result).Permitted permit) : result.Permitted permit :=
  permitted_part allowed List.mem_cons_self

theorem permitted_entries (host : Host) (allowed : v.Permitted permit) :
    EntriesPermitted permit (host.entries v) := by
  cases v with
  | mapping shape address entries =>
      have own : EntriesPermitted permit entries :=
        entries_permitted_iff.mpr fun part inside => permitted_part allowed inside
      cases address with
      | none => exact own
      | some address =>
          exact permitted_changes (fun _ => permitted_str) (fun _ => permitted_str) _ 0 own
  | filling address entries fill =>
      have own : EntriesPermitted permit entries :=
        entries_permitted_iff.mpr fun part inside => permitted_part allowed inside
      exact permitted_changes (fun index _ => (permitted_filling allowed rfl).2 index)
        (fun _ => permitted_str) _ 0 own
  | _ => exact fun _ member => nomatch member

theorem permitted_entry {found : Value} {host : Host} {name : Text} (allowed : v.Permitted permit)
    (entry : host.entry v name = .found found) : found.Permitted permit := by
  have entries := permitted_entries host allowed
  unfold Host.entry at entry
  split at entry
  · split at entry
    · next looked =>
        cases entry
        exact permitted_find entries looked
    · cases entry
    · cases entry
  · split at entry
    · next looked =>
        cases entry
        exact permitted_find entries looked
    · cases entry
  · cases entry

theorem permitted_entry_made {made : Value} {host : Host} {name : Text} {slot : Slot}
    (allowed : v.Permitted permit) (entry : host.entry v name = .made slot made) :
    permit.fills slot ∧ made.Permitted permit := by
  unfold Host.entry at entry
  split at entry
  · split at entry <;> cases entry
  · split at entry
    · cases entry
    · cases entry
      obtain ⟨here, made⟩ := permitted_filling allowed rfl
      exact ⟨here, made _⟩
  · cases entry

theorem permitted_elements {host : Host} {items : List Value} (allowed : v.Permitted permit)
    (elements : host.elements? v = some items) : ∀ item ∈ items, item.Permitted permit := by
  have keys : ∀ item ∈ (host.entries v).map (·.1), item.Permitted permit :=
    List.forall_mem_map.mpr fun entry member => (permitted_entries host allowed entry member).1
  unfold Host.elements? at elements
  split at elements <;> cases elements
  · exact List.forall_mem_map.mpr fun _ _ => permitted_str _
  · exact List.forall_mem_map.mpr fun _ _ => permitted_leaf rfl rfl rfl
  · exact List.forall_mem_map.mpr fun _ _ => permitted_leaf rfl rfl rfl
  · exact fun item => permitted_part allowed
  · exact keys
  · exact keys
  · exact fun item => permitted_part allowed

theorem permitted_dynamic_content {w inner : Value} {look : Look}
    {members : List (Text × Access × Value)}
    (allowed : (Value.object look members).Permitted permit)
    (opens : dynamicContent w members = .opens inner) : inner.Permitted permit := by
  unfold dynamicContent at opens
  split at opens
  · next found =>
      cases opens
      exact permitted_dynamic allowed rfl found
  · cases opens

theorem permitted_content {inner : Value} (allowed : v.Permitted permit)
    (opens : v.content = .opens inner) : inner.Permitted permit := by
  unfold content at opens
  split at opens
  · cases opens
  · cases opens
    exact permitted_part allowed List.mem_cons_self
  · split at opens
    · next found =>
        cases opens
        exact permitted_field (fun part => permitted_part allowed) found
    · cases opens
  · split at opens
    · next found =>
        cases opens
        exact permitted_held allowed rfl found
    · next found =>
        split at opens
        · split at opens
          · exact permitted_dynamic_content allowed opens
          · cases opens
        · cases Call.result_of_opening opens
          exact permitted_result (permitted_held allowed rfl found)
    · next found =>
        cases opens
        exact permitted_held allowed rfl found
    · exact permitted_dynamic_content allowed opens
  · cases opens

theorem permitted_opening {adapter : Adapter} {inner : Value} (allowed : v.Permitted permit)
    (opens : adapter.opening v = .opens inner) : inner.Permitted permit := by
  unfold Adapter.opening at opens
  split at opens
  · cases opens
    exact permitted_part allowed List.mem_cons_self
  · split at opens
    · cases opens
    · cases Call.result_of_opening opens
      exact permitted_result allowed
  · cases opens
  · exact permitted_content allowed opens
  · exact permitted_content allowed opens
  · cases opens

theorem permitted_call_counts {call : Call} {result : Value} {slot : Slot}
    (allowed : (Value.function call result).Permitted permit)
    (counts : call.opening result = .counts slot) : permit.counts slot := by
  obtain ⟨parameters, act, isMethod⟩ := call
  cases act with
  | counts address =>
      cases counts
      exact permitted_counting allowed rfl
  | returns | raises => cases counts

theorem dynamic_content_silent {w : Value} {members : List (Text × Access × Value)} {slot : Slot} :
    dynamicContent w members ≠ .counts slot := by
  unfold dynamicContent
  split <;> exact Opening.noConfusion

theorem permitted_content_counts {slot : Slot} (allowed : v.Permitted permit)
    (counts : v.content = .counts slot) : permit.counts slot := by
  unfold content at counts
  split at counts
  · cases counts
  · cases counts
  · split at counts <;> cases counts
  · split at counts
    · cases counts
    · next found =>
        split at counts
        · split at counts
          · exact absurd counts dynamic_content_silent
          · cases counts
        · exact permitted_call_counts (permitted_held allowed rfl found) counts
    · cases counts
    · exact absurd counts dynamic_content_silent
  · cases counts

theorem permitted_opening_counts {adapter : Adapter} {slot : Slot} (allowed : v.Permitted permit)
    (counts : adapter.opening v = .counts slot) : permit.counts slot := by
  unfold Adapter.opening at counts
  split at counts
  · cases counts
  · split at counts
    · cases counts
    · exact permitted_call_counts allowed counts
  · cases counts
  · exact permitted_content_counts allowed counts
  · exact permitted_content_counts allowed counts
  · cases counts

end Value

end Mustache
