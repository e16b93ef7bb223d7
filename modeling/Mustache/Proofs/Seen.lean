import Mathlib.Data.List.Basic
import Mustache.Proofs.Copies

/-!
What templates can see of data: of an object its public members, the name of its class and
whether it counts as true. The rest is taken away, in whatever holds the object. A copy of what
is seen is what is seen of the copy, and the answers of the host's data to what is seen are
what is seen of its answers.
-/

namespace Mustache

/-- The special members of an object, by which it has a truth, a length and texts, are private;
only its truth can be seen. -/
def Look.seen (look : Look) : Look :=
  { look with
    truth := some (look.truth.getD (look.length != some 0))
    length := none
    text := none
    showsFields := false }

namespace Value

mutual
def seen : Value → Value
  | .sequence shape items => .sequence shape (seenAll items)
  | .mapping shape address entries => .mapping shape address (seenEntries entries)
  | .filling address entries fill => .filling address (seenEntries entries) fill.seen
  | .namedTuple className fields => .namedTuple className (seenFields fields)
  | .object look members => .object look.seen (seenMembers members)
  | .function call result => .function call result.seen
  | .wrapped layer exposed inner => .wrapped layer (seenFields exposed) inner.seen
  | .reversedList text items => .reversedList text (seenAll items)
  | v => v

def seenAll : List Value → List Value
  | [] => []
  | v :: rest => v.seen :: seenAll rest

def seenEntries : List (Value × Value) → List (Value × Value)
  | [] => []
  | (key, v) :: rest => (key.seen, v.seen) :: seenEntries rest

def seenFields : List (Text × Value) → List (Text × Value)
  | [] => []
  | (name, v) :: rest => (name, v.seen) :: seenFields rest

def seenMembers : List (Text × Access × Value) → List (Text × Access × Value)
  | [] => []
  | (name, access, v) :: rest =>
      if isPrivate name then seenMembers rest
      else (name, access, v.seen) :: seenMembers rest
end

def seenEntry (entry : Value × Value) : Value × Value := (entry.1.seen, entry.2.seen)

end Value

def Held.seen : Held → Held
  | .routine call result => .routine call result.seen
  | .computed call result => .computed call result.seen
  | .plain v => .plain v.seen

namespace Value

theorem seen_all_eq (items : List Value) : seenAll items = items.map seen := by
  induction items with
  | nil => rfl
  | cons v rest ih => rw [seenAll, ih, List.map_cons]

theorem seen_entries_eq (entries : List (Value × Value)) :
    seenEntries entries = entries.map seenEntry := by
  induction entries with
  | nil => rfl
  | cons entry rest ih => rw [seenEntries, ih, List.map_cons, seenEntry]

theorem seen_fields_eq (fields : List (Text × Value)) :
    seenFields fields = fields.map fun field => (field.1, field.2.seen) := by
  induction fields with
  | nil => rfl
  | cons field rest ih => rw [seenFields, ih, List.map_cons]

theorem seen_members_eq (members : List (Text × Access × Value)) :
    seenMembers members = (members.filter fun member => !isPrivate member.1).map
      fun member => (member.1, member.2.1, member.2.2.seen) := by
  induction members with
  | nil => rfl
  | cons member rest ih =>
      rw [seenMembers, ih, List.filter_cons]
      cases isPrivate member.1 <;> rfl

/-! A copy of what is seen. -/

mutual
theorem move_seen (base : Slot) : ∀ v : Value, (v.moveTo base).seen = v.seen.moveTo base
  | .sequence shape items => congrArg (sequence shape) (move_seen_all base items)
  | .mapping shape _ entries => congrArg (mapping shape _) (move_seen_entries base entries)
  | .filling _ entries fill =>
      congrArg (fun entries => filling _ entries fill.seen) (move_seen_entries base entries)
  | .namedTuple className fields => congrArg (namedTuple className) (move_seen_fields base fields)
  | .object look members => congrArg (object look.seen) (move_seen_members base members)
  | .function _ result => congrArg (function _) (move_seen base result)
  | .wrapped layer exposed inner =>
      congrArg₂ (wrapped layer) (move_seen_fields base exposed) (move_seen base inner)
  | .reversedList text items => congrArg (reversedList text) (move_seen_all base items)
  | .null | .missing | .bool _ | .int _ | .float _ | .exactNumber _ _ | .str _ | .bytes _ _
  | .moment _ | .range _ | .onceList _ | .bare _ => rfl

theorem move_seen_all (base : Slot) : ∀ items : List Value,
    seenAll (moveAll base items) = moveAll base (seenAll items)
  | [] => rfl
  | v :: rest => congrArg₂ List.cons (move_seen base v) (move_seen_all base rest)

theorem move_seen_entries (base : Slot) : ∀ entries : List (Value × Value),
    seenEntries (moveEntries base entries) = moveEntries base (seenEntries entries)
  | [] => rfl
  | (key, v) :: rest =>
      congrArg₂ List.cons (congrArg₂ Prod.mk (move_seen base key) (move_seen base v))
        (move_seen_entries base rest)

theorem move_seen_fields (base : Slot) : ∀ fields : List (Text × Value),
    seenFields (moveFields base fields) = moveFields base (seenFields fields)
  | [] => rfl
  | (name, v) :: rest =>
      congrArg₂ List.cons (congrArg (Prod.mk name) (move_seen base v)) (move_seen_fields base rest)

theorem move_seen_members (base : Slot) : ∀ members : List (Text × Access × Value),
    seenMembers (moveMembers base members) = moveMembers base (seenMembers members)
  | [] => rfl
  | (name, access, v) :: rest => by
      have others := move_seen_members base rest
      have here := move_seen base v
      simp only [moveMembers, seenMembers]
      split
      · exact others
      · rw [moveMembers, here, others]
end

/-! What is the same for what is seen. -/

theorem seen_lineage (v : Value) : v.seen.lineage = v.lineage := by
  cases v with
  | sequence shape items => cases shape <;> rfl
  | mapping shape address entries => cases shape <;> rfl
  | wrapped layer exposed inner => cases layer <;> rfl
  | _ => rfl

theorem seen_type (v : Value) : v.seen.fullTypeName = v.fullTypeName := by
  cases v with
  | sequence shape items => cases shape <;> rfl
  | mapping shape address entries => cases shape <;> rfl
  | wrapped layer exposed inner => cases layer <;> rfl
  | _ => rfl

theorem seen_error (v : Value) (before after : String) :
    v.seen.typeError before after = v.typeError before after := by
  rw [typeError, typeError, seen_type]

theorem seen_not_keyed (v : Value) : v.seen.notKeyed = v.notKeyed := by
  cases v with
  | sequence shape items => cases shape <;> rfl
  | mapping shape address entries => cases shape <;> rfl
  | wrapped layer exposed inner => cases layer <;> rfl
  | _ => rfl

theorem seen_null (v : Value) : v.seen.isNull = v.isNull := by cases v <;> rfl

theorem seen_missing (v : Value) : v.seen.isMissing = v.isMissing := by cases v <;> rfl

theorem seen_absent (v : Value) : v.seen.isAbsent = v.isAbsent := by
  rw [isAbsent, isAbsent, seen_null, seen_missing]

theorem seen_same_key (key : Value) (name : Text) :
    sameKey key.seen (.str name) = sameKey key (.str name) := by
  cases key with
  | sequence shape items => cases shape <;> rfl
  | _ => rfl

/-! What is found under a name. -/

theorem seen_find (name : Text) (entries : List (Value × Value)) :
    find? name (entries.map seenEntry) = (find? name entries).map seen := by
  induction entries with
  | nil => rfl
  | cons entry rest ih =>
      obtain ⟨key, v⟩ := entry
      cases key with
      | str key =>
          simp only [List.map_cons, seenEntry, seen, find?]
          split
          · rfl
          · exact ih
      | _ => exact ih

theorem seen_field (name : Text) (fields : List (Text × Value)) :
    field? name (seenFields fields) = (field? name fields).map seen := by
  unfold field?
  rw [seen_fields_eq, List.find?_map, Option.map_map, Option.map_map]
  rfl

theorem seen_find_member {name : Text} (shown : isPrivate name = false) (test : Access → Bool)
    (members : List (Text × Access × Value)) :
    (seenMembers members).find? (fun member => member.1 = name && test member.2.1) =
      (members.find? fun member => member.1 = name && test member.2.1).map
        fun member => (member.1, member.2.1, member.2.2.seen) := by
  rw [seen_members_eq, List.find?_map, List.find?_filter]
  congr 2
  funext member
  by_cases named : member.1 = name
  · simp [named, shown]
  · simp [named]

theorem seen_holds (access : Access) (v : Value) :
    access.holds v.seen = (access.holds v).seen := by
  rcases v.function_or_data with ⟨call, result, rfl⟩ | data
  · cases access <;> rfl
  · have seen_data (call : Call) (result : Value) : v.seen ≠ .function call result := by
      cases v with
      | function call' result' => exact absurd rfl (data call' result')
      | _ => exact Value.noConfusion
    rw [Access.holds_data access data, Access.holds_data access seen_data]
    rfl

theorem seen_held {name : Text} (shown : isPrivate name = false)
    (members : List (Text × Access × Value)) :
    held? name (seenMembers members) = (held? name members).map Held.seen := by
  unfold held? member?
  rw [seen_find_member shown (· != .dynamic)]
  simp only [Option.map_map, Function.comp_def, seen_holds]

theorem seen_dynamic {name : Text} (shown : isPrivate name = false)
    (members : List (Text × Access × Value)) :
    dynamicMember name (seenMembers members) = (dynamicMember name members).seen := by
  unfold dynamicMember dynamicMember?
  rw [seen_find_member shown (· == .dynamic)]
  cases members.find? fun member => member.1 = name && member.2.1 == .dynamic <;> rfl

end Value

/-! What the host keeps of a value. -/

namespace Host
open Value

theorem seen_set_entry (key : Text) (v : Value) (entries : List (Value × Value)) :
    (setEntry (.str key) v entries).map seenEntry =
      setEntry (.str key) v.seen (entries.map seenEntry) := by
  induction entries with
  | nil => rfl
  | cons entry rest ih =>
      simp only [setEntry, List.map_cons, seenEntry, seen_same_key]
      split
      · rfl
      · rw [List.map_cons, ih, seenEntry]

theorem seen_changes {made made' : Nat → Text → Value}
    (same : ∀ index key, made' index key = (made index key).seen) (changes : List Change)
    (index : Nat) (entries : List (Value × Value)) :
    Change.applyAll made' (fun _ text => .str text) index changes (entries.map seenEntry) =
      (Change.applyAll made (fun _ text => .str text) index changes entries).map seenEntry := by
  induction changes generalizing index entries with
  | nil => rfl
  | cons change rest ih =>
      have here : change.apply (made' index) (fun _ text => .str text) (entries.map seenEntry) =
          (change.apply (made index) (fun _ text => .str text) entries).map seenEntry := by
        cases change with
        | fill key => exact (same index key ▸ seen_set_entry key _ entries).symm
        | set key text => exact (seen_set_entry key (.str text) entries).symm
        | erase key =>
            simp only [Change.apply, List.filter_map, Function.comp_def, seenEntry, seen_same_key]
      rw [Change.applyAll, here, ih, Change.applyAll]

theorem seen_entries (host : Host) (v : Value) :
    host.entries v.seen = (host.entries v).map seenEntry := by
  cases v with
  | mapping shape address entries =>
      cases address with
      | none => exact seen_entries_eq entries
      | some address =>
          have stored (_ : Nat) (key : Text) : Value.str key = (Value.str key).seen := rfl
          rw [seen, seen_entries_eq]
          exact seen_changes stored _ 0 entries
  | filling address entries fill =>
      rw [seen, seen_entries_eq]
      exact seen_changes (fun index _ => (move_seen _ fill).symm) _ 0 entries
  | _ => rfl

end Host

def Entry.map (change : Value → Value) : Entry → Entry
  | .found v => .found (change v)
  | .absent => .absent
  | .made slot v => .made slot (change v)
  | .fails error => .fails error

namespace Host
open Value

theorem seen_entry (host : Host) (v : Value) (name : Text) :
    host.entry v.seen name = (host.entry v name).map seen := by
  have found := congrArg (find? name) (host.seen_entries v)
  rw [seen_find] at found
  have lacks := seen_not_keyed v
  cases v with
  | mapping shape address entries =>
      simp only [seen, entry] at found ⊢
      rw [found]
      cases find? name (host.entries (.mapping shape address entries)) with
      | some v => rfl
      | none => cases shape <;> rfl
  | filling address entries fill =>
      simp only [seen, entry] at found ⊢
      rw [found]
      cases find? name (host.entries (.filling address entries fill)) with
      | some v => rfl
      | none => exact congrArg (Entry.made _) (move_seen _ fill).symm
  | _ => exact congrArg Entry.fails lacks

theorem seen_elements (host : Host) (v : Value) :
    host.elements? v.seen = (host.elements? v).map (List.map seen) := by
  have keys : (host.entries v.seen).map (·.1) = ((host.entries v).map (·.1)).map seen := by
    rw [seen_entries, List.map_map, List.map_map]
    rfl
  cases v with
  | sequence shape items => exact congrArg some (seen_all_eq items)
  | mapping shape address entries => exact congrArg some keys
  | filling address entries fill => exact congrArg some keys
  | namedTuple className fields =>
      simp only [seen, elements?, seen_fields_eq, Option.map_some, List.map_map]
      rfl
  | str text =>
      simp only [seen, elements?, Option.map_some, List.map_map]
      rfl
  | bytes isMutable content =>
      simp only [seen, elements?, Option.map_some, List.map_map]
      rfl
  | range stop =>
      simp only [seen, elements?, Option.map_some, List.map_map]
      rfl
  | _ => rfl

theorem seen_length (host : Host) {v : Value}
    (other : ∀ look members, v ≠ .object look members) : host.length? v.seen = host.length? v := by
  have elements : (host.elements? v.seen).map List.length = (host.elements? v).map List.length := by
    rw [seen_elements, Option.map_map]
    congr 1
    funext items
    exact List.length_map seen
  cases v with
  | object look members => exact absurd rfl (other look members)
  | range stop => rfl
  | _ => exact elements

theorem seen_truth (host : Host) (v : Value) : host.isTrue v.seen = host.isTrue v := by
  by_cases object : ∃ look members, v = .object look members
  · obtain ⟨look, members, rfl⟩ := object
    rfl
  · have same := host.seen_length fun look members is => object ⟨look, members, is⟩
    cases v with
    | object look members => rfl
    | _ => first | rfl | exact congrArg (· != some 0) same

end Host
end Mustache
