import Mustache.Proofs.Effects

/-!
How much a rendering may do to data of which nothing is known. It calls functions and fills
mappings that make up entries, and takes nothing away, so what is not empty stays so.
-/

namespace Mustache

def Permit.anything : Permit where
  fills _ := True
  counts _ := True
  sees _ := true
  sees_public _ _ := rfl

namespace Value

theorem size_pair {α β : Type} [SizeOf α] [SizeOf β] {pairs : List (α × β)} {pair : α × β}
    (inside : pair ∈ pairs) : sizeOf pair.1 < sizeOf pairs ∧ sizeOf pair.2 < sizeOf pairs := by
  have smaller := List.sizeOf_lt_of_mem inside
  obtain ⟨first, second⟩ := pair
  simp only [Prod.mk.sizeOf_spec] at smaller
  dsimp only
  omega

theorem size_part {v part : Value} (inside : part ∈ v.parts) : sizeOf part < sizeOf v := by
  cases v with
  | sequence _ items | reversedList _ items =>
      have smaller : sizeOf part < sizeOf items := List.sizeOf_lt_of_mem inside
      simp only [sequence.sizeOf_spec, reversedList.sizeOf_spec]
      omega
  | mapping _ _ entries | filling _ entries _ =>
      obtain ⟨entry, member, own⟩ := List.mem_flatMap.mp inside
      have smaller := size_pair member
      rcases List.mem_pair.mp own with rfl | rfl <;>
        simp only [mapping.sizeOf_spec, filling.sizeOf_spec] <;> omega
  | namedTuple _ fields =>
      obtain ⟨field, member, rfl⟩ := List.mem_map.mp inside
      have smaller := size_pair member
      simp only [namedTuple.sizeOf_spec]
      omega
  | object look members =>
      obtain ⟨⟨name, access, w⟩, member, rfl⟩ := List.mem_map.mp inside
      have smaller := size_pair member
      simp only [object.sizeOf_spec, Prod.mk.sizeOf_spec] at smaller ⊢
      omega
  | function call result =>
      cases List.mem_singleton.mp inside
      simp only [function.sizeOf_spec]
      omega
  | wrapped layer exposed inner =>
      simp only [wrapped.sizeOf_spec]
      rcases List.mem_cons.mp inside with rfl | shown
      · omega
      · obtain ⟨field, member, rfl⟩ := List.mem_map.mp shown
        have smaller := size_pair member
        omega
  | _ => cases inside

theorem parts_of_seen {sees : Text → Bool} {v part : Value} (inside : part ∈ v.partsSeen sees) :
    part ∈ v.parts := by
  cases v with
  | object look members =>
      obtain ⟨member, kept, rfl⟩ := List.mem_map.mp inside
      exact List.mem_map_of_mem (List.mem_of_mem_filter kept)
  | _ => exact inside

theorem anything_of_parts {v : Value} (parts : ∀ part ∈ v.parts, part.Permitted .anything)
    (made : ∀ slot fill index, v.filling? = some (slot, fill) →
      (Host.madeValue slot fill index).Permitted .anything) : v.Permitted .anything :=
  .intro (fun _ _ _ => trivial) made (fun _ _ => trivial) fun part inside =>
    parts part (parts_of_seen inside)

theorem parts_move (base : Slot) (v : Value) : (v.moveTo base).parts = v.parts.map (moveTo base) := by
  cases v <;>
    simp [moveTo, parts, move_all_eq, move_entries_eq, move_fields_eq, move_members_eq,
      List.flatMap_map, List.map_flatMap, Function.comp_def]

theorem size_filling {v fill : Value} {slot : Slot} (own : v.filling? = some (slot, fill)) :
    sizeOf fill < sizeOf v := by
  cases v with
  | filling address entries fill' =>
      cases own
      simp only [filling.sizeOf_spec]
      omega
  | _ => cases own

theorem filling_move {base slot : Slot} {v fill : Value}
    (own : (v.moveTo base).filling? = some (slot, fill)) :
    ∃ slot', v.filling? = some (slot', fill) := by
  cases v with
  | filling address entries fill' =>
      cases own
      exact ⟨_, rfl⟩
  | _ => cases own

theorem copy_permitted (base : Slot) (v : Value) : (v.moveTo base).Permitted .anything := by
  apply anything_of_parts
  · rw [parts_move]
    intro part inside
    obtain ⟨source, member, rfl⟩ := List.mem_map.mp inside
    have smaller := size_part member
    exact copy_permitted base source
  · -- A copy makes up the same, but at its own slot.
    intro slot fill index own
    obtain ⟨slot', source⟩ := filling_move own
    have smaller := size_filling source
    exact copy_permitted (slot ++ [index]) fill
termination_by sizeOf v

theorem permitted_anything (v : Value) : v.Permitted .anything := by
  -- Only that a value has finitely many parts is used: each one is smaller than the whole.
  apply anything_of_parts
  · intro part inside
    have smaller := size_part inside
    exact permitted_anything part
  · exact fun slot fill index _ => copy_permitted (slot ++ [index]) fill
termination_by sizeOf v

end Value

namespace Grown
variable {a b : Host}

theorem of_changes (same : b.changes = a.changes) : Grown .anything a b where
  calls _ silent := absurd trivial silent
  changes slot := ⟨[], by rw [same, List.map_nil, List.append_nil]⟩
  spared _ fixed := absurd trivial fixed

end Grown

section Rendering
open Render

theorem nodes_grow (settings : Settings) (depth : Nat) (siblings : List Node) (chain : Chain)
    (start : Progress) :
    Grown .anything start.host
      (final (nodes settings (expandPartial settings depth) siblings chain start)).host := by
  have provider : settings.provider.Permitted .anything := by
    cases settings.provider with
    | dictionary partials | recording partials _ => exact partials.permitted_anything
    | empty | failing _ _ => trivial
  exact Ahead.run_grows ⟨depth, siblings, chain, start⟩ provider fun v _ => v.permitted_anything

theorem each_grow {body : Chain → Render Unit}
    (grows : ∀ chain start, Grown .anything start.host (final (body chain start)).host)
    (chains : List Chain) (start : Progress) :
    Grown .anything start.host (final (chains.forM body start)).host := by
  induction chains generalizing start with
  | nil => exact .refl _
  | cons chain rest ih =>
      have first := grows chain start
      show Grown .anything start.host (final ((body chain >>= fun _ => rest.forM body) start)).host
      -- The chains behind a failure are not rendered.
      cases ran : body chain start with
      | error fault after =>
          rw [ran] at first
          rw [bind_of_error ran]
          exact first
      | ok result after =>
          rw [ran] at first
          rw [bind_of_ok ran]
          exact first.trans (ih after)

end Rendering

/-! Filling a mapping takes no entry away. -/

section Entries

theorem set_entry_length {α : Type} (key : Value) (v : α) (entries : List (Value × α)) :
    entries.length ≤ (Value.setEntry key v entries).length := by
  induction entries with
  | nil => exact Nat.zero_le _
  | cons entry rest ih =>
      unfold Value.setEntry
      split
      · exact Nat.le_refl _
      · exact Nat.succ_le_succ ih

variable {α : Type} (made : Nat → Text → α) (stored : Text → Text → α)

theorem changes_append (index : Nat) (changes more : List Change) (entries : List (Value × α)) :
    Change.applyAll made stored index (changes ++ more) entries =
      Change.applyAll made stored (index + changes.length) more
        (Change.applyAll made stored index changes entries) := by
  induction changes generalizing index entries with
  | nil => rfl
  | cons change rest ih =>
      rw [List.cons_append, Change.applyAll, ih, Change.applyAll, List.length_cons,
        Nat.add_assoc, Nat.add_comm 1]

theorem fills_length (index : Nat) (keys : List Text) (entries : List (Value × α)) :
    entries.length ≤ (Change.applyAll made stored index (keys.map .fill) entries).length := by
  induction keys generalizing index entries with
  | nil => exact Nat.le_refl _
  | cons key rest ih => exact Nat.le_trans (set_entry_length _ _ entries) (ih _ _)

variable {a b : Host}

theorem entries_grow (grown : Grown .anything a b) (v : Value) :
    (a.entries v).length ≤ (b.entries v).length := by
  cases v with
  | mapping shape address entries =>
      cases address with
      | none => exact Nat.le_refl _
      | some address =>
          obtain ⟨keys, more⟩ := grown.changes (address.within [])
          dsimp only [Host.entries]
          rw [more, changes_append]
          exact fills_length _ _ _ keys _
  | filling address entries fill =>
      obtain ⟨keys, more⟩ := grown.changes (address.within [])
      dsimp only [Host.entries]
      rw [more, changes_append]
      exact fills_length _ _ _ keys _
  | _ => exact Nat.le_refl _

/-- Lengths that only grow. -/
theorem length_grows (grown : Grown .anything a b) (v : Value) :
    a.length? v = b.length? v ∨
      ∃ n m, a.length? v = some n ∧ b.length? v = some m ∧ n ≤ m := by
  cases v with
  | mapping shape address entries =>
      refine .inr ⟨_, _, rfl, rfl, ?_⟩
      simpa using entries_grow grown (.mapping shape address entries)
  | filling address entries fill =>
      refine .inr ⟨_, _, rfl, rfl, ?_⟩
      simpa using entries_grow grown (.filling address entries fill)
  | _ => exact .inl rfl

def answered {α : Type} (answer : Except Fault α) (host : Host) : EStateM.Result Fault Host α :=
  match answer with
  | .ok result => .ok result host
  | .error fault => .error fault host

/-- What is asked is told by the length of `v`, if by anything of the host's data, and what is
not empty is not when it is longer. -/
def ByLength (v : Value) (ask : Eval Bool) : Prop :=
  ∃ answer : Option Nat → Except Fault Bool,
    (∀ host, ask host = answered (answer (host.length? v)) host) ∧
      ∀ n m, n ≤ m → answer (some n) = .ok false → answer (some m) = .ok false

theorem by_length_fixed (v : Value) (empty : Bool) : ByLength v (pure empty) :=
  ⟨fun _ => .ok empty, fun _ => rfl, fun _ _ _ => id⟩

theorem by_length_sized (v : Value) : ByLength v (Adapter.hasNoLength v) := by
  refine ⟨fun length => length.elim (.error (.host v.noLength)) fun n => .ok (decide (n = 0)),
    fun host => ?_, fun n m more full => ?_⟩
  · have read : (get : Eval Host) host = .ok host host := rfl
    unfold Adapter.hasNoLength
    rw [bind_of_ok read]
    cases host.length? v <;> rfl
  · have nonzero : n ≠ 0 := by simpa using full
    have longer : m ≠ 0 := by omega
    simpa using longer

theorem by_length_true (v : Value) :
    ByLength v (get >>= fun host : Host => pure (!host.isTrue v)) := by
  have fixed (same : ∀ host : Host, host.isTrue v = Host.initial.isTrue v) :
      ByLength v (get >>= fun host : Host => pure (!host.isTrue v)) := by
    refine ⟨fun _ => .ok (!Host.initial.isTrue v), fun host => ?_, fun _ _ _ => id⟩
    rw [← same host]
    rfl
  cases v with
  | null | missing | bool _ | int _ | float _ | exactNumber _ _ | object _ _ =>
      exact fixed fun _ => rfl
  | _ =>
      refine ⟨fun length => .ok (!(length != some 0)), fun _ => rfl, fun n m more full => ?_⟩
      have nonzero : n ≠ 0 := by simpa using full
      have longer : m ≠ 0 := by omega
      simpa using longer

theorem empty_by_length (adapter : Adapter) (v : Value) : ByLength v (adapter.isEmpty v) := by
  unfold Adapter.isEmpty
  split
  · exact by_length_fixed _ _
  · exact by_length_sized v
  · exact by_length_sized v
  · exact by_length_fixed _ _
  · exact by_length_true v

theorem answered_ok {α : Type} {answer : Except Fault α} {result : α} {host after : Host}
    (told : answered answer host = .ok result after) : answer = .ok result := by
  cases answer with
  | ok other =>
      cases told
      rfl
  | error fault => cases told

/-- What is not empty stays so. -/
theorem full_grows (grown : Grown .anything a b) {adapter : Adapter} {v : Value}
    (full : adapter.isEmpty v a = .ok false a) : adapter.isEmpty v b = .ok false b := by
  obtain ⟨answer, told, longer⟩ := empty_by_length adapter v
  rw [told] at full ⊢
  have before := answered_ok full
  obtain same | ⟨n, m, length, length', more⟩ := length_grows grown v
  · rw [← same, before]
    rfl
  · rw [length] at before
    rw [length', longer n m more before]
    rfl

/-- Where no mapping has changed, the same is empty. -/
theorem empty_kept (same : b.changes = a.changes) {adapter : Adapter} {v : Value} {empty : Bool}
    (here : adapter.isEmpty v a = .ok empty a) : adapter.isEmpty v b = .ok empty b := by
  obtain ⟨answer, told, -⟩ := empty_by_length adapter v
  have length : b.length? v = a.length? v := by
    obtain kept | ⟨n, m, before, after, more⟩ := length_grows (Grown.of_changes same) v
    · exact kept.symm
    · obtain kept | ⟨m', n', after', before', less⟩ :=
        length_grows (Grown.of_changes same.symm) v
      · exact kept
      · cases after.symm.trans after'
        cases before.symm.trans before'
        rw [before, after, Nat.le_antisymm more less]
  rw [told] at here ⊢
  rw [length, answered_ok here]
  rfl

end Entries

end Mustache
