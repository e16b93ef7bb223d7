import Mustache.Lookup
import Mustache.Provider

/-!
What the reading of the host's data depends on, and what it may change. It does not see
what the providers were asked for, and the changes it makes come after those made before.
-/

namespace Mustache

def final {ε σ α : Type} : EStateM.Result ε σ α → σ
  | .ok _ state => state
  | .error _ state => state

def Agree {ε σ α : Type} (like : σ → σ → Prop) : EStateM.Result ε σ α → EStateM.Result ε σ α → Prop
  | .ok result state, .ok result' state' => result = result' ∧ like state state'
  | .error fault state, .error fault' state' => fault = fault' ∧ like state state'
  | _, _ => False

theorem agree_final {ε σ α : Type} {like : σ → σ → Prop} {left right : EStateM.Result ε σ α}
    (agree : Agree like left right) : like (final left) (final right) := by
  cases left <;> cases right
  · exact agree.2
  · exact agree.elim
  · exact agree.elim
  · exact agree.2

theorem agree_of_ok {ε σ α : Type} {like : σ → σ → Prop} {result : α} {state : σ}
    {right : EStateM.Result ε σ α} (agree : Agree like (.ok result state) right) :
    ∃ after, right = .ok result after ∧ like state after := by
  cases right with
  | error fault after => exact absurd agree id
  | ok result' after =>
      obtain ⟨rfl, same⟩ := agree
      exact ⟨after, rfl, same⟩

theorem agree_of_error {ε σ α : Type} {like : σ → σ → Prop} {fault : ε} {state : σ}
    {right : EStateM.Result ε σ α} (agree : Agree like (.error fault state) right) :
    ∃ after, right = .error fault after ∧ like state after := by
  cases right with
  | ok result after => exact absurd agree id
  | error fault' after =>
      obtain ⟨rfl, same⟩ := agree
      exact ⟨after, rfl, same⟩

theorem agree_flip {ε σ α : Type} {like like' : σ → σ → Prop} (flip : ∀ a b, like a b → like' b a)
    {left right : EStateM.Result ε σ α} (agree : Agree like left right) :
    Agree like' right left := by
  cases left <;> cases right
  · exact ⟨agree.1.symm, flip _ _ agree.2⟩
  · exact absurd agree id
  · exact absurd agree id
  · exact ⟨agree.1.symm, flip _ _ agree.2⟩

theorem agree_trans {ε σ α : Type} {like like' like'' : σ → σ → Prop}
    (trans : ∀ a b c, like a b → like' b c → like'' a c) {a b c : EStateM.Result ε σ α}
    (first : Agree like a b) (second : Agree like' b c) : Agree like'' a c := by
  cases a <;> cases b <;> cases c
  all_goals first
    | exact absurd first id
    | exact absurd second id
    | exact ⟨first.1.trans second.1, trans _ _ _ first.2 second.2⟩

section Bind
variable {ε σ α β : Type} {act : EStateM ε σ α} {start after : σ}

theorem bind_of_ok {result : α} (ran : act start = .ok result after)
    (next : α → EStateM ε σ β) : (act >>= next) start = next result after := by
  show EStateM.bind act next start = _
  rw [EStateM.bind, ran]

theorem bind_of_error {fault : ε} (ran : act start = .error fault after)
    (next : α → EStateM ε σ β) : (act >>= next) start = .error fault after := by
  show EStateM.bind act next start = _
  rw [EStateM.bind, ran]

end Bind

namespace Host

def Before (now later : Host) : Prop := ∀ slot, now.changes slot <+: later.changes slot

theorem before_refl (host : Host) : host.Before host := fun _ => List.prefix_refl _

theorem before_trans {a b c : Host} (first : a.Before b) (second : b.Before c) : a.Before c :=
  fun slot => (first slot).trans (second slot)

theorem before_of_changes {a b : Host} (same : a.changes = b.changes) : a.Before b :=
  fun _ => same ▸ List.prefix_refl _

/-- The same data, but for the questions to providers, which `asks` compares. -/
structure Like (asks : List Text → List Text → Prop) (a b : Host) : Prop where
  calls : a.calls = b.calls
  changes : a.changes = b.changes
  asked : ∀ number, asks (a.asked number) (b.asked number)

variable {asks : List Text → List Text → Prop} {a b : Host}

-- `asked` is no part of what a value holds, so nothing that is read tells the two apart.
theorem entries_like (like : Like asks a b) (v : Value) : a.entries v = b.entries v := by
  cases a
  cases b
  cases like.changes
  rfl

theorem entry_like (like : Like asks a b) (v : Value) (name : Text) :
    a.entry v name = b.entry v name := by
  cases a
  cases b
  cases like.changes
  rfl

theorem elements_like (like : Like asks a b) (v : Value) : a.elements? v = b.elements? v := by
  cases a
  cases b
  cases like.changes
  rfl

theorem length_like (like : Like asks a b) (v : Value) : a.length? v = b.length? v := by
  cases a
  cases b
  cases like.changes
  rfl

theorem is_true_like (like : Like asks a b) (v : Value) : a.isTrue v = b.isTrue v := by
  cases a
  cases b
  cases like.changes
  rfl

-- Only the entries of a mapping may be shown otherwise than as they were made.
theorem entries_after_like (like : Like asks a b) (slot : Slot) {made made' : Nat → Text → Text}
    {entries entries' : List (Value × Text × Text)} (same_made : made = made')
    (same_entries : entries = entries') :
    showEntries (entriesAfter (a.changes slot) made entries) =
      showEntries (entriesAfter (b.changes slot) made' entries') := by
  rw [like.changes, same_made, same_entries]

mutual
theorem shown_within_like (like : Like asks a b) (base : Slot) : ∀ v : Value,
    v.shownWithin a base = v.shownWithin b base
  | .sequence shape items => congrArg (showItems shape) (items_within_like like base items)
  | .mapping shape none entries => by
      have shown := congrArg showEntries (entries_within_like like base entries)
      cases shape with
      | dict | userDict => exact shown
      | raising error => exact congrArg (showCall "RaisingMap".toList) shown
  | .mapping shape (some address) entries => by
      have quoted : (fun (_ : Nat) (key : Text) => key.quoted) = fun _ key => key.quoted := rfl
      have shown := entries_after_like like (address.within base) quoted
        (entries_within_like like base entries)
      cases shape with
      | dict | userDict => exact shown
      | raising error => exact congrArg (showCall "RaisingMap".toList) shown
  | .filling address entries fill => by
      have made : (fun (index : Nat) (_ : Text) =>
          fill.shownWithin a (address.within base ++ [index])) =
          fun index _ => fill.shownWithin b (address.within base ++ [index]) :=
        funext fun index => funext fun _ => shown_within_like like _ fill
      have shown := entries_after_like like (address.within base) made
        (entries_within_like like base entries)
      exact congrArg (fun text => showCall "defaultdict".toList ("<factory>, ".toList ++ text)) shown
  | .namedTuple className fields =>
      congrArg (showFields className) (fields_within_like like base fields)
  | .object look members => by
      have shown := members_within_like like base members
      show (if look.showsFields then showFields look.className (Value.membersWithin a base members)
        else _) = if look.showsFields then
          showFields look.className (Value.membersWithin b base members) else _
      rw [shown]
  | .wrapped layer _ inner => congrArg layer.shown (shown_within_like like base inner)
  | .null | .missing | .bool _ | .int _ | .float _ | .exactNumber _ _ | .str _ | .bytes _ _
  | .moment _ | .range _ | .function _ _ | .reversedList _ _ | .onceList _ | .bare _ => rfl

theorem items_within_like (like : Like asks a b) (base : Slot) : ∀ items : List Value,
    Value.itemsWithin a base items = Value.itemsWithin b base items
  | [] => rfl
  | v :: rest => by
      show v.shownWithin a base :: Value.itemsWithin a base rest = _
      rw [shown_within_like like base v, items_within_like like base rest]
      rfl

theorem entries_within_like (like : Like asks a b) (base : Slot) : ∀ entries : List (Value × Value),
    Value.entriesWithin a base entries = Value.entriesWithin b base entries
  | [] => rfl
  | (key, v) :: rest => by
      show (key, key.shownWithin a base, v.shownWithin a base) ::
        Value.entriesWithin a base rest = _
      rw [shown_within_like like base key, shown_within_like like base v,
        entries_within_like like base rest]
      rfl

theorem fields_within_like (like : Like asks a b) (base : Slot) : ∀ fields : List (Text × Value),
    Value.fieldsWithin a base fields = Value.fieldsWithin b base fields
  | [] => rfl
  | (name, v) :: rest => by
      show (name, v.shownWithin a base) :: Value.fieldsWithin a base rest = _
      rw [shown_within_like like base v, fields_within_like like base rest]
      rfl

theorem members_within_like (like : Like asks a b) (base : Slot) :
    ∀ members : List (Text × Access × Value),
      Value.membersWithin a base members = Value.membersWithin b base members
  | [] => rfl
  | (name, access, v) :: rest => by
      have others := members_within_like like base rest
      cases access with
      | field =>
          show (name, v.shownWithin a base) :: Value.membersWithin a base rest = _
          rw [shown_within_like like base v, others]
          rfl
      | _ => exact others
end

theorem shown_like (like : Like asks a b) (v : Value) : v.shown a = v.shown b := by
  unfold Value.shown Value.shownInside
  simp only [shown_within_like like]

theorem like_count_call (like : Like asks a b) (slot : Slot) :
    Like asks (a.countCall slot) (b.countCall slot) where
  calls := by simp only [countCall, like.calls]
  changes := like.changes
  asked := like.asked

theorem like_change (like : Like asks a b) (slot : Slot) (change : Change) :
    Like asks (a.change slot change) (b.change slot change) where
  calls := like.calls
  changes := by simp only [Host.change, like.changes]
  asked := like.asked

theorem before_change (host : Host) (slot : Slot) (change : Change) :
    host.Before (host.change slot change) := by
  intro at_
  simp only [Host.change]
  split
  · next same =>
      subst same
      exact List.prefix_append _ _
  · exact List.prefix_refl _

end Host

/-- A reading of the host's data that does not see what the providers were asked for, and
that undoes no change. -/
structure Steady {α : Type} (asks : List Text → List Text → Prop) (act : Eval α) : Prop where
  agree : ∀ a b, Host.Like asks a b → Agree (Host.Like asks) (act a) (act b)
  grows : ∀ host : Host, host.Before (final (act host))

section Steps
variable {asks : List Text → List Text → Prop} {α β : Type}

theorem steady_pure (result : α) : Steady asks (pure result) where
  agree _ _ like := ⟨rfl, like⟩
  grows := Host.before_refl

theorem steady_throw (fault : Fault) : Steady asks (throw fault : Eval α) where
  agree _ _ like := ⟨rfl, like⟩
  grows := Host.before_refl

theorem steady_bind {act : Eval α} {next : α → Eval β} (first : Steady asks act)
    (rest : ∀ result, Steady asks (next result)) : Steady asks (act >>= next) where
  agree a b like := by
    have agree := first.agree a b like
    -- One run decides the other, since both answer alike.
    cases ran : act a with
    | ok result after =>
        rw [ran] at agree
        obtain ⟨after', ran', alike⟩ := agree_of_ok agree
        rw [bind_of_ok ran, bind_of_ok ran']
        exact (rest result).agree after after' alike
    | error fault after =>
        rw [ran] at agree
        obtain ⟨after', ran', alike⟩ := agree_of_error agree
        rw [bind_of_error ran, bind_of_error ran']
        exact ⟨rfl, alike⟩
  grows host := by
    have grown := first.grows host
    cases ran : act host with
    | ok result after =>
        rw [ran] at grown
        rw [bind_of_ok ran]
        exact Host.before_trans grown ((rest result).grows after)
    | error fault after =>
        rw [ran] at grown
        rw [bind_of_error ran]
        exact grown

theorem steady_get {next : Host → Eval α} (steady : ∀ host, Steady asks (next host))
    (same : ∀ a b, Host.Like asks a b → next a = next b) : Steady asks (get >>= next) where
  agree a b like := by
    show Agree _ (next a a) (next b b)
    rw [← same a b like]
    exact (steady a).agree a b like
  grows host := (steady host).grows host

theorem steady_modify {change : Host → Host}
    (like : ∀ a b, Host.Like asks a b → Host.Like asks (change a) (change b))
    (before : ∀ host : Host, host.Before (change host)) : Steady asks (modify change) where
  agree a b same := ⟨rfl, like a b same⟩
  grows := before

theorem steady_ite {c : Prop} [Decidable c] {first second : Eval α} (left : Steady asks first)
    (right : Steady asks second) : Steady asks (if c then first else second) := by
  split
  · exact left
  · exact right

end Steps

section Reading
variable {asks : List Text → List Text → Prop}

theorem steady_count_call (slot : Slot) : Steady asks (countCall slot) := by
  refine steady_bind (steady_modify ?_ ?_) fun _ => ?_
  · intro a b like
    exact Host.like_count_call like slot
  · intro host
    exact Host.before_of_changes rfl
  · refine steady_get (fun host => steady_pure _) fun a b like => ?_
    rw [like.calls]

theorem steady_call (call : Call) (result : Value) : Steady asks (call.run result) := by
  unfold Call.run Opening.take
  split
  · exact steady_pure _
  · exact steady_pure _
  · exact steady_count_call _
  · exact steady_throw _

theorem steady_invoke (v : Value) (name : Text) : Steady asks (v.invoke name) := by
  unfold Value.invoke
  refine steady_ite (steady_pure _) ?_
  split
  · split
    · exact steady_ite (steady_pure _) (steady_call _ _)
    · exact steady_pure _
  · exact steady_pure _

theorem steady_attribute (v : Value) (name : Text) : Steady asks (v.attributeOf name) := by
  unfold Value.attributeOf Value.computed
  refine steady_ite (steady_pure _) ?_
  split
  · split
    · exact steady_pure _
    · split
      · exact steady_pure _
      · exact steady_call _ _
    · exact steady_pure _
    · exact steady_pure _
  · exact steady_pure _
  · exact steady_pure _
  · exact steady_ite (steady_pure _) (steady_ite (steady_pure _) (steady_pure _))
  · exact steady_pure _

theorem steady_fill (slot : Slot) (name : Text) (v : Value) :
    Steady asks (do modify (Host.change slot (.fill name)); return v : Eval Value) := by
  refine steady_bind (steady_modify ?_ ?_) fun _ => steady_pure v
  · intro a b like
    exact Host.like_change like slot _
  · intro host
    exact Host.before_change host slot _

theorem steady_entry (v : Value) (name : Text) : Steady asks (v.entry name) := by
  refine steady_get (fun host => ?_) fun a b like => ?_
  · split
    · exact steady_pure _
    · exact steady_pure _
    · exact steady_fill _ _ _
    · exact steady_ite (steady_pure _) (steady_throw _)
  · rw [Host.entry_like like]

theorem steady_has_no_length (v : Value) : Steady asks (Adapter.hasNoLength v) := by
  refine steady_get (fun host => ?_) fun a b like => ?_
  · split
    · exact steady_pure _
    · exact steady_throw _
  · rw [Host.length_like like]

theorem steady_empty_value (adapter : Adapter) (v : Value) :
    Steady asks (adapter.isEmpty v) := by
  unfold Adapter.isEmpty
  split
  · exact steady_pure _
  · exact steady_has_no_length _
  · exact steady_has_no_length _
  · exact steady_pure _
  · refine steady_get (fun host => steady_pure _) fun a b like => ?_
    rw [Host.is_true_like like]

theorem steady_iterate (adapter : Adapter) (v : Value) : Steady asks (adapter.iterate v) := by
  unfold Adapter.iterate
  split
  · refine steady_get (fun host => ?_) fun a b like => ?_
    · split
      · exact steady_pure _
      · exact steady_throw _
    · rw [Host.elements_like like]
  · exact steady_pure _
  · exact steady_pure _

theorem steady_member (adapter : Adapter) (v : Value) (name : Text) :
    Steady asks (member adapter v name) := by
  refine steady_bind ?_ fun found => ?_
  · unfold Adapter.getField
    split
    · exact steady_attribute _ _
    · exact steady_pure _
  · refine steady_ite ?_ (steady_pure _)
    unfold Adapter.getKey
    split
    · exact steady_entry _ _
    · exact steady_pure _

variable (adapterOf : Value → Adapter)

theorem steady_settle (v : Value) : Steady asks (settle adapterOf v) := by
  unfold settle
  split
  · exact steady_throw _
  · exact steady_pure _

theorem steady_strip (v : Value) : Steady asks (strip adapterOf v) := by
  rw [strip]
  refine steady_ite (steady_pure _) ?_
  split
  · exact steady_pure _
  · next inner opens =>
      have smaller := Adapter.size_opening opens
      exact steady_strip inner
  · exact steady_bind (steady_count_call _) fun count => steady_settle adapterOf count
  · exact steady_throw _
termination_by sizeOf v

theorem steady_is_empty (v : Value) : Steady asks (isEmpty adapterOf v) :=
  steady_bind (steady_strip adapterOf v) fun _ =>
    steady_ite (steady_pure _) (steady_empty_value _ _)

theorem steady_kind (v : Value) : Steady asks (kindOf adapterOf v) :=
  steady_bind (steady_strip adapterOf v) fun _ => steady_ite (steady_pure _) (steady_pure _)

theorem steady_lookup_within (name : Text) (v : Value) :
    Steady asks (lookupWithin adapterOf name v) := by
  rw [lookupWithin]
  refine steady_ite (steady_pure _) (steady_bind ?_ fun found => steady_ite ?_ (steady_pure _))
  · unfold Adapter.invoke
    split
    · exact steady_invoke _ _
    · exact steady_pure _
    · exact steady_pure _
  · split
    · exact steady_member _ _ _
    · next inner opens =>
        have smaller := Adapter.size_opening opens
        exact steady_lookup_within name inner
    · exact steady_bind
        (steady_bind (steady_count_call _) fun count => steady_settle adapterOf count)
        fun count => steady_member _ _ _
    · exact steady_throw _
termination_by sizeOf v

theorem steady_lookup_segment (name : Text) (chain : Chain) :
    Steady asks (lookupSegment adapterOf name chain) := by
  induction chain with
  | nil => exact steady_pure _
  | cons frame outer ih =>
      refine steady_bind ?_ fun found => steady_ite ih (steady_pure _)
      exact steady_ite (steady_pure _) (steady_lookup_within adapterOf name frame)

theorem steady_lookup_path (required : Bool) (path : Path) (chain : Chain) :
    Steady asks (lookupPath adapterOf required path chain) := by
  induction path generalizing chain with
  | nil => exact steady_pure _
  | cons segment rest ih =>
      refine steady_bind (steady_lookup_segment adapterOf segment chain) fun found =>
        steady_ite (steady_ite (steady_throw _) (steady_pure _)) ?_
      exact steady_ite (steady_pure _) (ih [found])

theorem steady_lookup (required : Bool) (chain : Chain) (name : Text) :
    Steady asks (lookup adapterOf required chain name) :=
  steady_lookup_path adapterOf required (Path.ofName name) chain

end Reading

section Partials
variable {asks : List Text → List Text → Prop}

theorem text_of_like {a b : Host} (like : Host.Like asks a b) (indent : Text) (v : Value) :
    Provider.textOf a indent v = Provider.textOf b indent v := by
  unfold Provider.textOf
  simp only [Host.length_like like]

theorem like_ask {a b : Host} (more : ∀ name a b, asks a b → asks (name :: a) (name :: b))
    (like : Host.Like asks a b) (number : Nat) (name : Text) :
    Host.Like asks (a.ask number name) (b.ask number name) where
  calls := like.calls
  changes := like.changes
  asked at_ := by
    simp only [Host.ask]
    split
    · exact more name _ _ (like.asked number)
    · exact like.asked at_

theorem steady_fetch (more : ∀ name a b, asks a b → asks (name :: a) (name :: b))
    (provider : Provider) (name : Text) : Steady asks (provider.fetch name) := by
  cases provider with
  | empty => exact steady_pure _
  | failing kind reason => exact steady_throw _
  | recording partials number =>
      refine steady_bind (steady_modify ?_ ?_) fun _ => ?_
      · intro a b like
        exact like_ask more like number name
      · intro host
        exact Host.before_of_changes rfl
      · refine steady_get (fun host => steady_pure _) fun a b like => ?_
        rw [Host.entries_like like]
  | dictionary partials =>
      refine steady_get (fun host => ?_) fun a b like => ?_
      · split
        · exact steady_pure _
        · exact steady_throw _
        · exact steady_fill _ _ _
        · exact steady_ite (steady_throw _) (steady_throw _)
      · rw [Host.entry_like like]

namespace Provider

/-- Asking for `name` gives `text` and changes nothing but the list of what was asked. -/
def Maps (provider : Provider) (name text : Text) (host : Host) : Prop :=
  ∃ asked, provider.fetch name host = .ok (.str text) { host with asked }

theorem asked_of_fetch {provider : Provider} {name : Text} {host after : Host} {v : Value}
    (fetched : provider.fetch name host = .ok v after) (number : Nat) :
    after.asked number = host.asked number ∨ after.asked number = name :: host.asked number := by
  cases provider with
  | empty =>
      cases fetched
      exact Or.inl rfl
  | failing kind reason => cases fetched
  | recording partials recorder =>
      cases fetched
      simp only [Host.ask]
      -- Only the recorder that is asked keeps the name.
      split
      · next same => exact Or.inr (same ▸ rfl)
      · exact Or.inl rfl
  | dictionary partials =>
      have looked : (get : Eval Host) host = .ok host host := rfl
      rw [fetch, bind_of_ok looked] at fetched
      left
      cases entry : host.entry partials name with
      | found | made =>
          rw [entry] at fetched
          cases fetched
          rfl
      | absent =>
          rw [entry] at fetched
          cases fetched
      | fails error =>
          rw [entry] at fetched
          by_cases key : error.kind = .key
          · simp only [key, if_true] at fetched
            cases fetched
          · simp only [key, if_false] at fetched
            cases fetched

end Provider
end Partials
end Mustache
