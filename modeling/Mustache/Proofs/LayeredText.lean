import Mustache.Proofs.LayeredData

/-!
The text of layered data. A container shows the text of what it holds, and there a layer
can be seen. Where none is seen the text is the same.
-/

namespace Mustache

structure ShownEntry where
  key : Text
  slot : Slot
  values : Value × Value

def shownEntries (host : Host) (base : Slot) (changes : List Change)
    (fresh : Nat → Text → Slot × Value × Value) (entries : List (Value × Value × Value)) :
    List (Value × ShownEntry) :=
  Change.applyAll (fun index key => ⟨key.quoted, (fresh index key).1, (fresh index key).2⟩)
    (fun key text => ⟨key.quoted, base, .str text, .str text⟩) 0 changes
    (entries.map fun entry => (entry.1, ⟨entry.1.shownWithin host base, base, entry.2⟩))

def Host.changesAt (host : Host) (base : Slot) (address : Option Address) : List Change :=
  match address with
  | none => []
  | some address => host.changes (address.within base)

/-- Within the text of the second value a layer shows that the first one does not have. -/
inductive ShowsLayer (adapterOf : Value → Adapter) (host : Host) : Slot → Value → Value → Prop
  | here {base : Slot} {a inner layer : Value} : LayerOver adapterOf layer inner →
      Layered adapterOf a inner → ShowsLayer adapterOf host base a layer
  | item {base : Slot} {item : Value × Value} (shape : SequenceShape)
      (items : List (Value × Value)) :
      item ∈ items → ShowsLayer adapterOf host base item.1 item.2 →
      ShowsLayer adapterOf host base (.sequence shape (items.map (·.1)))
        (.sequence shape (items.map (·.2)))
  | entry {base : Slot} {entry : Value × ShownEntry} (shape : MappingShape)
      (address : Option Address) (entries : List (Value × Value × Value)) :
      entry ∈ shownEntries host base (host.changesAt base address)
        (fun _ key => (base, .str key, .str key)) entries →
      ShowsLayer adapterOf host entry.2.slot entry.2.values.1 entry.2.values.2 →
      ShowsLayer adapterOf host base
        (.mapping shape address (entries.map fun entry => (entry.1, entry.2.1)))
        (.mapping shape address (entries.map fun entry => (entry.1, entry.2.2)))
  | made {base : Slot} {entry : Value × ShownEntry} (address : Address)
      (entries : List (Value × Value × Value)) (fill fill' : Value) :
      entry ∈ shownEntries host base (host.changes (address.within base))
        (fun index _ => (address.within base ++ [index], fill, fill')) entries →
      ShowsLayer adapterOf host entry.2.slot entry.2.values.1 entry.2.values.2 →
      ShowsLayer adapterOf host base
        (.filling address (entries.map fun entry => (entry.1, entry.2.1)) fill)
        (.filling address (entries.map fun entry => (entry.1, entry.2.2)) fill')
  | field {base : Slot} {field : Text × Value × Value} (className : Text)
      (fields : List (Text × Value × Value)) :
      field ∈ fields → ShowsLayer adapterOf host base field.2.1 field.2.2 →
      ShowsLayer adapterOf host base
        (.namedTuple className (fields.map fun field => (field.1, field.2.1)))
        (.namedTuple className (fields.map fun field => (field.1, field.2.2)))
  | member {base : Slot} {member : MemberPair} (look : Look) (members : List MemberPair) :
      look.showsFields = true → member ∈ members → member.access = .field →
      ShowsLayer adapterOf host base member.left.2.2 member.right.2.2 →
      ShowsLayer adapterOf host base (.object look (members.map (·.left)))
        (.object look (members.map (·.right)))
  | inner {base : Slot} {inner inner' : Value} (layer : Layer)
      (exposed : List (Text × Value × Value)) :
      layer ≠ .reference → ShowsLayer adapterOf host base inner inner' →
      ShowsLayer adapterOf host base
        (.wrapped layer (exposed.map fun field => (field.1, field.2.1)) inner)
        (.wrapped layer (exposed.map fun field => (field.1, field.2.2)) inner')

section Parts
variable (host : Host) (base : Slot)

theorem items_within_eq (items : List Value) :
    Value.itemsWithin host base items = items.map (Value.shownWithin host base) := by
  induction items with
  | nil => rfl
  | cons v rest ih => rw [Value.itemsWithin, ih, List.map_cons]

theorem fields_within_eq (fields : List (Text × Value)) :
    Value.fieldsWithin host base fields =
      fields.map fun field => (field.1, field.2.shownWithin host base) := by
  induction fields with
  | nil => rfl
  | cons field rest ih => rw [Value.fieldsWithin, ih, List.map_cons]

theorem entries_within_eq (entries : List (Value × Value)) :
    Value.entriesWithin host base entries = entries.map fun entry =>
      (entry.1, entry.1.shownWithin host base, entry.2.shownWithin host base) := by
  induction entries with
  | nil => rfl
  | cons entry rest ih => rw [Value.entriesWithin, ih, List.map_cons]

theorem object_within (look : Look) (members : List (Text × Access × Value)) :
    (Value.object look members).shownWithin host base =
      if look.showsFields then showFields look.className (Value.membersWithin host base members)
      else ['<'] ++ look.className ++ ['>'] := rfl

theorem reference_within (exposed : List (Text × Value)) (inner : Value) :
    (Value.wrapped .reference exposed inner).shownWithin host base = "<weakref>".toList := rfl

theorem eq_map_of_alongside {κ α β : Type} {f : α → β} {xs : List (κ × α)} {ys : List (κ × β)}
    (same : Alongside (fun x y => y = f x) xs ys) : ys = xs.map fun x => (x.1, f x.2) := by
  induction same with
  | nil => rfl
  | cons head tail ih => rw [List.map_cons, head.1, ← head.2, ← ih]

theorem entries_after_eq (changes : List Change) (fresh : Nat → Text → Slot × Value × Value)
    (entries : List (Value × Value × Value)) (pick : Value × Value → Value)
    (stored : ∀ text, pick (.str text, .str text) = .str text) :
    entriesAfter changes
        (fun index key => (pick (fresh index key).2).shownWithin host (fresh index key).1)
        (Value.entriesWithin host base (entries.map fun entry => (entry.1, pick entry.2))) =
      (shownEntries host base changes fresh entries).map fun entry =>
        (entry.1, entry.2.key, (pick entry.2.values).shownWithin host entry.2.slot) := by
  apply eq_map_of_alongside
    (f := fun entry : ShownEntry => (entry.key, (pick entry.values).shownWithin host entry.slot))
  apply changes_alongside
  · intro index key
    rfl
  · intro key text
    rw [stored]
    rfl
  · rw [entries_within_eq, List.map_map]
    exact alongside_of_pairs Prod.fst fun entry _ => rfl

theorem entries_after_same {changes : List Change} {fresh : Nat → Text → Slot × Value × Value}
    {entries : List (Value × Value × Value)}
    (same : ∀ entry ∈ shownEntries host base changes fresh entries,
      entry.2.values.2.shownWithin host entry.2.slot =
        entry.2.values.1.shownWithin host entry.2.slot) :
    entriesAfter changes
        (fun index key => (fresh index key).2.2.shownWithin host (fresh index key).1)
        (Value.entriesWithin host base (entries.map fun entry => (entry.1, entry.2.2))) =
      entriesAfter changes
        (fun index key => (fresh index key).2.1.shownWithin host (fresh index key).1)
        (Value.entriesWithin host base (entries.map fun entry => (entry.1, entry.2.1))) := by
  have after := entries_after_eq host base changes fresh entries Prod.snd fun _ => rfl
  have before := entries_after_eq host base changes fresh entries Prod.fst fun _ => rfl
  apply after.trans
  apply Eq.trans _ before.symm
  apply List.map_congr_left
  intro entry shown
  rw [same entry shown]

theorem shown_entries_all (rel : Value → Value → Prop) (changes : List Change)
    (fresh : Nat → Text → Slot × Value × Value) {entries : List (Value × Value × Value)}
    (each : ∀ entry ∈ entries, rel entry.2.1 entry.2.2)
    (made : ∀ index key, rel (fresh index key).2.1 (fresh index key).2.2)
    (stored : ∀ text, rel (.str text) (.str text)) :
    ∀ entry ∈ shownEntries host base changes fresh entries,
      rel entry.2.values.1 entry.2.values.2 := by
  have kept : Alongside (fun x y : ShownEntry => x = y ∧ rel x.values.1 x.values.2)
      (shownEntries host base changes fresh entries)
      (shownEntries host base changes fresh entries) := by
    apply changes_alongside
    · intro index key
      exact ⟨rfl, made index key⟩
    · intro key text
      exact ⟨rfl, stored text⟩
    · exact alongside_of_pairs Prod.fst fun entry member => ⟨rfl, each entry member⟩
  intro entry shown
  exact (List.forall₂_same.mp kept entry shown).2.2

end Parts

section Text
variable {adapterOf : Value → Adapter} {host : Host}

theorem members_within_same (base : Slot) (members : List MemberPair)
    (same : ∀ member ∈ members, member.access = .field →
      member.right.2.2.shownWithin host base = member.left.2.2.shownWithin host base) :
    Value.membersWithin host base (members.map (·.right)) =
      Value.membersWithin host base (members.map (·.left)) := by
  induction members with
  | nil => rfl
  | cons member rest ih =>
      have others := ih fun other present => same other (List.mem_cons_of_mem member present)
      have here := same member List.mem_cons_self
      cases member with
      | read name access before after | called name access call before after =>
          -- Only fields are shown.
          cases access with
          | field =>
              have text := here rfl
              simp only [List.map_cons, MemberPair.left, MemberPair.right, Value.membersWithin]
                at text ⊢
              rw [text]
              exact congrArg _ others
          | shared | computed | dynamic => exact others

/-- Within any other value the second one has the text of the first one, unless it shows a
layer there. -/
def SameText (adapterOf : Value → Adapter) (host : Host) (a b : Value) : Prop :=
  ∀ base, ¬ ShowsLayer adapterOf host base a b →
    b.shownWithin host base = a.shownWithin host base

theorem layered_same_text {a b : Value} (layered : Layered adapterOf a b) :
    SameText adapterOf host a b := by
  refine layered_induct (motive := SameText adapterOf host) ?core ?layer layered
  case layer =>
    intro a inner layer covers found inside ih base hidden
    exact absurd (.here covers inside) hidden
  case core =>
    intro a b congruent base hidden
    cases congruent with
    | same v => rfl
    | function call returned => rfl
    | reversedList text items each => rfl
    | sequence shape items each =>
        have texts : Value.itemsWithin host base (items.map (·.2)) =
            Value.itemsWithin host base (items.map (·.1)) := by
          rw [items_within_eq, items_within_eq, List.map_map, List.map_map]
          apply List.map_congr_left
          intro item member
          exact (each item member).2 base fun shows => hidden (.item shape items member shows)
        exact congrArg (showItems shape) texts
    | namedTuple className fields each =>
        have texts : Value.fieldsWithin host base (fields.map fun field => (field.1, field.2.2)) =
            Value.fieldsWithin host base (fields.map fun field => (field.1, field.2.1)) := by
          rw [fields_within_eq, fields_within_eq, List.map_map, List.map_map]
          apply List.map_congr_left
          intro field member
          exact congrArg (Prod.mk field.1)
            ((each field member).2 base fun shows => hidden (.field className fields member shows))
        exact congrArg (showFields className) texts
    | object look members fits each =>
        by_cases fields : look.showsFields = true
        · have texts : Value.membersWithin host base (members.map (·.right)) =
              Value.membersWithin host base (members.map (·.left)) := by
            apply members_within_same
            intro member present field
            have text := (each member present).2 base
            cases member with
            | called name access call before after => rfl
            | read name access before after =>
                exact text fun shows => hidden (.member look members fields present field shows)
          rw [object_within, object_within, texts]
        · rw [object_within, object_within, if_neg fields, if_neg fields]
    | wrapped layer exposed each inside =>
        by_cases closed : layer = .reference
        · subst closed
          rw [reference_within, reference_within]
        · have text := inside.2 base fun shows => hidden (.inner layer exposed closed shows)
          exact congrArg layer.shown text
    | mapping shape address entries each =>
        -- An entry that was erased or put in later is shown no longer as it was made.
        have related := shown_entries_all host base (SameText adapterOf host)
          (host.changesAt base address) (fun _ key => (base, .str key, .str key))
          (fun entry m => (each entry m).2) (fun _ key base _ => rfl) (fun text base _ => rfl)
        have texts := entries_after_same host base fun entry shown =>
          related entry shown entry.2.slot fun shows =>
            hidden (.entry shape address entries shown shows)
        have shown := congrArg showEntries texts
        cases address with
        | none | some address =>
            cases shape with
            | dict | userDict => exact shown
            | raising error => exact congrArg (showCall "RaisingMap".toList) shown
    | @filling address entries fill fill' each made =>
        have related := shown_entries_all host base (SameText adapterOf host)
          (host.changes (address.within base))
          (fun index _ => (address.within base ++ [index], fill, fill'))
          (fun entry m => (each entry m).2) (fun _ _ => made.2) (fun text base _ => rfl)
        have texts := entries_after_same host base fun entry shown =>
          related entry shown entry.2.slot fun shows =>
            hidden (.made address entries fill fill' shown shows)
        have shown := congrArg showEntries texts
        exact congrArg (fun text => showCall "defaultdict".toList ("<factory>, ".toList ++ text))
          shown

def Value.printsParts : Value → Bool
  | .object look _ => look.text.isNone
  | _ => true

def PrintsLayer (adapterOf : Value → Adapter) (host : Host) (a b : Value) : Prop :=
  b.printsParts = true ∧ ShowsLayer adapterOf host [] a b

theorem congruent_shown {a b : Value} (congruent : Congruent (Layered adapterOf) a b)
    (hidden : ¬ PrintsLayer adapterOf host a b) : b.shown host = a.shown host := by
  have inside : SameText adapterOf host a b := layered_same_text (.core congruent)
  cases congruent with
  | same => rfl
  | object look members fits each =>
      cases text : look.text with
      | some text => simp only [Value.shown, text, Option.getD_some]
      | none =>
          have same := inside [] fun shows => hidden ⟨by rw [Value.printsParts, text]; rfl, shows⟩
          simp only [Value.shown, Value.shownInside, text, Option.getD_none, same]
  | _ => exact inside [] fun shows => hidden ⟨rfl, shows⟩

end Text
end Mustache
