import Mathlib
import Mustache.Proofs.DottedPaths
import Mustache.Proofs.Effects
import Mustache.Proofs.LayeredLookup
import Mustache.Proofs.SeenReading

/-!
Private members are invisible. Two worlds that differ in nothing but the private members of their
objects are rendered the same, and no private method or computed member is called for it. A
private name is found in no object, but it is found among the keys of a mapping.
-/

namespace Mustache
open Value

/-- Two values that differ in private members only. -/
def SeenAlike (a b : Value) : Prop := a.seen = b.seen

section Reading
variable {adapterOf : Value → Adapter} {a b : Value}

theorem items_seen_alike {items items' : List Value} (same : items.map seen = items'.map seen) :
    List.Forall₂ SeenAlike items items' := by
  have pairs : List.Forall₂ (· = ·) (items.map seen) (items'.map seen) :=
    List.forall₂_eq_eq_eq ▸ same
  rw [List.forall₂_map_left_iff, List.forall₂_map_right_iff] at pairs
  exact pairs

theorem seen_alike_reads (by_class : ByClass adapterOf) (reads : ReadsObjects adapterOf)
    (alike : SeenAlike a b) : ReadAlike adapterOf SeenAlike a b := by
  have adapter : adapterOf b = adapterOf a := by
    rw [← seen_adapter by_class b, ← alike, seen_adapter by_class]
  have items : List.map seen <$> (adapterOf a).iterate a =
      List.map seen <$> (adapterOf a).iterate b := by
    rw [← seen_iterate, ← seen_iterate, alike]
  constructor
  · exact alike
  · exact adapter
  · rw [← seen_null b, ← alike, seen_null]
  · rw [← seen_missing b, ← alike, seen_missing]
  · rw [← seen_adapter_empty reads a, alike, ← adapter, seen_adapter_empty reads b]
  · exact matches_imp (fun _ _ => items_seen_alike) (matches_of_map_eq items)

/-- Reading does not tell apart what differs in private members only. -/
theorem seen_alike_indistinct (by_class : ByClass adapterOf) (reads : ReadsObjects adapterOf) :
    Indistinct adapterOf SeenAlike SeenAlike where
  same _ := rfl
  missing {a b} alike := by rw [← seen_missing b, ← alike, seen_missing]
  stripped {a b} alike := by
    apply matches_of_map_eq
    rw [← seen_strip by_class reads, ← seen_strip by_class reads, alike]
  found {a b} name alike := by
    apply matches_of_map_eq
    rw [← seen_lookup_within by_class reads, ← seen_lookup_within by_class reads, alike]
  bottom alike := seen_alike_reads by_class reads alike

end Reading

def Visit.PrintsSame (settings : Settings) (plain other : Visit) : Prop :=
  ∀ v w host, plain.Prints settings v host → other.Prints settings w host →
    w.shown host = v.shown host

/-- Whatever a template prints has the same text in both chains. -/
def Template.PrintsSame (registry : Registry) (depth : Nat) (template : Template)
    (plain other : Chain) (start : Progress) : Prop :=
  ∀ pair ∈ (template.visits registry depth plain start).zip
      (template.visits registry depth other start),
    pair.1.PrintsSame (template.settings registry) pair.2

/-! What is called and filled. -/

def Permit.publicly (permit : Permit) : Permit :=
  { permit with
    sees := fun name => !isPrivate name
    sees_public := public_seen }

theorem Grown.of_publicly {permit : Permit} {before after : Host}
    (grown : Grown permit.publicly before after) : Grown permit before after :=
  ⟨grown.calls, grown.changes, grown.spared⟩

namespace Value
variable {permit : Permit} {v : Value}

theorem parts_publicly (v : Value) {part : Value}
    (inside : part ∈ v.partsSeen permit.publicly.sees) : part ∈ v.partsSeen permit.sees := by
  cases v with
  | object look members =>
      obtain ⟨member, here, rfl⟩ := List.mem_map.mp inside
      obtain ⟨present, shown⟩ := List.mem_filter.mp here
      have seen := permit.sees_public member.1 (by simpa [Permit.publicly] using shown)
      exact List.mem_map_of_mem (List.mem_filter.mpr ⟨present, seen⟩)
  | _ => exact inside

theorem permitted_publicly (allowed : v.Permitted permit) : v.Permitted permit.publicly := by
  induction allowed with
  | @intro v slots _ counts _ made_ih part_ih =>
      exact .intro slots made_ih counts fun part inside => part_ih part (parts_publicly v inside)

theorem seen_parts (permit : Permit) (v : Value) :
    v.seen.partsSeen permit.sees = (v.partsSeen permit.publicly.sees).map seen := by
  cases v with
  | object look members =>
      have shown (member : Text × Access × Value)
          (inside : member ∈ members.filter fun member => !isPrivate member.1) :
          permit.sees member.1 = true := by
        have named := (List.mem_filter.mp inside).2
        exact permit.sees_public member.1 (by simpa using named)
      have kept : (members.filter fun member => !isPrivate member.1).filter
          (fun member => permit.sees member.1) =
          members.filter fun member => !isPrivate member.1 := List.filter_eq_self.mpr shown
      simp only [seen, partsSeen, seen_members_eq, List.filter_map, List.map_map,
        Function.comp_def, kept]
      rfl
  | _ =>
      simp [seen, partsSeen, parts, seen_all_eq, seen_entries_eq, seen_fields_eq, seenEntry,
        List.flatMap_map, List.map_flatMap, Function.comp_def]

theorem seen_filling (v : Value) :
    v.seen.filling? = v.filling?.map fun own => (own.1, own.2.seen) := by
  cases v <;> rfl

theorem seen_counting (v : Value) : v.seen.counting? = v.counting? := by
  cases v with
  | function call result =>
      obtain ⟨parameters, act, isMethod⟩ := call
      cases act <;> rfl
  | _ => rfl

theorem permitted_of_seen (allowed : v.seen.Permitted permit) : v.Permitted permit.publicly := by
  generalize same : v.seen = w at allowed
  induction allowed generalizing v with
  | @intro w slots _ counts _ made_ih part_ih =>
      subst same
      have filled {slot : Slot} {fill : Value} (own : v.filling? = some (slot, fill)) :
          v.seen.filling? = some (slot, fill.seen) := by rw [seen_filling, own]; rfl
      constructor
      · exact fun slot fill own => slots slot fill.seen (filled own)
      · intro slot fill index own
        exact made_ih slot fill.seen index (filled own) (move_seen _ fill)
      · exact fun slot own => counts slot (by rw [seen_counting, own])
      · intro part inside
        apply part_ih part.seen _ rfl
        rw [seen_parts]
        exact List.mem_map_of_mem inside

end Value

/-- What a chain holds besides private members is as `permit` says. -/
theorem chain_permitted_of_seen {permit : Permit} {chain : Chain}
    (allowed : Chain.Permitted permit (chain.map seen)) : chain.Permitted permit.publicly :=
  fun v inside => permitted_of_seen (allowed v.seen (List.mem_map_of_mem inside))

theorem provider_publicly {permit : Permit} {provider : Provider}
    (allowed : provider.Permitted permit) : provider.Permitted permit.publicly := by
  cases provider with
  | dictionary partials | recording partials number => exact permitted_publicly allowed
  | empty | failing kind reason => trivial

section Calls
variable {permit : Permit} {chain : Chain} (allowed : Chain.Permitted permit (chain.map seen))
include allowed

theorem lookup_calls_public (adapterOf : Value → Adapter) (required : Bool) (name : Text)
    (host : Host) : Grown permit host (final (lookup adapterOf required chain name host)) :=
  ((effects_lookup adapterOf required (chain_permitted_of_seen allowed) name).grows
    host).of_publicly

theorem render_calls_public (registry : Registry) (depth : Nat) (template : Template)
    (provider : template.provider.Permitted permit) (start : Progress) :
    Grown permit start.host (final (template.renderTo registry depth chain start)).host :=
  (render_to_grows template registry depth (provider_publicly provider)
    (chain_permitted_of_seen allowed) start).of_publicly

end Calls

/-! Names that are private. -/

theorem lookup_path_append {adapterOf : Value → Adapter} {required : Bool} {before after : Path}
    {chain : Chain} {start between : Host} {w : Value} (some_before : before ≠ [])
    (some_after : after ≠ []) (present : w.isMissing = false)
    (found : lookupPath adapterOf required before chain start = .ok w between) :
    lookupPath adapterOf required (before ++ after) chain start =
      lookupPath adapterOf required after [w] between := by
  rw [lookup_path_parts some_before some_after, bind_of_ok found, andThen,
    if_neg (ne_true_of_eq_false present)]

def InObject (adapterOf : Value → Adapter) (w : Value) : Prop :=
  ∃ v, adapterOf v = .object ∧ Within adapterOf v w

section Names
variable {adapterOf : Value → Adapter} {segment : Text} (hidden : isPrivate segment = true)
include hidden

theorem private_not_found {w : Value} (inside : InObject adapterOf w) :
    lookupWithin adapterOf segment w = pure .missing := by
  obtain ⟨v, object, within⟩ := inside
  rw [lookup_within_within within, lookup_within_eq, object]
  split
  · rfl
  · -- Neither as a method nor as an attribute.
    simp only [Adapter.invoke, invoke, hidden, if_true, pure_bind, isMissing, Adapter.opening,
      member, Adapter.getField, attributeOf, Adapter.getKey]

theorem private_not_self : segment ≠ Path.self := by
  rintro rfl
  cases hidden

theorem lookup_in_frame_private (frame : Value) :
    lookupInFrame adapterOf segment frame = lookupWithin adapterOf segment frame :=
  if_neg (private_not_self hidden)

/-- Objects are passed over where a private name is looked up. -/
theorem private_passes_objects {inner outer : Chain}
    (objects : ∀ frame ∈ inner, InObject adapterOf frame) :
    lookupSegment adapterOf segment (inner ++ outer) =
      lookupSegment adapterOf segment outer := by
  induction inner with
  | nil => rfl
  | cons frame rest ih =>
      obtain ⟨here, later⟩ := List.forall_mem_cons.mp objects
      rw [List.cons_append, lookupSegment, lookup_in_frame_private hidden,
        private_not_found hidden here, pure_bind]
      exact ih later

theorem private_stops_path {required : Bool} {before after : Path} {chain : Chain}
    {start between : Host} {w : Value} (some_before : before ≠ []) (present : w.isMissing = false)
    (found : lookupPath adapterOf required before chain start = .ok w between)
    (inside : InObject adapterOf w) :
    lookupPath adapterOf required (before ++ segment :: after) chain start =
      if required then .error (.missingVariable segment) between else .ok .missing between := by
  have nowhere : lookupSegment adapterOf segment [w] = pure .missing :=
    private_passes_objects hidden (List.forall_mem_singleton.mpr inside)
  rw [lookup_path_append some_before (List.cons_ne_nil segment after) present found, lookupPath,
    nowhere, pure_bind]
  cases required <;> rfl

end Names

section Keys
variable {adapterOf : Value → Adapter} {m w found : Value} {host : Host} {name : Text}
  (mapping : adapterOf m = .mapping) (within : Within adapterOf m w)
  (kept : host.entry m name = .found found)

include kept in
theorem entry_present : m.isAbsent = false := by
  cases m with
  | null | missing => cases kept
  | _ => rfl

include mapping within kept in
theorem key_found : lookupWithin adapterOf name w host = .ok found host := by
  have entry : m.entry name host = .ok found host := by
    have current : (get : Eval Host) host = .ok host host := rfl
    unfold Value.entry
    rw [bind_of_ok current, kept]
    rfl
  rw [lookup_within_within within, lookup_within_eq, entry_present kept, mapping]
  exact entry

include within kept in
theorem keyed_present : w.isMissing = false := by
  cases within with
  | itself => exact (Bool.or_eq_false_iff.mp (entry_present kept)).2
  | layer covers _ => exact (Bool.or_eq_false_iff.mp (layer_not_absent covers)).2

end Keys

/-- How a private name is looked up. -/
structure KeptPrivate (adapterOf : Value → Adapter) (segment : Text) : Prop where
  /-- It is found in no object. -/
  not_found : ∀ w, InObject adapterOf w → lookupWithin adapterOf segment w = pure .missing
  /-- Objects among the contexts are passed over. -/
  passes : ∀ inner outer, (∀ frame ∈ inner, InObject adapterOf frame) →
    lookupSegment adapterOf segment (inner ++ outer) = lookupSegment adapterOf segment outer
  /-- A path that has led to an object ends there. -/
  stops : ∀ required before after chain start between w, before ≠ [] →
    lookupPath adapterOf required before chain start = .ok w between → w.isMissing = false →
    InObject adapterOf w →
    lookupPath adapterOf required (before ++ segment :: after) chain start =
      if required then .error (.missingVariable segment) between else .ok .missing between
  /-- As the key of a mapping it is found, in a context and at the end of a path. -/
  is_key : ∀ m w host found, adapterOf m = .mapping → Within adapterOf m w →
    host.entry m segment = .found found → found.isMissing = false →
    (∀ required inner outer, (∀ frame ∈ inner, InObject adapterOf frame) →
      lookupPath adapterOf required [segment] (inner ++ w :: outer) host = .ok found host) ∧
    ∀ required before chain start, before ≠ [] →
      lookupPath adapterOf required before chain start = .ok w host →
      lookupPath adapterOf required (before ++ [segment]) chain start = .ok found host

theorem private_key_found {adapterOf : Value → Adapter} {segment : Text}
    (hidden : isPrivate segment = true) {m w found : Value} {host : Host}
    (mapping : adapterOf m = .mapping) (within : Within adapterOf m w)
    (kept : host.entry m segment = .found found) (present : found.isMissing = false)
    (required : Bool) {inner : Chain} (outer : Chain)
    (objects : ∀ frame ∈ inner, InObject adapterOf frame) :
    lookupPath adapterOf required [segment] (inner ++ w :: outer) host = .ok found host := by
  have here : lookupInFrame adapterOf segment w host = .ok found host := by
    rw [lookup_in_frame_private hidden]
    exact key_found mapping within kept
  have sought : lookupSegment adapterOf segment (inner ++ w :: outer) host = .ok found host := by
    rw [private_passes_objects hidden objects, lookupSegment, bind_of_ok here,
      if_neg (ne_true_of_eq_false present)]
    rfl
  rw [lookupPath, bind_of_ok sought, if_neg (ne_true_of_eq_false present), if_pos rfl]
  rfl

theorem kept_private (adapterOf : Value → Adapter) {segment : Text}
    (hidden : isPrivate segment = true) : KeptPrivate adapterOf segment where
  not_found _ := private_not_found hidden
  passes _ _ := private_passes_objects hidden
  stops _ _ _ _ _ _ _ some_before found present inside :=
    private_stops_path hidden some_before present found inside
  is_key m w host found mapping within kept present := by
    have at_end := private_key_found hidden mapping within kept present
    constructor
    · exact fun required inner outer => at_end required outer
    · intro required before chain start some_before led
      rw [lookup_path_append some_before (List.cons_ne_nil segment []) (keyed_present within kept)
        led]
      exact at_end required [] (List.forall_mem_nil _)

/-- Private members are invisible. In data that differs in nothing else, the same names are found,
with the same calls, entries and faults, and what is found differs in nothing else. If all that
can be read has the same texts, every template renders the same; and so does any template for
which this is true of what it prints. No function is called that only a private member holds. A
private name is found in no object, but as any other key of a mapping. -/
theorem private_members_are_invisible (registry : Registry) :
    let adapterOf := registry.adapterOf
    (ReadsObjects adapterOf → ∀ plain other : Chain, List.Forall₂ SeenAlike plain other →
      (∀ required name, Matches SeenAlike (lookup adapterOf required plain name)
        (lookup adapterOf required other name)) ∧
      (List.Forall₂ (SameTexts adapterOf) plain other → ∀ (template : Template) depth start,
        template.renderTo registry depth other start =
            template.renderTo registry depth plain start ∧
          template.render registry depth other start =
            template.render registry depth plain start) ∧
      ∀ (template : Template) depth start,
        (template.PrintsSame registry depth plain other start →
          template.renderTo registry depth other start =
            template.renderTo registry depth plain start) ∧
        (template.PrintsSame registry depth plain other { start with sink := .open none } →
          template.render registry depth other start =
            template.render registry depth plain start)) ∧
    (∀ (permit : Permit) (chain : Chain), Chain.Permitted permit (chain.map seen) →
      (∀ required name host,
        Grown permit host (final (lookup adapterOf required chain name host))) ∧
      ∀ (template : Template) depth start, template.provider.Permitted permit →
        Grown permit start.host (final (template.renderTo registry depth chain start)).host) ∧
    ∀ segment, isPrivate segment = true → KeptPrivate adapterOf segment := by
  intro adapterOf
  refine ⟨?_, ?_, fun segment => kept_private adapterOf⟩
  · intro reads plain other alike
    have indistinct := seen_alike_indistinct (by_class_of_registry registry) reads
    refine ⟨fun required name => lookup_indistinct indistinct required name alike, ?_, ?_⟩
    · intro texts template depth start
      have reading := same_texts_indistinct indistinct
      have agreeing := same_texts_agreeing (template.settings registry) SeenAlike
      -- Two relations at once: alike but for private members, and with the same texts.
      have both : List.Forall₂ (fun a b => SeenAlike a b ∧ SameTexts registry.adapterOf a b)
          plain other := by
        obtain ⟨length, pairs⟩ := List.forall₂_iff_zip.mp alike
        refine List.forall₂_iff_zip.mpr ⟨length, fun inside => ⟨pairs inside, ?_⟩⟩
        exact (List.forall₂_iff_zip.mp texts).2 inside
      constructor
      · exact render_to_indistinct template registry depth reading agreeing both fun _ _ => trivial
      · exact render_indistinct template registry depth reading agreeing both fun _ _ => trivial
    · intro template depth start
      have agreeing : Agreeing (template.settings registry) SeenAlike
          (Visit.PrintsSame (template.settings registry)) :=
        fun _ _ v w host same prints prints' _ => same v w host prints prints'
      constructor
      · exact render_to_indistinct template registry depth indistinct agreeing alike
      · exact render_indistinct template registry depth indistinct agreeing alike
  · intro permit chain allowed
    constructor
    · exact lookup_calls_public allowed adapterOf
    · intro template depth start provider
      exact render_calls_public allowed registry depth template provider start

def guardedPage : Template :=
  ⟨[.sectionTag ['u'] false 1 [.variableTag ['_', 'n'] true, .variableTag ['n'] true]],
    .standard, .empty, .standard⟩

def publicMethod : Text × Access × Value :=
  (['n'], .shared, .function ⟨some [], .returns, true⟩ (.str ['y']))

def openObject : Value := .object ⟨['R'], some true, some 0, some ['r'], false⟩ [publicMethod]

def guardedObject : Value :=
  .object ⟨['R'], none, none, some ['r'], true⟩
    [(['_', 'n'], .shared, .function ⟨some [], .counts (.fixed [1]), true⟩ .null), publicMethod,
      (['_', 'c'], .computed, .function ⟨some [], .raises ⟨.runtime, []⟩, true⟩ .null),
      (['_', 's'], .field, .str ['s'])]

def userData (u : Value) : Chain := [.mapping .dict none [(.str ['u'], u)]]

theorem user_data_alike : List.Forall₂ SeenAlike (userData openObject) (userData guardedObject) :=
  .cons rfl .nil

theorem user_data_permitted : Chain.Permitted .still ((userData guardedObject).map seen) := by
  have method : (Value.function ⟨some [], .returns, true⟩ (.str ['y'])).Permitted .still :=
    permitted_plain rfl rfl (List.forall_mem_singleton.mpr (permitted_str _))
  have object : guardedObject.seen.Permitted .still :=
    permitted_plain rfl rfl (List.forall_mem_singleton.mpr method)
  exact List.forall_mem_singleton.mpr (permitted_mapping
    (List.forall_mem_singleton.mpr ⟨permitted_str _, object⟩))

theorem guarded_page_prints_same :
    guardedPage.PrintsSame .standard 0 (userData openObject) (userData guardedObject)
      ⟨.initial, .open none, []⟩ := by
  have plain : guardedPage.visits .standard 0 (userData openObject) ⟨.initial, .open none, []⟩ =
      [⟨['_', 'n'], openObject :: userData openObject, ⟨.initial, .open none, []⟩⟩,
        ⟨['n'], openObject :: userData openObject, ⟨.initial, .open none, []⟩⟩] := by cbv
  have other : guardedPage.visits .standard 0 (userData guardedObject) ⟨.initial, .open none, []⟩ =
      [⟨['_', 'n'], guardedObject :: userData guardedObject, ⟨.initial, .open none, []⟩⟩,
        ⟨['n'], guardedObject :: userData guardedObject, ⟨.initial, .open none, []⟩⟩] := by cbv
  have hidden : lookup Registry.standard.adapterOf false (openObject :: userData openObject)
      ['_', 'n'] .initial = .ok .missing .initial := by cbv
  have found : lookup Registry.standard.adapterOf false (openObject :: userData openObject)
      ['n'] .initial = .ok (.str ['y']) .initial := by cbv
  have found' : lookup Registry.standard.adapterOf false (guardedObject :: userData guardedObject)
      ['n'] .initial = .ok (.str ['y']) .initial := by cbv
  have printed : strip Registry.standard.adapterOf (.str ['y']) .initial =
      .ok (.str ['y']) .initial := by cbv
  intro pair member
  rw [plain, other] at member
  rcases List.mem_pair.mp member with rfl | rfl
  · rintro v w host ⟨_, _, looked, present, _⟩ _
    cases hidden.symm.trans looked
    cases present
  · rintro v w host ⟨_, _, looked, _, stripped⟩ ⟨_, _, looked', _, stripped'⟩
    cases found.symm.trans looked
    cases found'.symm.trans looked'
    cases printed.symm.trans stripped
    cases printed.symm.trans stripped'
    rfl

def selfPage : Template :=
  ⟨[.variableTag ['n'] true, .variableTag Path.self true], .standard, .empty, .standard⟩

theorem open_lookup (name : Text) :
    lookupWithin Registry.standard.adapterOf name openObject = pure (.str ['y']) ∨
      lookupWithin Registry.standard.adapterOf name openObject = pure .missing := by
  by_cases named : name = ['n']
  · subst named
    left
    rw [lookup_within_eq]
    rfl
  · have unheld : held? name [publicMethod] = none := by
      simp [held?, member?, publicMethod, Ne.symm named]
    have undynamic : dynamicMember name [publicMethod] = .missing := by
      simp [dynamicMember, dynamicMember?, publicMethod, Ne.symm named]
    right
    rw [lookup_within_object name rfl rfl, openObject, asked_object, unheld, undynamic]
    exact ite_self _

/-- Whatever is read of the two objects is the same, but for the objects themselves. -/
theorem guarded_same_texts :
    SameTexts Registry.standard.adapterOf openObject guardedObject := by
  have indistinct := seen_alike_indistinct (by_class_of_registry .standard) fun _ _ => rfl
  have objects : SeenAlike openObject guardedObject := rfl
  intro v w read host
  have alike : (v = openObject ∧ w = guardedObject) ∨ v = w := by
    -- What is read of the two is again the two, or one value of either.
    induction read with
    | itself => exact .inl ⟨rfl, rfl⟩
    | @stripped _ _ _ _ host after _ ran ran' ih =>
        rcases ih with ⟨rfl, rfl⟩ | rfl
        · have bare : strip Registry.standard.adapterOf openObject host = .ok openObject host := by
            rw [strip_eq]
            rfl
          have bare' : strip Registry.standard.adapterOf guardedObject host =
              .ok guardedObject host := by
            rw [strip_eq]
            rfl
          cases bare.symm.trans ran
          cases bare'.symm.trans ran'
          exact .inl ⟨rfl, rfl⟩
        · exact .inr (read_off_same (.stripped .itself ran ran'))
    | @found _ _ part part' host after name _ ran ran' ih =>
        rcases ih with ⟨rfl, rfl⟩ | rfl
        · have here := indistinct.found name objects host
          rw [ran, ran'] at here
          cases here with
          | ok _ related =>
              right
              rcases open_lookup name with text | none
              · rw [text] at ran
                cases ran
                cases part' <;> cases related
                rfl
              · rw [none] at ran
                cases ran
                cases part' <;> cases related
                rfl
        · exact .inr (read_off_same (.found name .itself ran ran'))
    | item _ ran ran' inside ih =>
        rcases ih with ⟨rfl, rfl⟩ | rfl
        · cases ran
          cases ran'
          cases List.mem_singleton.mp inside
          exact .inl ⟨rfl, rfl⟩
        · exact .inr (read_off_same (.item .itself ran ran' inside))
  rcases alike with ⟨rfl, rfl⟩ | rfl <;> rfl

theorem guarded_data_invisible :
    let adapterOf := Registry.standard.adapterOf
    let start : Progress := ⟨.initial, .open none, []⟩
    Matches SeenAlike (lookup adapterOf true (userData openObject) ['u', '.', 'n'])
        (lookup adapterOf true (userData guardedObject) ['u', '.', 'n']) ∧
      guardedPage.render .standard 0 (userData guardedObject) start =
        guardedPage.render .standard 0 (userData openObject) start ∧
      selfPage.render .standard 0 [guardedObject] start =
        selfPage.render .standard 0 [openObject] start ∧
      (final (guardedPage.renderTo .standard 0 (userData guardedObject) start)).host.calls [1] =
        0 ∧
      lookupWithin adapterOf ['_', 'n'] guardedObject = pure .missing ∧
      lookupPath adapterOf true [['_', 'n']]
        [guardedObject, .mapping .dict none [(.str ['_', 'n'], .int 1)]] .initial =
          .ok (.int 1) .initial := by
  obtain ⟨alike, called, kept⟩ := private_members_are_invisible .standard
  obtain ⟨found, -, rendered⟩ := alike (fun _ _ => rfl) _ _ user_data_alike
  obtain ⟨-, same_texts, -⟩ := alike (fun _ _ => rfl) [openObject] [guardedObject]
    (.cons rfl .nil)
  have grown := (called .still _ user_data_permitted).2 guardedPage 0 ⟨.initial, .open none, []⟩
    trivial
  have hidden := kept ['_', 'n'] rfl
  have object : InObject Registry.standard.adapterOf guardedObject := ⟨_, rfl, .itself⟩
  refine ⟨found true _, ?_, ?_, grown.calls [1] id, hidden.not_found _ object, ?_⟩
  · exact (rendered guardedPage 0 _).2 guarded_page_prints_same
  · exact (same_texts (.cons guarded_same_texts .nil) selfPage 0 _).2
  · exact (hidden.is_key _ _ .initial (.int 1) rfl .itself rfl rfl).1 true [guardedObject] []
      (List.forall_mem_singleton.mpr object)

end Mustache
