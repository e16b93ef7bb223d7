import Mustache.Consulting
import Mustache.Proofs.Indistinct

/-!
What a registry remembers is never stale. Every entry is what the registrations give, since
a registration forgets all entries, so reading and rendering with the memory do what they do
without it.
-/

namespace Mustache

open Consult

/-- The registry has the adapters `registered`, the latest first, and remembers what they give. -/
structure Registry.Recalls (registered : List (ClassName × Adapter)) (registry : Registry) :
    Prop where
  known : registry.registered = registered
  sound : ∀ pair ∈ registry.remembered, pair.2 = (⟨registered, []⟩ : Registry).resolve pair.1

abbrev Registry.given (registered : List (ClassName × Adapter)) : Value → Adapter :=
  (⟨registered, []⟩ : Registry).adapterOf

namespace Consult

def leaving {σ α : Type} (registry : Registry) :
    EStateM.Result Fault σ α → EStateM.Result Fault (InUse σ) α
  | .ok result state => .ok result ⟨registry, state⟩
  | .error fault state => .error fault ⟨registry, state⟩

/-- The act does what `plain` does, and remembers nothing stale. -/
def Faithful {σ α : Type} (registered : List (ClassName × Adapter)) (act : Consult σ α)
    (plain : EStateM Fault σ α) : Prop :=
  ∀ registry state, registry.Recalls registered → ∃ later : Registry, later.Recalls registered ∧
    act ⟨registry, state⟩ = leaving later (plain state)

section Steps
variable {σ α β : Type} {registered : List (ClassName × Adapter)}

theorem recalls_adapter {registry : Registry} (recalls : registry.Recalls registered) (v : Value) :
    (registry.adapterFor v).1 = Registry.given registered v ∧
      (registry.adapterFor v).2.Recalls registered := by
  obtain ⟨known, remembered⟩ := registry
  obtain ⟨rfl, sound⟩ := recalls
  unfold Registry.adapterFor
  split
  · next pair found =>
      constructor
      · -- The entry may have been made for another value of the same lineage.
        have same : pair.1 = v.lineage := by simpa using List.find?_some found
        have given := sound pair (List.mem_of_find?_eq_some found)
        rw [same] at given
        exact given
      · exact ⟨rfl, sound⟩
  · constructor
    · rfl
    · refine ⟨rfl, ?_⟩
      intro pair member
      rcases List.mem_cons.mp member with rfl | earlier
      · rfl
      · exact sound pair earlier

theorem faithful_pure (result : α) :
    Faithful registered (pure result : Consult σ α) (pure result) :=
  fun registry _ recalls => ⟨registry, recalls, rfl⟩

theorem faithful_throw (fault : Fault) :
    Faithful registered (throw fault : Consult σ α) (throw fault) :=
  fun registry _ recalls => ⟨registry, recalls, rfl⟩

theorem faithful_aside (act : EStateM Fault σ α) : Faithful registered (aside act) act := by
  intro registry state recalls
  refine ⟨registry, recalls, ?_⟩
  unfold aside
  cases act state <;> rfl

theorem faithful_bind {act : Consult σ α} {plain : EStateM Fault σ α} {next : α → Consult σ β}
    {plainly : α → EStateM Fault σ β} (first : Faithful registered act plain)
    (rest : ∀ result, Faithful registered (next result) (plainly result)) :
    Faithful registered (act >>= next) (plain >>= plainly) := by
  intro registry state recalls
  obtain ⟨between, kept, ran⟩ := first registry state recalls
  cases went : plain state with
  | error fault after =>
      rw [went] at ran
      rw [bind_of_error ran, bind_of_error went]
      exact ⟨between, kept, rfl⟩
  | ok result after =>
      rw [went] at ran
      rw [bind_of_ok ran, bind_of_ok went]
      exact rest result between after kept

theorem faithful_ask {next : Adapter → Consult σ α} {plain : EStateM Fault σ α} (v : Value)
    (rest : Faithful registered (next (Registry.given registered v)) plain) :
    Faithful registered (adapterFor v >>= next) plain := by
  intro registry state recalls
  obtain ⟨same, kept⟩ := recalls_adapter recalls v
  rw [← same] at rest
  exact rest _ state kept

theorem faithful_ite {c : Prop} [Decidable c] {act act' : Consult σ α}
    {plain plain' : EStateM Fault σ α} (yes : Faithful registered act plain)
    (no : Faithful registered act' plain') :
    Faithful registered (if c then act else act') (if c then plain else plain') := by
  split
  · exact yes
  · exact no

theorem faithful_for (items : List α) {body : α → Consult σ Unit}
    {plain : α → EStateM Fault σ Unit}
    (each : ∀ item, Faithful registered (body item) (plain item)) :
    Faithful registered (items.forM body) (items.forM plain) := by
  induction items with
  | nil => exact faithful_pure ()
  | cons item rest ih => exact faithful_bind (each item) fun _ => ih

theorem faithful_on_host {act : Consult Host α} {plain : Eval α}
    (faithful : Faithful registered act plain) :
    Faithful registered (onHost act) (Render.onHost plain) := by
  intro registry state recalls
  obtain ⟨later, kept, ran⟩ := faithful registry state.host recalls
  refine ⟨later, kept, ?_⟩
  unfold onHost Render.onHost
  rw [ran]
  cases plain state.host <;> rfl

end Steps

section Reading
variable {registered : List (ClassName × Adapter)}

theorem faithful_settle (v : Value) :
    Faithful registered (settle v) (Mustache.settle (Registry.given registered) v) := by
  apply faithful_ask
  unfold Mustache.settle
  cases (Registry.given registered v).opening v with
  | fails error => exact faithful_throw _
  | closed | opens _ | counts _ => exact faithful_pure v

theorem faithful_strip (v : Value) :
    Faithful registered (strip v) (Mustache.strip (Registry.given registered) v) := by
  rw [strip, strip_eq]
  apply faithful_ite (faithful_pure v)
  apply faithful_ask
  split
  · next closed =>
      rw [closed]
      exact faithful_pure v
  · next inner opens =>
      have smaller := Adapter.size_opening opens
      rw [opens]
      exact faithful_strip inner
  · next slot counts =>
      rw [counts]
      exact faithful_bind (faithful_aside _) faithful_settle
  · next error fails =>
      rw [fails]
      exact faithful_throw _
termination_by sizeOf v

theorem faithful_is_empty (v : Value) :
    Faithful registered (isEmpty v) (Mustache.isEmpty (Registry.given registered) v) := by
  apply faithful_bind (faithful_strip v)
  intro inner
  exact faithful_ite (faithful_pure _) (faithful_ask inner (faithful_aside _))

theorem faithful_kind (v : Value) :
    Faithful registered (kindOf v) (Mustache.kindOf (Registry.given registered) v) := by
  apply faithful_bind (faithful_strip v)
  intro inner
  exact faithful_ite (faithful_pure _) (faithful_ask inner (faithful_pure _))

theorem faithful_lookup_within (name : Text) (v : Value) :
    Faithful registered (lookupWithin name v)
      (Mustache.lookupWithin (Registry.given registered) name v) := by
  rw [lookupWithin, lookup_within_eq]
  apply faithful_ite (faithful_pure _)
  apply faithful_ask
  apply faithful_bind (faithful_aside _)
  intro found
  refine faithful_ite ?_ (faithful_pure found)
  split
  · next closed =>
      rw [closed]
      exact faithful_aside _
  · next inner opens =>
      -- The lookup goes on with what is inside, which is smaller.
      have smaller := Adapter.size_opening opens
      rw [opens]
      exact faithful_lookup_within name inner
  · next slot counts =>
      simp only [counts, bind_assoc]
      apply faithful_bind (faithful_aside _)
      intro count
      apply faithful_bind (faithful_settle count)
      exact fun count => faithful_ask count (faithful_aside _)
  · next error fails =>
      rw [fails]
      exact faithful_throw _
termination_by sizeOf v

theorem faithful_lookup_segment (name : Text) (chain : Chain) :
    Faithful registered (lookupSegment name chain)
      (Mustache.lookupSegment (Registry.given registered) name chain) := by
  induction chain with
  | nil => exact faithful_pure _
  | cons frame outer ih =>
      refine faithful_bind ?_ fun found => faithful_ite ih (faithful_pure found)
      exact faithful_ite (faithful_pure frame) (faithful_lookup_within name frame)

theorem faithful_lookup_path (required : Bool) (path : Path) (chain : Chain) :
    Faithful registered (lookupPath required path chain)
      (Mustache.lookupPath (Registry.given registered) required path chain) := by
  induction path generalizing chain with
  | nil => exact faithful_pure _
  | cons segment rest ih =>
      apply faithful_bind (faithful_lookup_segment segment chain)
      intro found
      apply faithful_ite
      · exact faithful_ite (faithful_throw _) (faithful_pure _)
      · exact faithful_ite (faithful_pure found) (ih [found])

theorem faithful_lookup (required : Bool) (chain : Chain) (name : Text) :
    Faithful registered (lookup required chain name)
      (Mustache.lookup (Registry.given registered) required chain name) :=
  faithful_lookup_path required (Path.ofName name) chain

end Reading

section Rendering
variable {registered : List (ClassName × Adapter)} (settings : Settings)

def withGiven (registered : List (ClassName × Adapter)) (settings : Settings) : Settings :=
  { settings with adapterOf := Registry.given registered }

theorem faithful_variable (name : Text) (escape : Bool) (chain : Chain) :
    Faithful registered (variableTag settings name escape chain)
      (Render.variableTag (withGiven registered settings) name escape chain) := by
  apply faithful_bind (faithful_on_host (faithful_lookup _ _ _))
  intro found
  apply faithful_ite (faithful_pure _)
  apply faithful_bind (faithful_on_host (faithful_strip _))
  intro v
  exact faithful_ite (faithful_pure _) (faithful_aside _)

theorem faithful_section (name : Text) (inverted : Bool) {body : Chain → Consult Progress Unit}
    {plain : Chain → Render Unit} (inside : ∀ chain, Faithful registered (body chain) (plain chain))
    (chain : Chain) :
    Faithful registered (sectionTag name inverted body chain)
      (Render.sectionTag (withGiven registered settings) name inverted plain chain) := by
  apply faithful_bind (faithful_on_host (faithful_lookup _ _ _))
  intro found
  apply faithful_bind (faithful_on_host (faithful_is_empty _))
  intro empty
  apply faithful_ite (faithful_pure _)
  apply faithful_ite (inside chain)
  apply faithful_bind (faithful_on_host (faithful_strip _))
  intro target
  apply faithful_bind (faithful_on_host (faithful_kind _))
  rintro (_ | _ | _)
  · exact inside chain
  · apply faithful_ask
    exact faithful_bind (faithful_aside _) fun items =>
      faithful_for items fun item => inside (item :: chain)
  · exact inside (target :: chain)

def FaithfulExpand (registered : List (ClassName × Adapter))
    (expand : Text → Text → Bool → Chain → Consult Progress Unit) (plain : Render.Expand) : Prop :=
  ∀ name indent linked chain,
    Faithful registered (expand name indent linked chain) (plain name indent linked chain)

variable {settings}
  {expand : Text → Text → Bool → Chain → Consult Progress Unit} {plain : Render.Expand}

mutual
theorem faithful_node (expands : FaithfulExpand registered expand plain) (first : Node)
    (chain : Chain) :
    Faithful registered (node settings expand first chain)
      (Render.node (withGiven registered settings) plain first chain) := by
  match first with
  | .text content => exact faithful_aside _
  | .variableTag name escape => exact faithful_variable settings name escape chain
  | .sectionTag name inverted _ children =>
      exact faithful_section settings name inverted (faithful_nodes expands children) chain
  | .partialTag name indent linked => exact expands name indent linked chain
  | .unknownTag _ | .unknown => exact faithful_throw _

theorem faithful_nodes (expands : FaithfulExpand registered expand plain) (siblings : List Node)
    (chain : Chain) :
    Faithful registered (nodes settings expand siblings chain)
      (Render.nodes (withGiven registered settings) plain siblings chain) := by
  match siblings with
  | [] => exact faithful_pure ()
  | first :: rest =>
      exact faithful_bind (faithful_node expands first chain) fun _ =>
        faithful_nodes expands rest chain
end

theorem faithful_expand (depth : Nat) :
    FaithfulExpand registered (expandPartial settings depth)
      (Render.expandPartial (withGiven registered settings) depth) := by
  induction depth with
  | zero => exact fun _ _ _ _ => faithful_throw _
  | succ depth ih =>
      intro name indent linked chain
      apply faithful_bind (faithful_aside _)
      intro source
      apply faithful_bind (faithful_aside _)
      intro _
      rw [show (withGiven registered settings).delimiters = settings.delimiters from rfl]
      cases parse source settings.delimiters with
      | error error => exact faithful_throw _
      | ok parsed =>
          exact faithful_bind (faithful_aside _) fun _ => faithful_nodes ih parsed.nodes chain

theorem faithful_text {act : Consult Progress Unit} {plain : Render Unit}
    (faithful : Faithful registered act plain) :
    Faithful registered (toText act) (Render.toText plain) := by
  intro registry state recalls
  obtain ⟨later, kept, ran⟩ := faithful registry { state with sink := .open none } recalls
  refine ⟨later, kept, ?_⟩
  unfold toText Render.toText
  rw [ran]
  cases plain { state with sink := .open none } <;> rfl

theorem faithful_render (depth : Nat) (template : Template) (contexts : Chain) :
    Faithful registered (render depth template contexts)
      (template.render ⟨registered, []⟩ depth contexts) := by
  intro registry state recalls
  have expands : FaithfulExpand registered (expandPartial (template.settings registry) depth) _ :=
    faithful_expand depth
  exact faithful_text (faithful_nodes expands template.nodes contexts) registry state recalls

end Rendering

theorem faithful_map {σ α β : Type} {registered : List (ClassName × Adapter)}
    {act : Consult σ α} {plain : EStateM Fault σ α} (change : α → β)
    (faithful : Faithful registered act plain) :
    Faithful registered (change <$> act) (change <$> plain) := by
  rw [map_eq_pure_bind, map_eq_pure_bind]
  exact faithful_bind faithful fun _ => faithful_pure _

/-- What there is to see of an outcome but the registry. -/
def outcome {σ α : Type} : EStateM.Result Fault (InUse σ) α → EStateM.Result Fault σ α
  | .ok result after => .ok result after.state
  | .error fault after => .error fault after.state

@[simp] theorem outcome_leaving {σ α : Type} (registry : Registry)
    (result : EStateM.Result Fault σ α) : outcome (leaving registry result) = result := by
  cases result <;> rfl

end Consult

def Query.plain (registry : Registry) : Query → Render Answer
  | .adapterFor v => return .adapter (registry.adapterOf v)
  | .unwrap v => .value <$> Render.onHost (Mustache.strip registry.adapterOf v)
  | .isEmpty v => .flag <$> Render.onHost (Mustache.isEmpty registry.adapterOf v)
  | .kindOf v => .kind <$> Render.onHost (Mustache.kindOf registry.adapterOf v)
  | .lookup required chain name =>
      .value <$> Render.onHost (Mustache.lookup registry.adapterOf required chain name)
  | .render depth template contexts => .text <$> template.render registry depth contexts

theorem faithful_query (registered : List (ClassName × Adapter)) (query : Query) :
    Faithful registered query.ask (query.plain ⟨registered, []⟩) := by
  cases query with
  | adapterFor v =>
      rw [Query.ask, map_eq_pure_bind]
      exact faithful_ask v (faithful_pure _)
  | unwrap v => exact faithful_map _ (faithful_on_host (faithful_strip v))
  | isEmpty v => exact faithful_map _ (faithful_on_host (faithful_is_empty v))
  | kindOf v => exact faithful_map _ (faithful_on_host (faithful_kind v))
  | lookup required chain name =>
      exact faithful_map _ (faithful_on_host (faithful_lookup required chain name))
  | render depth template contexts => exact faithful_map _ (faithful_render depth template contexts)

/-- Where the registry recalls what was registered, its answers are those without a memory. -/
theorem answer_of_recalls {registered : List (ClassName × Adapter)} {registry : Registry}
    (recalls : registry.Recalls registered) (query : Query) (state : Progress) :
    outcome (query.ask ⟨registry, state⟩) = query.plain ⟨registered, []⟩ state := by
  obtain ⟨later, -, ran⟩ := faithful_query registered query registry state recalls
  rw [ran, outcome_leaving]

namespace Event

def registration? : Event → Option (ClassName × Adapter)
  | .register name adapter => some (name, adapter)
  | .ask _ => none

def registrations (events : List Event) : List (ClassName × Adapter) :=
  events.filterMap registration?

theorem recalls_next {registered : List (ClassName × Adapter)} {use : InUse Progress}
    (recalls : use.registry.Recalls registered) (event : Event) :
    (event.next use).registry.Recalls (event.registration?.toList ++ registered) := by
  cases event with
  | register name adapter =>
      -- Every registration empties the memory.
      constructor
      · exact congrArg ((name, adapter) :: ·) recalls.known
      · intro pair member
        cases member
  | ask query =>
      obtain ⟨later, kept, ran⟩ := faithful_query registered query use.registry use.state recalls
      rw [next, ran]
      cases query.plain ⟨registered, []⟩ use.state <;> exact kept

theorem recalls_run (events : List Event) {registered : List (ClassName × Adapter)}
    {use : InUse Progress} (recalls : use.registry.Recalls registered) :
    (run events use).registry.Recalls ((registrations events).reverse ++ registered) := by
  induction events generalizing registered use with
  | nil => exact recalls
  | cons event rest ih =>
      have later := ih (recalls_next recalls event)
      have split : registrations (event :: rest) =
          event.registration?.toList ++ registrations rest := by
        cases event <;> rfl
      have same : event.registration?.toList.reverse = event.registration?.toList := by
        cases event <;> rfl
      rw [split, List.reverse_append, same, List.append_assoc]
      exact later

theorem recalls_fresh (events : List Event) (start : Progress) :
    (run events ⟨.fresh, start⟩).registry.Recalls
      ((.reference, .reference) :: registrations events).reverse := by
  rw [List.reverse_cons]
  apply recalls_run
  constructor
  · rfl
  · intro pair member
    cases member

end Event

/-! The rule for values of whose classes none has an adapter. -/

namespace ClassName

def mappings : List ClassName := [.dict, .defaultDict, .userDict, .raisingMap, .abstractMapping]

def textsBytesNumbers : List ClassName :=
  [.str, .bytes, .bytearray, .bool, .int, .float, .decimal, .fraction]

def sequencesSets : List ClassName :=
  [.list, .tuple, .range, .deque, .userList, .abstractSequence, .set, .frozenSet, .orderedSet,
    .abstractSet]

end ClassName

def OfKind (kinds lineage : List ClassName) : Prop := ∃ c ∈ lineage, c ∈ kinds

instance (kinds lineage : List ClassName) : Decidable (OfKind kinds lineage) :=
  inferInstanceAs (Decidable (∃ c ∈ lineage, c ∈ kinds))

/-- What reads the values of a lineage by their kind. Each case leaves the lineages of the cases
before it out. -/
inductive ByKind (lineage : List ClassName) : Adapter → Prop
  | namedTuple : .namedTuple ∈ lineage → ByKind lineage .object
  | mapping : .namedTuple ∉ lineage → OfKind ClassName.mappings lineage → ByKind lineage .mapping
  | scalar : .namedTuple ∉ lineage → ¬ OfKind ClassName.mappings lineage →
      OfKind ClassName.textsBytesNumbers lineage → ByKind lineage .scalar
  | sequence : .namedTuple ∉ lineage → ¬ OfKind ClassName.mappings lineage →
      ¬ OfKind ClassName.textsBytesNumbers lineage → OfKind ClassName.sequencesSets lineage →
      ByKind lineage .sequence
  | record : .namedTuple ∉ lineage → ¬ OfKind ClassName.mappings lineage →
      ¬ OfKind ClassName.textsBytesNumbers lineage → ¬ OfKind ClassName.sequencesSets lineage →
      ByKind lineage .object

theorem is_mapping_iff (c : ClassName) : c.isMapping = true ↔ c ∈ ClassName.mappings := by
  cases c <;> simp [ClassName.isMapping, ClassName.mappings]

theorem is_scalar_iff (c : ClassName) : c.isScalar = true ↔ c ∈ ClassName.textsBytesNumbers := by
  cases c <;> simp [ClassName.isScalar, ClassName.textsBytesNumbers]

theorem is_sequence_iff (c : ClassName) : c.isSequence = true ↔ c ∈ ClassName.sequencesSets := by
  cases c <;> simp [ClassName.isSequence, ClassName.sequencesSets]

theorem any_of_kind {test : ClassName → Bool} {kinds : List ClassName}
    (told : ∀ c, test c = true ↔ c ∈ kinds) (lineage : List ClassName) :
    lineage.any test = true ↔ OfKind kinds lineage := by
  simp only [List.any_eq_true, told, OfKind]

theorem by_kind_iff (lineage : List ClassName) (adapter : Adapter) :
    ByKind lineage adapter ↔ Adapter.builtIn lineage = adapter := by
  unfold Adapter.builtIn
  simp only [List.contains_iff_mem, any_of_kind is_mapping_iff, any_of_kind is_scalar_iff,
    any_of_kind is_sequence_iff]
  constructor
  · intro kind
    cases kind with
    | namedTuple named => rw [if_pos named]
    | mapping unnamed mapping => rw [if_neg unnamed, if_pos mapping]
    | scalar unnamed no_mapping scalar => rw [if_neg unnamed, if_neg no_mapping, if_pos scalar]
    | sequence unnamed no_mapping no_scalar sequence =>
        rw [if_neg unnamed, if_neg no_mapping, if_neg no_scalar, if_pos sequence]
    | record unnamed no_mapping no_scalar no_sequence =>
        rw [if_neg unnamed, if_neg no_mapping, if_neg no_scalar, if_neg no_sequence]
  · rintro rfl
    split
    · next named => exact .namedTuple named
    · split
      · next unnamed mapping => exact .mapping unnamed mapping
      · split
        · next unnamed no_mapping scalar => exact .scalar unnamed no_mapping scalar
        · split
          · next unnamed no_mapping no_scalar sequence =>
              exact .sequence unnamed no_mapping no_scalar sequence
          · next unnamed no_mapping no_scalar no_sequence =>
              exact .record unnamed no_mapping no_scalar no_sequence

/-- The adapter that a lineage has after `registrations`, the earliest first. -/
inductive Chosen (registrations : List (ClassName × Adapter)) (lineage : List ClassName) :
    Adapter → Prop
  /-- The latest adapter of the nearest class that has any. -/
  | nearest {nearer farther : List ClassName} {name : ClassName} {adapter : Adapter}
      {earlier later : List (ClassName × Adapter)} :
      lineage = nearer ++ name :: farther →
      (∀ c ∈ nearer, c ∉ registrations.map (·.1)) →
      registrations = earlier ++ (name, adapter) :: later →
      name ∉ later.map (·.1) →
      Chosen registrations lineage adapter
  | builtIn {adapter : Adapter} : (∀ c ∈ lineage, c ∉ registrations.map (·.1)) →
      ByKind lineage adapter → Chosen registrations lineage adapter

section Choice
variable (registrations : List (ClassName × Adapter))

theorem registered_none_iff (name : ClassName) :
    (⟨registrations.reverse, []⟩ : Registry).registered? name = none ↔
      name ∉ registrations.map (·.1) := by
  simp only [Registry.registered?, Option.map_eq_none_iff, List.find?_eq_none,
    List.mem_reverse, List.mem_map, decide_eq_true_eq, not_exists, not_and]

theorem registered_iff (name : ClassName) (adapter : Adapter) :
    (⟨registrations.reverse, []⟩ : Registry).registered? name = some adapter ↔
      ∃ earlier later, registrations = earlier ++ (name, adapter) :: later ∧
        name ∉ later.map (·.1) := by
  constructor
  · intro found
    obtain ⟨⟨name', _⟩, first, rfl⟩ := Option.map_eq_some_iff.mp found
    obtain ⟨named, before, behind, split, others⟩ := List.find?_eq_some_iff_append.mp first
    obtain rfl : name' = name := by simpa using named
    refine ⟨behind.reverse, before.reverse, ?_, ?_⟩
    · have back := congrArg List.reverse split
      simpa using back
    · intro member
      obtain ⟨pair, inside, same⟩ := List.mem_map.mp member
      have other := others pair (List.mem_reverse.mp inside)
      simp [same] at other
  · rintro ⟨earlier, later, rfl, latest⟩
    have silent : later.reverse.find? (fun pair => pair.1 = name) = none :=
      Option.map_eq_none_iff.mp ((registered_none_iff later name).mpr latest)
    simp [Registry.registered?, silent]

theorem chosen_iff (lineage : List ClassName) (adapter : Adapter) :
    Chosen registrations lineage adapter ↔
      (⟨registrations.reverse, []⟩ : Registry).resolve lineage = adapter := by
  unfold Registry.resolve
  constructor
  · intro chosen
    cases chosen with
    | nearest split silent registered latest =>
        have here := (registered_iff registrations _ adapter).mpr ⟨_, _, registered, latest⟩
        have others (c : ClassName) (inside : c ∈ _) :=
          (registered_none_iff registrations c).mpr (silent c inside)
        rw [split, List.findSome?_append, List.findSome?_eq_none_iff.mpr others,
          List.findSome?_cons, here]
        rfl
    | builtIn silent kind =>
        have none (c : ClassName) (inside : c ∈ lineage) :=
          (registered_none_iff registrations c).mpr (silent c inside)
        rw [List.findSome?_eq_none_iff.mpr none]
        exact (by_kind_iff lineage adapter).mp kind
  · rintro rfl
    cases found : lineage.findSome? (⟨registrations.reverse, []⟩ : Registry).registered? with
    | none =>
        refine .builtIn (fun c inside => ?_) ((by_kind_iff lineage _).mpr rfl)
        exact (registered_none_iff registrations c).mp
          (List.findSome?_eq_none_iff.mp found c inside)
    | some adapter =>
        -- The first class that has an answer, and of its adapters the one registered last.
        obtain ⟨nearer, name, farther, split, here, others⟩ := List.findSome?_eq_some_iff.mp found
        obtain ⟨earlier, later, registered, latest⟩ := (registered_iff registrations _ _).mp here
        have silent (c : ClassName) (inside : c ∈ nearer) : c ∉ registrations.map (·.1) :=
          (registered_none_iff registrations c).mp (others c inside)
        exact .nearest split silent registered latest

/-- An adapter registered for a class changes nothing for lineages without the class, or with
another one before it that has an adapter. -/
theorem nearest_of_changed (registry : Registry) {name : ClassName} {adapter : Adapter}
    {lineage : List ClassName}
    (changed : (registry.register name adapter).resolve lineage ≠ registry.resolve lineage) :
    ∃ nearer farther, lineage = nearer ++ name :: farther ∧
      ∀ c ∈ nearer, registry.registered? c = none := by
  have different : lineage.findSome? (registry.register name adapter).registered? ≠
      lineage.findSome? registry.registered? := by
    intro same
    apply changed
    rw [Registry.resolve, Registry.resolve, same]
  clear changed
  induction lineage with
  | nil => exact absurd rfl different
  | cons c rest ih =>
      by_cases here : c = name
      · subst here
        exact ⟨[], rest, rfl, by simp⟩
      · have same : (registry.register name adapter).registered? c = registry.registered? c := by
          simp [Registry.register, Registry.registered?, Ne.symm here]
        cases own : registry.registered? c with
        | some adapter' => simp [same, own] at different
        | none =>
            -- Neither registry has an adapter for the class, so both go on to the next.
            rw [List.findSome?_cons_of_isNone (by simp [same, own]),
              List.findSome?_cons_of_isNone (by simp [own])] at different
            obtain ⟨nearer, farther, rfl, silent⟩ := ih different
            exact ⟨c :: nearer, farther, rfl, List.forall_mem_cons.mpr ⟨own, silent⟩⟩

end Choice

/-- After any registrations and questions in any order, a value has the adapter registered last
for the nearest of its classes, or the one for its kind where none of them has any, and no other
one. All answers are those of a registry without a memory, questions make no difference to them,
and a registration does so only for values of its class that have no nearer class with an
adapter. -/
theorem memory_is_never_stale (events : List Event) (start : Progress) :
    let registry := (Event.run events ⟨.fresh, start⟩).registry
    let registrations := (.reference, .reference) :: Event.registrations events
    (∀ v adapter, (registry.adapterFor v).1 = adapter ↔ Chosen registrations v.lineage adapter) ∧
    (∀ (query : Query) state, outcome (query.ask ⟨registry, state⟩) =
      query.plain ⟨registrations.reverse, []⟩ state) ∧
    (∀ events' start', Event.registrations events' = Event.registrations events →
      ∀ (query : Query) state,
        outcome (query.ask ⟨(Event.run events' ⟨.fresh, start'⟩).registry, state⟩) =
          outcome (query.ask ⟨registry, state⟩)) ∧
    ∀ name adapter v,
      ((registry.register name adapter).adapterFor v).1 ≠ (registry.adapterFor v).1 →
      ∃ nearer farther, v.lineage = nearer ++ name :: farther ∧
        ∀ c ∈ nearer, c ∉ registrations.map (·.1) := by
  intro registry registrations
  -- What is remembered never matters: the registry recalls what was registered, after any events.
  have recalls := Event.recalls_fresh events start
  have given (v : Value) : (registry.adapterFor v).1 = Registry.given registrations.reverse v :=
    (recalls_adapter recalls v).1
  refine ⟨?_, answer_of_recalls recalls, ?_, ?_⟩
  · intro v adapter
    rw [given v]
    exact (chosen_iff registrations v.lineage adapter).symm
  · intro events' start' same query state
    have recalls' := Event.recalls_fresh events' start'
    rw [same] at recalls'
    rw [answer_of_recalls recalls', answer_of_recalls recalls]
  · intro name adapter v changed
    have registered := recalls_adapter (Event.recalls_next recalls (.register name adapter)) v
    have given' : ((registry.register name adapter).adapterFor v).1 =
        Registry.given ((name, adapter) :: registrations.reverse) v := registered.1
    rw [given', given v] at changed
    obtain ⟨nearer, farther, split, silent⟩ :=
      nearest_of_changed ⟨registrations.reverse, []⟩ changed
    refine ⟨nearer, farther, split, fun c inside => ?_⟩
    exact (registered_none_iff registrations c).mp (silent c inside)

def boolEvents : List Event :=
  [.ask (.adapterFor (.bool true)), .register .int .base,
    .ask (.lookup false [.mapping .dict none [(.str ['b'], .bool true)]] ['b']),
    .ask (.kindOf (.bool true)), .register .object (.label ['o']), .register .int .sequence]

theorem memory_of_bool_events :
    let idle : Progress := ⟨.initial, .open none, []⟩
    let early := (Event.run (boolEvents.take 4) ⟨.fresh, idle⟩).registry
    let registry := (Event.run boolEvents ⟨.fresh, idle⟩).registry
    -- Before the class of all objects has an adapter, most values are read by their kind.
    ((early.adapterFor (.namedTuple ['P'] [])).1 = .object ∧
      (early.adapterFor (.filling (.fixed [0]) [] .null)).1 = .mapping ∧
      (early.adapterFor (.str ['s'])).1 = .scalar ∧
      (early.adapterFor (.sequence .set [])).1 = .sequence ∧
      (early.adapterFor (.bare [.defined 0 ['C'], .object])).1 = .object) ∧
    (registry.adapterFor (.bool true)).1 = .sequence ∧
    outcome (Query.ask (.adapterFor (.bool true)) ⟨registry, idle⟩) = .ok (.adapter .sequence) idle ∧
    (∀ query : Query, ∀ state,
      outcome (query.ask ⟨(Event.run
        [.register .int .base, .register .object (.label ['o']), .register .int .sequence]
        ⟨.fresh, idle⟩).registry, state⟩) =
      outcome (query.ask ⟨registry, state⟩)) ∧
    ∃ nearer farther, (Value.bool true).lineage = nearer ++ .bool :: farther := by
  intro idle early registry
  obtain ⟨by_kind, -⟩ := memory_is_never_stale (boolEvents.take 4) idle
  obtain ⟨chosen, plain, unasked, changed⟩ := memory_is_never_stale boolEvents idle
  have now : (registry.adapterFor (.bool true)).1 = .sequence := by
    have lineage : (Value.bool true).lineage = [.bool] ++ .int :: [.object] := rfl
    have registered : (.reference, .reference) :: Event.registrations boolEvents =
        [(.reference, .reference), (.int, .base), (.object, .label ['o'])]
          ++ (.int, .sequence) :: [] := rfl
    exact (chosen (.bool true) _).mpr
      (.nearest lineage (by decide) registered (by decide))
  have later : ((registry.register .bool .mapping).adapterFor (.bool true)).1 = .mapping :=
    (recalls_adapter (Event.recalls_next (Event.recalls_fresh boolEvents idle)
      (.register .bool .mapping)) (.bool true)).1
  refine ⟨⟨?_, ?_, ?_, ?_, ?_⟩, now, ?_, ?_, ?_⟩
  · exact (by_kind _ _).mpr (.builtIn (by decide) (.namedTuple (by decide)))
  · exact (by_kind _ _).mpr (.builtIn (by decide) (.mapping (by decide) (by decide)))
  · exact (by_kind _ _).mpr (.builtIn (by decide) (.scalar (by decide) (by decide) (by decide)))
  · exact (by_kind _ _).mpr
      (.builtIn (by decide) (.sequence (by decide) (by decide) (by decide) (by decide)))
  · exact (by_kind _ _).mpr
      (.builtIn (by decide) (.record (by decide) (by decide) (by decide) (by decide)))
  · rw [plain]
    rfl
  · exact unasked
      [.register .int .base, .register .object (.label ['o']), .register .int .sequence] idle rfl
  · obtain ⟨nearer, farther, split, -⟩ :=
      changed .bool .mapping (.bool true) (by rw [later, now]; decide)
    exact ⟨nearer, farther, split⟩

end Mustache
