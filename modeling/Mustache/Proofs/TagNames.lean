import Mathlib
import Mustache.Proofs.Effects
import Mustache.Proofs.Indistinct

/-!
What a template reads is what its tags name. Two renderings in contexts that agree on the first
segments of these names do the same: the first segment of a name is all that a context is asked
for, and what is found is looked through without the contexts.
-/

namespace Mustache

namespace Path

def head (name : Text) : Text := name.takeWhile (· ≠ '.')

theorem head_not_self (name : Text) : head name ≠ self := by
  intro same
  have dot : '.' ∈ head name := by simp [same, self]
  simpa using List.mem_takeWhile_imp dot

theorem segments_head (fresh : Bool) {name : Text} (named : fresh = true → name ≠ self) :
    ∃ later, segmentsFrom fresh name = head name :: later := by
  induction name generalizing fresh with
  | nil => exact ⟨[], rfl⟩
  | cons c rest ih =>
      unfold segmentsFrom
      -- A dot ends the first segment, except where the whole name is a dot.
      by_cases dot : c = '.'
      · have whole : ¬ (fresh = true ∧ rest = []) := by
          rintro ⟨start, rfl⟩
          exact named start (by rw [dot]; rfl)
        have empty : head (c :: rest) = [] := by simp [head, dot]
        rw [if_pos dot, if_neg whole, empty]
        exact ⟨_, rfl⟩
      · obtain ⟨later, split⟩ := ih false (by simp)
        have longer : head (c :: rest) = c :: head rest := by simp [head, dot]
        rw [if_neg dot, split, longer]
        exact ⟨later, rfl⟩

theorem name_head {name : Text} (named : name ≠ self) :
    ∃ later, ofName name = head name :: later :=
  segments_head true fun _ => named

end Path

def Node.tagName? : Node → Option Text
  | .variableTag name _ | .sectionTag name _ _ _ | .partialTag name _ _ | .unknownTag name =>
      some name
  | .text _ | .unknown => none

namespace Template

inductive HasTag (template : Template) : Node → Prop
  | outer {tag : Node} : tag ∈ template.tags → HasTag template tag
  | inner {outer tag : Node} {tags : List Node} : HasTag template outer →
      outer.tags = .ok tags → tag ∈ tags → HasTag template tag

def Names (template : Template) (key : Text) : Prop :=
  ∃ tag name, template.HasTag tag ∧ tag.tagName? = some name ∧ key = Path.head name

end Template

/-- Mappings of the same kind with the same values under all `keys`, or none. -/
inductive AgreeOn (keys : Text → Prop) (host : Host) : Value → Value → Prop
  | mapping {shape : MappingShape} {address address' : Option Address}
      {entries entries' : List (Value × Value)} :
      (∀ key, keys key →
        Value.find? key (host.entries (.mapping shape address entries)) =
          Value.find? key (host.entries (.mapping shape address' entries'))) →
      AgreeOn keys host (.mapping shape address entries) (.mapping shape address' entries')

def Value.editSlot? : Value → Option Slot
  | .mapping _ (some address) _ => some (address.within [])
  | _ => none

def Chain.slots (chain : Chain) : List Slot := chain.filterMap Value.editSlot?

/-- Functions may be called, and mappings that make up entries filled, unless they have one of
the slots `kept`. -/
def Permit.sparing (kept : List Slot) : Permit where
  fills slot := slot ∉ kept
  counts _ := True
  sees _ := true
  sees_public _ _ := rfl

/-- Two computations that do what is permitted, and the same wherever the mappings that may not
be filled have the changes `kept`. -/
structure Twin {σ α : Type} (hostOf : σ → Host) (permit : Permit) (kept : Slot → List Change)
    (gives : α → Prop) (act act' : EStateM Fault σ α) : Prop
    extends Effects hostOf permit gives act where
  same : ∀ state, (∀ slot, ¬ permit.fills slot → (hostOf state).changes slot = kept slot) →
    act state = act' state

section Steps
variable {σ α β : Type} {hostOf : σ → Host} {permit : Permit} {kept : Slot → List Change}
  {gives : α → Prop} {gives' : β → Prop}

theorem twin_self {act : EStateM Fault σ α} (effects : Effects hostOf permit gives act) :
    Twin hostOf permit kept gives act act := ⟨effects, fun _ _ => rfl⟩

theorem twin_bind {act act' : EStateM Fault σ α} {next next' : α → EStateM Fault σ β}
    (first : Twin hostOf permit kept gives act act')
    (rest : ∀ result, gives result →
      Twin hostOf permit kept gives' (next result) (next' result)) :
    Twin hostOf permit kept gives' (act >>= next) (act' >>= next') where
  toEffects := effects_bind first.toEffects fun result good => (rest result good).toEffects
  same state before := by
    have here := first.same state before
    cases ran : act state with
    | error fault after => rw [bind_of_error ran, bind_of_error (here.symm.trans ran)]
    | ok result after =>
        have good := first.toEffects.gives state result after ran
        rw [bind_of_ok ran, bind_of_ok (here.symm.trans ran)]
        apply (rest result good).same after
        -- The first half has spared what the second one must find unchanged.
        intro slot fixed
        have spared := (first.toEffects.grows state).spared slot fixed
        rw [ran] at spared
        exact spared.trans (before slot fixed)

theorem twin_ite {c : Prop} [Decidable c] {act act' other other' : EStateM Fault σ α}
    (yes : Twin hostOf permit kept gives act act')
    (no : Twin hostOf permit kept gives other other') :
    Twin hostOf permit kept gives (if c then act else other) (if c then act' else other') := by
  split
  · exact yes
  · exact no

end Steps

section Reading
variable {adapterOf : Value → Adapter} (by_class : ByClass adapterOf) {keys : Text → Prop}
  {start : Host} {permit : Permit}

def Spared (permit : Permit) (v : Value) : Prop :=
  ∀ own, v.editSlot? = some own → ¬ permit.fills own

inductive TwinContext (keys : Text → Prop) (start : Host) (permit : Permit) :
    Value → Value → Prop
  | pushed (v : Value) : TwinContext keys start permit v v
  | frame {v w : Value} : Spared permit v → Spared permit w → AgreeOn keys start v w →
      TwinContext keys start permit v w

abbrev TwinChain (keys : Text → Prop) (start : Host) (permit : Permit) : Chain → Chain → Prop :=
  List.Forall₂ (TwinContext keys start permit)

theorem entries_kept {host : Host}
    (kept : ∀ slot, ¬ permit.fills slot → host.changes slot = start.changes slot)
    {shape : MappingShape} {address : Option Address} {entries : List (Value × Value)}
    (spared : Spared permit (.mapping shape address entries)) :
    host.entries (.mapping shape address entries) =
      start.entries (.mapping shape address entries) := by
  cases address with
  | none => rfl
  | some address =>
      have same : host.changes (address.within []) = start.changes (address.within []) :=
        kept _ (spared _ rfl)
      simp only [Host.entries, same]

theorem entry_mapping {name : Text} {host : Host} {shape : MappingShape}
    {address address' : Option Address} {entries entries' : List (Value × Value)}
    (same : Value.find? name (host.entries (.mapping shape address entries)) =
      Value.find? name (host.entries (.mapping shape address' entries'))) :
    (Value.mapping shape address entries).entry name host =
      (Value.mapping shape address' entries').entry name host := by
  have entry : host.entry (.mapping shape address entries) name =
      host.entry (.mapping shape address' entries') name := by
    simp only [Host.entry, same]
  have looked : (get : Eval Host) host = .ok host host := rfl
  unfold Value.entry
  rw [bind_of_ok looked, bind_of_ok looked, entry]

include by_class in
theorem lookup_mapping {name : Text} {host : Host} {shape : MappingShape}
    {address address' : Option Address} {entries entries' : List (Value × Value)}
    (same : Value.find? name (host.entries (.mapping shape address entries)) =
      Value.find? name (host.entries (.mapping shape address' entries'))) :
    lookupWithin adapterOf name (.mapping shape address entries) host =
      lookupWithin adapterOf name (.mapping shape address' entries') host := by
  have entry := entry_mapping same
  have class_same : (Value.mapping shape address entries).lineage =
      (Value.mapping shape address' entries').lineage := by
    cases shape <;> rfl
  rw [lookup_within_eq, lookup_within_eq, by_class _ _ class_same]
  -- Every other adapter finds the same in all mappings of a class.
  cases adapterOf (.mapping shape address' entries') with
  | mapping => exact entry
  | reference => cases shape <;> rfl
  | box | loud => cases shape <;> rfl
  | object => cases shape <;> rfl
  | _ => rfl

abbrev TwinValue (start : Host) (permit : Permit) (read read' : Eval Value) : Prop :=
  Twin (fun host : Host => host) permit start.changes (·.Permitted permit) read read'

variable {chain chain' : Chain}

include by_class in
theorem twin_lookup_frame {name : Text} (key : keys name) (named : name ≠ Path.self) {v w : Value}
    (twin : TwinContext keys start permit v w) (allowed : v.Permitted permit) :
    TwinValue start permit (lookupInFrame adapterOf name v) (lookupInFrame adapterOf name w) := by
  unfold lookupInFrame
  rw [if_neg named, if_neg named]
  have effects := effects_lookup_within adapterOf name allowed
  cases twin with
  | pushed => exact twin_self effects
  | frame first second agree =>
      -- The host may have changed since the contexts were compared, but not where they are.
      refine ⟨effects, fun host kept => ?_⟩
      cases agree with
      | mapping same =>
          apply lookup_mapping by_class
          rw [entries_kept kept first, entries_kept kept second]
          exact same name key

include by_class in
theorem twin_lookup_segment {name : Text} (key : keys name) (named : name ≠ Path.self)
    (twins : TwinChain keys start permit chain chain') (allowed : chain.Permitted permit) :
    TwinValue start permit (lookupSegment adapterOf name chain)
      (lookupSegment adapterOf name chain') := by
  induction twins with
  | nil => exact twin_self (effects_pure Value.permitted_missing)
  | cons twin _ ih =>
      obtain ⟨here, outer⟩ := List.forall_mem_cons.mp allowed
      apply twin_bind (twin_lookup_frame by_class key named twin here)
      intro found found_allowed
      exact twin_ite (ih outer) (twin_self (effects_pure found_allowed))

include by_class in
theorem twin_lookup {name : Text} (key : keys (Path.head name)) (named : name ≠ Path.self)
    (required : Bool) (twins : TwinChain keys start permit chain chain')
    (allowed : chain.Permitted permit) :
    TwinValue start permit (lookup adapterOf required chain name)
      (lookup adapterOf required chain' name) := by
  obtain ⟨later, split⟩ := Path.name_head named
  unfold lookup
  rw [split]
  apply twin_bind (twin_lookup_segment by_class key (Path.head_not_self name) twins allowed)
  intro found found_allowed
  -- The rest of the name is sought in `found` alone.
  apply twin_self
  apply effects_ite
  · exact effects_ite (effects_throw _) (effects_pure Value.permitted_missing)
  · exact effects_ite (effects_pure found_allowed)
      (effects_lookup_path adapterOf required later (List.forall_mem_singleton.mpr found_allowed))

end Reading

section Rendering
open Render

variable {settings : Settings} (by_class : ByClass settings.adapterOf) {keys : Text → Prop}
  {start : Host} {permit : Permit}

abbrev TwinRender {α : Type} (start : Host) (permit : Permit) (gives : α → Prop)
    (act act' : Render α) : Prop :=
  Twin Progress.host permit start.changes gives act act'

abbrev TwinUnit (start : Host) (permit : Permit) (act act' : Render Unit) : Prop :=
  TwinRender start permit (fun _ => True) act act'

theorem twin_on_host {read read' : Eval Value} (twin : TwinValue start permit read read') :
    TwinRender start permit (·.Permitted permit) (onHost read) (onHost read') where
  toEffects := effects_on_host twin.toEffects
  same progress kept := by
    unfold onHost
    rw [twin.same progress.host kept]

theorem twin_for {α : Type} {good : α → Prop} (items : List α) {body body' : α → Render Unit}
    (all : ∀ item ∈ items, good item)
    (each : ∀ item, good item → TwinUnit start permit (body item) (body' item)) :
    TwinUnit start permit (items.forM body) (items.forM body') := by
  induction items with
  | nil => exact twin_self (effects_pure trivial)
  | cons item rest ih =>
      obtain ⟨here, later⟩ := List.forall_mem_cons.mp all
      exact twin_bind (each item here) fun _ _ => ih later

/-- Contexts that agree, and in which nothing is filled at their own slots. -/
structure TwinContexts (keys : Text → Prop) (start : Host) (permit : Permit)
    (chain chain' : Chain) : Prop where
  twins : TwinChain keys start permit chain chain'
  allowed : chain.Permitted permit

theorem twins_push {chain chain' : Chain} (contexts : TwinContexts keys start permit chain chain')
    {v : Value} (allowed : v.Permitted permit) :
    TwinContexts keys start permit (v :: chain) (v :: chain') where
  twins := .cons (.pushed v) contexts.twins
  allowed := List.forall_mem_cons.mpr ⟨allowed, contexts.allowed⟩

variable {chain chain' : Chain}

include by_class in
theorem twin_variable {name : Text} (key : keys (Path.head name)) (named : name ≠ Path.self)
    (escape : Bool) (contexts : TwinContexts keys start permit chain chain') :
    TwinUnit start permit (variableTag settings name escape chain)
      (variableTag settings name escape chain') := by
  apply twin_bind (twin_on_host (twin_lookup by_class key named _ contexts.twins contexts.allowed))
  intro found found_allowed
  apply twin_self
  apply effects_ite (effects_pure trivial)
  apply effects_bind (effects_on_host (effects_strip _ found_allowed))
  intro v _
  exact effects_ite (effects_pure trivial) (effects_get fun _ => effects_write _)

include by_class in
theorem twin_section {name : Text} (key : keys (Path.head name)) (named : name ≠ Path.self)
    (inverted : Bool) {body : Chain → Render Unit}
    (inside : ∀ {inner inner'}, TwinContexts keys start permit inner inner' →
      TwinUnit start permit (body inner) (body inner'))
    (contexts : TwinContexts keys start permit chain chain') :
    TwinUnit start permit (sectionTag settings name inverted body chain)
      (sectionTag settings name inverted body chain') := by
  apply twin_bind (twin_on_host (twin_lookup by_class key named _ contexts.twins contexts.allowed))
  intro found found_allowed
  apply twin_bind (twin_self (effects_on_host (effects_is_empty _ found_allowed)))
  intro empty _
  apply twin_ite (twin_self (effects_pure trivial))
  apply twin_ite (inside contexts)
  apply twin_bind (twin_self (effects_on_host (effects_strip _ found_allowed)))
  intro target target_allowed
  apply twin_bind (twin_self (effects_on_host (effects_kind _ target_allowed)))
  rintro (_ | _ | _) _
  · exact inside contexts
  · apply twin_bind (twin_self (effects_on_host (effects_iterate _ target_allowed)))
    intro items items_allowed
    exact twin_for items items_allowed fun item allowed => inside (twins_push contexts allowed)
  · exact inside (twins_push contexts target_allowed)

end Rendering

section Template
open Render

variable {template : Template} {settings : Settings} {expand : Expand} {start : Host}
  {permit : Permit}

/-- No tag is a partial, and none is named after the context itself. -/
structure Template.Closed (template : Template) : Prop where
  no_partial : ∀ name indent linked, ¬ template.HasTag (.partialTag name indent linked)
  named : ∀ tag, template.HasTag tag → tag.tagName? ≠ some Path.self

mutual
theorem twin_node (by_class : ByClass settings.adapterOf) (closed : template.Closed) (first : Node)
    (known : first.isTag = true → template.HasTag first) {chain chain' : Chain}
    (contexts : TwinContexts template.Names start permit chain chain') :
    TwinUnit start permit (node settings expand first chain)
      (node settings expand first chain') := by
  match first with
  | .text content => exact twin_self (effects_write content)
  | .variableTag name escape =>
      have here := known rfl
      have named : name ≠ Path.self := fun same => closed.named _ here (congrArg some same)
      exact twin_variable by_class ⟨_, name, here, rfl, rfl⟩ named escape contexts
  | .sectionTag name inverted line children =>
      have here := known rfl
      have named : name ≠ Path.self := fun same => closed.named _ here (congrArg some same)
      apply twin_section by_class ⟨_, name, here, rfl, rfl⟩ named inverted _ contexts
      intro inner inner' contexts
      exact twin_nodes by_class closed children (fun tag member => .inner here rfl member) contexts
  | .partialTag name indent linked =>
      exact absurd (known rfl) (closed.no_partial name indent linked)
  | .unknownTag _ | .unknown => exact twin_self (effects_throw _)

theorem twin_nodes (by_class : ByClass settings.adapterOf) (closed : template.Closed)
    (siblings : List Node) (known : ∀ tag ∈ Node.tagsOf siblings, template.HasTag tag)
    {chain chain' : Chain} (contexts : TwinContexts template.Names start permit chain chain') :
    TwinUnit start permit (nodes settings expand siblings chain)
      (nodes settings expand siblings chain') := by
  match siblings with
  | [] => exact twin_self (effects_pure trivial)
  | first :: rest =>
      have here := twin_node by_class closed first
        (fun tag => known first (List.mem_filter.mpr ⟨List.mem_cons_self, tag⟩)) contexts
      apply twin_bind here
      intro _ _
      refine twin_nodes by_class closed rest (fun tag member => ?_) contexts
      obtain ⟨inside, is_tag⟩ := List.mem_filter.mp member
      exact known tag (List.mem_filter.mpr ⟨List.mem_cons_of_mem _ inside, is_tag⟩)
end

theorem twins_of_agree {keys : Text → Prop} {chain chain' : Chain}
    (agree : List.Forall₂ (AgreeOn keys start) chain chain')
    (first : ∀ v ∈ chain, Spared permit v) (second : ∀ w ∈ chain', Spared permit w) :
    TwinChain keys start permit chain chain' := by
  induction agree with
  | nil => exact .nil
  | cons here _ ih =>
      obtain ⟨v_spared, first⟩ := List.forall_mem_cons.mp first
      obtain ⟨w_spared, second⟩ := List.forall_mem_cons.mp second
      exact .cons (.frame v_spared w_spared here) (ih first second)

theorem spared_context {chain : Chain} {v : Value} (member : v ∈ chain) :
    Spared (.sparing chain.slots) v :=
  fun _ named absent => absent (List.mem_filterMap.mpr ⟨v, member, named⟩)

end Template

/-- A template renders the same in contexts that agree on the first segments of all names its
tags show, whatever else is in them, in both modes and with any provider. The contexts are plain
mappings of their own: no mapping in them that makes up entries has the slot of one of them. -/
theorem tags_cover_what_is_read (template : Template) (registry : Registry) (depth : Nat)
    (contexts contexts' : Chain) (start : Progress) (closed : template.Closed)
    (agree : List.Forall₂ (AgreeOn template.Names start.host) contexts contexts')
    (apart : contexts.Permitted (.sparing (contexts ++ contexts').slots)) :
    template.renderTo registry depth contexts start =
        template.renderTo registry depth contexts' start ∧
      template.render registry depth contexts start =
        template.render registry depth contexts' start := by
  have twins := twins_of_agree agree (fun v member => spared_context (List.mem_append_left _ member))
    (fun w member => spared_context (List.mem_append_right contexts member))
  have same (state : Progress) (here : state.host = start.host) :
      template.renderTo registry depth contexts state =
        template.renderTo registry depth contexts' state := by
    have rendered : TwinUnit start.host (.sparing (contexts ++ contexts').slots)
        (template.renderTo registry depth contexts) (template.renderTo registry depth contexts') :=
      twin_nodes (by_class_of_registry registry) closed template.nodes
        (fun tag member => .outer member) ⟨twins, apart⟩
    apply rendered.same
    intro slot _
    rw [here]
  constructor
  · exact same start rfl
  · have fresh := same { start with sink := .open none } rfl
    unfold Template.render Render.toText
    rw [fresh]

def namedPage : Template :=
  ⟨[.sectionTag ['u'] false 1 [.variableTag ['n', '.', 'm'] true], .variableTag ['v'] true],
    .standard, .empty, .standard⟩

def namedData (other : Value) : Chain :=
  [.mapping .dict (some (.fixed [0]))
      [(.str ['o'], other),
        (.str ['u'], .mapping .dict none
          [(.str ['n'], .mapping .dict none [(.str ['m'], .str ['x'])])])],
    .mapping .dict (some (.fixed [1, 0])) [(.str ['v'], .str ['y']), (.str ['w'], other)]]

theorem named_page_tags {tag : Node} (known : namedPage.HasTag tag) :
    tag ∈ [.sectionTag ['u'] false 1 [.variableTag ['n', '.', 'm'] true],
      .variableTag ['n', '.', 'm'] true, .variableTag ['v'] true] := by
  induction known with
  | @outer tag member =>
      have listed : namedPage.tags = [.sectionTag ['u'] false 1 [.variableTag ['n', '.', 'm'] true],
          .variableTag ['v'] true] := rfl
      rw [listed] at member
      rcases List.mem_pair.mp member with rfl | rfl
      · exact List.mem_cons_self
      · simp
  | @inner outer tag tags _ shown member ih =>
      rcases List.mem_cons.mp ih with rfl | variable_tag
      · cases shown
        rw [List.mem_singleton.mp (show tag ∈ [.variableTag ['n', '.', 'm'] true] from member)]
        simp
      · rcases List.mem_pair.mp variable_tag with rfl | rfl <;> cases shown

theorem named_page_closed : namedPage.Closed where
  no_partial name indent linked known := by simpa using named_page_tags known
  named tag known := by
    have listed := named_page_tags known
    simp only [List.mem_cons, List.not_mem_nil, or_false] at listed
    rcases listed with rfl | rfl | rfl <;> simp [Node.tagName?, Path.self]

theorem named_data_agree (other other' : Value) :
    List.Forall₂ (AgreeOn namedPage.Names .initial) (namedData other) (namedData other') := by
  have keys : ∀ key, namedPage.Names key → key = ['u'] ∨ key = ['n'] ∨ key = ['v'] := by
    rintro key ⟨tag, name, known, named, rfl⟩
    have listed := named_page_tags known
    simp only [List.mem_cons, List.not_mem_nil, or_false] at listed
    rcases listed with rfl | rfl | rfl <;> cases named <;> simp [Path.head]
  refine .cons (.mapping fun key named => ?_) (.cons (.mapping fun key named => ?_) .nil)
  · rcases keys key named with rfl | rfl | rfl <;> rfl
  · rcases keys key named with rfl | rfl | rfl <;> rfl

theorem named_data_permitted {permit : Permit} {other : Value}
    (allowed : other.Permitted permit) : (namedData other).Permitted permit := by
  have entry (name : Text) {v : Value} (allowed : v.Permitted permit) :
      (Value.str name).Permitted permit ∧ v.Permitted permit := ⟨Value.permitted_str name, allowed⟩
  have single (name : Text) {v : Value} (allowed : v.Permitted permit) :
      (Value.mapping .dict none [(.str name, v)]).Permitted permit :=
    Value.permitted_mapping (List.forall_mem_singleton.mpr (entry name allowed))
  have nested := single ['n'] (single ['m'] (Value.permitted_str ['x']))
  unfold Chain.Permitted namedData
  rw [List.forall_mem_cons, List.forall_mem_singleton]
  constructor
  · apply Value.permitted_mapping
    exact List.forall_mem_cons.mpr
      ⟨entry _ allowed, List.forall_mem_singleton.mpr (entry _ nested)⟩
  · apply Value.permitted_mapping
    exact List.forall_mem_cons.mpr
      ⟨entry _ (Value.permitted_str _), List.forall_mem_singleton.mpr (entry _ allowed)⟩

/-- A mapping that makes up entries, and a number, where no tag looks. -/
theorem named_page_reads :
    namedPage.render .standard 0 (namedData (.filling (.fixed [1]) [] .null))
        ⟨.initial, .open none, []⟩ =
      namedPage.render .standard 0 (namedData (.int 1)) ⟨.initial, .open none, []⟩ ∧
    namedPage.render .standard 0 (namedData (.int 1)) ⟨.initial, .open none, []⟩ =
      .ok ['x', 'y'] ⟨.initial, .open none, []⟩ := by
  have slots : (namedData (.filling (.fixed [1]) [] .null) ++ namedData (.int 1)).slots =
      [[0], [1, 0], [0], [1, 0]] := by rfl
  have apart : (namedData (.filling (.fixed [1]) [] .null)).Permitted
      (.sparing (namedData (.filling (.fixed [1]) [] .null) ++ namedData (.int 1)).slots) := by
    apply named_data_permitted
    rw [slots]
    constructor
    · rintro slot fill ⟨⟩
      show [1] ∉ [[0], [1, 0], [0], [1, 0]]
      decide
    · rintro slot fill index ⟨⟩
      exact Value.permitted_leaf rfl rfl rfl
    · exact fun _ _ => trivial
    · exact List.forall_mem_nil _
  constructor
  · exact (tags_cover_what_is_read namedPage .standard 0 _ _ ⟨.initial, .open none, []⟩
      named_page_closed (named_data_agree _ _) apart).2
  · cbv

end Mustache
