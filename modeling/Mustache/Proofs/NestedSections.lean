import Mustache.Proofs.DottedPaths
import Mustache.Proofs.RecordSections

/-!
Dotted paths and nested sections. A path goes from record to record, each of which is asked alone;
nested sections pile the records up on the chain. Since each segment is found in the innermost
record, no context around it ever answers, and both come to the same variable.
-/

namespace Mustache

/-- The variable for the last segment of a path, inside sections for the segments before it. -/
inductive Nested (escape : Bool) : Path → Node → Prop
  | last (segment : Text) : Nested escape [segment] (.variableTag segment escape)
  | inside (segment : Text) (line : Int) {rest : Path} {inner : Node} :
      Nested escape rest inner →
      Nested escape (segment :: rest) (.sectionTag segment false line [inner])

/-- A path leads from a chain to `v`: its first segment names something in the chain, and each
later one in what the one before names alone. What is passed are records that are not empty, with
any number of silent layers around them. -/
inductive LeadsThrough (adapterOf : Value → Adapter) :
    Chain → Host → Path → Value → Host → Prop
  | last {chain : Chain} {host after : Host} {segment : Text} {v : Value} :
      Path.Proper segment → lookup adapterOf false chain segment host = .ok v after →
      v.isMissing = false → LeadsThrough adapterOf chain host [segment] v after
  | through {chain : Chain} {host between after : Host} {segment : Text} {rest : Path}
      {record target v : Value} :
      Path.Proper segment → lookup adapterOf false chain segment host = .ok record between →
      Within adapterOf target record → strip adapterOf target = pure target →
      Filled adapterOf .record target between →
      LeadsThrough adapterOf [record] between rest v after →
      LeadsThrough adapterOf chain host (segment :: rest) v after

section Lookup
variable {adapterOf : Value → Adapter} {chain : Chain} {host after : Host} {segment : Text}
  {path : Path} {v : Value}

theorem of_name_proper (proper : Path.Proper segment) : Path.ofName segment = [segment] :=
  Path.segments_single true proper.2

theorem proper_not_self (proper : Path.Proper segment) : segment ≠ Path.self := by
  rintro rfl
  exact proper.2 List.mem_cons_self

theorem lookup_of_segment (proper : Path.Proper segment)
    (found : lookupSegment adapterOf segment chain host = .ok v after)
    (present : v.isMissing = false) (required : Bool) :
    lookup adapterOf required chain segment host = .ok v after := by
  rw [lookup, of_name_proper proper, lookupPath, bind_of_ok found, present]
  rfl

theorem segment_of_lookup (proper : Path.Proper segment)
    (looked : lookup adapterOf false chain segment host = .ok v after)
    (present : v.isMissing = false) :
    lookupSegment adapterOf segment chain host = .ok v after := by
  rw [lookup, of_name_proper proper, lookupPath] at looked
  cases ran : lookupSegment adapterOf segment chain host with
  | error fault failed =>
      rw [bind_of_error ran] at looked
      cases looked
  | ok found between =>
      rw [bind_of_ok ran] at looked
      cases missing : found.isMissing with
      | true =>
          rw [missing] at looked
          cases looked
          cases present
      | false =>
          rw [missing] at looked
          cases looked
          rfl

/-- A context outside is never asked for a segment that is found. -/
theorem lookup_further_out (proper : Path.Proper segment)
    (looked : lookup adapterOf false chain segment host = .ok v after)
    (present : v.isMissing = false) (required : Bool) (outer : Chain) :
    lookup adapterOf required (chain ++ outer) segment host = .ok v after := by
  refine lookup_of_segment proper ?_ present required
  rw [lookup_segment_append, bind_of_ok (segment_of_lookup proper looked present), present]
  rfl

theorem leads_proper (leads : LeadsThrough adapterOf chain host path v after) :
    path ≠ [] ∧ ∀ segment ∈ path, Path.Proper segment := by
  induction leads with
  | last proper _ _ => exact ⟨List.cons_ne_nil _ _, List.forall_mem_singleton.mpr proper⟩
  | through proper _ _ _ _ _ ih =>
      exact ⟨List.cons_ne_nil _ _, List.forall_mem_cons.mpr ⟨proper, ih.2⟩⟩

theorem record_present {target record : Value} (within : Within adapterOf target record)
    (filled : Filled adapterOf .record target host) : record.isMissing = false := by
  rw [(around_of_within within filled.present).2]
  exact missing_of_present filled.present

theorem lookup_of_leads (leads : LeadsThrough adapterOf chain host path v after)
    (required : Bool) : lookupPath adapterOf required path chain host = .ok v after := by
  induction leads with
  | last proper looked present =>
      rw [lookupPath, bind_of_ok (segment_of_lookup proper looked present), present]
      rfl
  | through proper looked within _ filled leads ih =>
      have present := record_present within filled
      have found := segment_of_lookup proper looked present
      rw [lookup_path_found adapterOf required _ found present (leads_proper leads).1]
      exact ih

end Lookup

section Rendering
open Render
variable {settings : Settings} {expand : Expand} {escape : Bool} {path : Path} {tree : Node}
  {chain chain' : Chain} {host after : Host} {v : Value}

def showFound (settings : Settings) (escape : Bool) (found : Value) : Render Unit := do
  if found.isMissing then return
  let v ← onHost (strip settings.adapterOf found)
  if v.isNull then return
  let text := v.shown (← get).host
  write (if escape then text.escapeHtml else text)

theorem variable_of_lookup {name : Text} {start : Progress}
    (looked : lookup settings.adapterOf settings.strict chain name start.host = .ok v after) :
    variableTag settings name escape chain start =
      showFound settings escape v { start with host := after } :=
  bind_of_ok (on_host_of_ok looked) _

/-- By induction on the path. The chain may have grown since the path began, as long as what is
found in it is found in the grown chain. -/
theorem nested_of_leads (leads : LeadsThrough settings.adapterOf chain host path v after)
    (nested : Nested escape path tree)
    (sees : ∀ segment found between, Path.Proper segment →
      lookup settings.adapterOf false chain segment host = .ok found between →
      found.isMissing = false → ∀ required,
        lookup settings.adapterOf required chain' segment host = .ok found between)
    (start : Progress) (here : start.host = host) :
    node settings expand tree chain' start =
      showFound settings escape v { start with host := after } := by
  induction leads generalizing chain' tree start with
  | last proper looked present =>
      subst here
      cases nested with
      | last segment =>
          exact variable_of_lookup (sees _ _ _ proper looked present settings.strict)
      | inside _ _ deeper => cases deeper
  | @through chain host between after segment rest record target v proper looked within stripped
      filled leads ih =>
      subst here
      cases nested with
      | last => exact absurd rfl (leads_proper leads).1
      | inside _ line deeper =>
          have present := record_present within filled
          have named := sees _ _ _ proper looked present false
          have bare : strip settings.adapterOf record = pure target :=
            (strip_within within).trans stripped
          rw [section_of_chains (chains_of_choice named bare (.record filled)), for_single,
            nodes_single]
          refine ih deeper ?_ { start with host := between } rfl
          -- The record is asked before all contexts around it, and it answers.
          intro segment found later proper looked present required
          rw [← lookup_past_layers within (proper_not_self proper)]
          exact lookup_further_out proper looked present required chain'

/-- A variable with a dotted name and the variable for its last segment, inside sections for the
segments before it, are rendered alike: the path that is looked up at once is the path that the
sections go, in every mode, whatever contexts are around. -/
theorem dotted_path_is_nested_sections (settings : Settings) (expand : Expand) {escape : Bool}
    {path : Path} {tree : Node} (nested : Nested escape path tree) {chain : Chain} {v : Value}
    {start : Progress} {after : Host}
    (leads : LeadsThrough settings.adapterOf chain start.host path v after) :
    node settings expand tree chain start =
      node settings expand (.variableTag (Path.dotted path) escape) chain start := by
  -- At first the chain has not grown at all.
  have sees (segment : Text) (found : Value) (between : Host) (proper : Path.Proper segment)
      (looked : lookup settings.adapterOf false chain segment start.host = .ok found between)
      (present : found.isMissing = false) (required : Bool) :
      lookup settings.adapterOf required chain segment start.host = .ok found between :=
    lookup_of_segment proper (segment_of_lookup proper looked present) present required
  have looked : lookup settings.adapterOf settings.strict chain (Path.dotted path) start.host =
      .ok v after := by
    obtain ⟨some, proper⟩ := leads_proper leads
    rw [lookup, Path.of_name_dotted some proper]
    exact lookup_of_leads leads settings.strict
  exact (nested_of_leads leads nested sees start rfl).trans (variable_of_lookup looked).symm

end Rendering

def innerRecord : Value := .mapping .dict none [(.str ['c'], .str "<".toList)]

def middleRecord : Value := .mapping .dict none [(.str ['b'], innerRecord)]

def recordChain : Chain :=
  [.mapping .dict none [(.str ['a'], .wrapped .box [] middleRecord)],
    .mapping .dict none [(.str ['b'], .str "outer".toList), (.str ['c'], .str "outer".toList)]]

def recordSettings : Settings := ⟨Registry.standard.adapterOf, true, .standard, .empty⟩

theorem three_segments_nest :
    let expand := Render.expandPartial recordSettings 0
    let start : Progress := ⟨.initial, .open none, []⟩
    Render.node recordSettings expand
        (.sectionTag ['a'] false 1 [.sectionTag ['b'] false 1 [.variableTag ['c'] true]])
        recordChain start =
      Render.node recordSettings expand (.variableTag "a.b.c".toList true) recordChain start := by
  intro expand start
  have layer : LayerOver recordSettings.adapterOf (.wrapped .box [] middleRecord) middleRecord :=
    ⟨rfl, fun _ => rfl⟩
  have leads : LeadsThrough recordSettings.adapterOf recordChain start.host
      [['a'], ['b'], ['c']] (.str "<".toList) .initial := by
    refine .through ⟨by decide, by decide⟩ (by cbv) (.layer layer .itself) (strip_closed rfl rfl)
      ⟨rfl, rfl, rfl⟩ ?_
    refine .through ⟨by decide, by decide⟩ (by cbv) .itself (strip_closed rfl rfl)
      ⟨rfl, rfl, rfl⟩ ?_
    exact .last ⟨by decide, by decide⟩ (by cbv) rfl
  exact dotted_path_is_nested_sections recordSettings expand
    (.inside ['a'] 1 (.inside ['b'] 1 (.last ['c']))) leads

end Mustache
