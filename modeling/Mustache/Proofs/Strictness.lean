import Mathlib
import Mustache.Proofs.Visits

/-!
Strict and lenient rendering. Up to the first variable that is not found the two do the
same. There the lenient one writes nothing and goes on, and the strict one stops.
-/

namespace Mustache

theorem bind_same {ε σ α β : Type} {act act' : EStateM ε σ α} {start : σ}
    (same : act start = act' start) (next : α → EStateM ε σ β) :
    (act >>= next) start = (act' >>= next) start := by
  show EStateM.bind act next start = EStateM.bind act' next start
  rw [EStateM.bind, EStateM.bind, same]

section Missing
variable (adapterOf : Value → Adapter)

def LeadsTo (found : Path) (chain : Chain) (host : Host) (scope : Chain) (after : Host) : Prop :=
  (found = [] ∧ scope = chain ∧ after = host) ∨
    ∃ v, lookupPath adapterOf false found chain host = .ok v after ∧ v.isMissing = false ∧ scope = [v]

/-- `segment` is the first segment of a path that is not found. -/
def FirstMissing (path : Path) (chain : Chain) (host : Host) (segment : Text) : Prop :=
  ∃ found later scope reached after, path = found ++ segment :: later ∧
    LeadsTo adapterOf found chain host scope reached ∧
    lookupSegment adapterOf segment scope reached = .ok .missing after

/-- The name of a variable leads to nothing, after which the host's data is `after`. -/
def Visit.Misses (visit : Visit) (after : Host) : Prop :=
  lookup adapterOf false visit.chain visit.name visit.start.host = .ok .missing after

def Visit.Found (visit : Visit) : Prop := ∀ after, ¬ visit.Misses adapterOf after

theorem is_missing (v : Value) (missing : v.isMissing = true) : v = .missing := by
  cases v with
  | missing => rfl
  | _ => cases missing

theorem found_not_missing {v : Value} (found : v ≠ .missing) : v.isMissing = false := by
  cases here : v.isMissing with
  | false => rfl
  | true => exact absurd (is_missing v here) found

theorem lookup_path_found {segment : Text} {chain : Chain} {host after : Host} {v : Value}
    (required : Bool) (rest : Path) (found : lookupSegment adapterOf segment chain host = .ok v after)
    (present : v.isMissing = false) (nonempty : rest ≠ []) :
    lookupPath adapterOf required (segment :: rest) chain host =
      lookupPath adapterOf required rest [v] after := by
  rw [lookupPath, bind_of_ok found]
  simp [present, nonempty]

theorem lookup_path_missing {segment : Text} {chain : Chain} {host after : Host}
    (rest : Path) (found : lookupSegment adapterOf segment chain host = .ok .missing after) :
    lookupPath adapterOf false (segment :: rest) chain host = .ok .missing after ∧
      lookupPath adapterOf true (segment :: rest) chain host =
        .error (.missingVariable segment) after := by
  constructor
  · rw [lookupPath, bind_of_ok found]
    rfl
  · rw [lookupPath, bind_of_ok found]
    rfl

theorem first_missing_later {segment : Text} {rest : Path} {chain : Chain} {host after : Host}
    {v : Value} {missed : Text} (found : lookupSegment adapterOf segment chain host = .ok v after)
    (present : v.isMissing = false) (inner : FirstMissing adapterOf rest [v] after missed) :
    FirstMissing adapterOf (segment :: rest) chain host missed := by
  obtain ⟨before, later, scope, reached, ended, split, leads, missing⟩ := inner
  refine ⟨segment :: before, later, scope, reached, ended, by rw [split]; rfl, ?_, missing⟩
  right
  rcases leads with ⟨rfl, rfl, rfl⟩ | ⟨w, followed, here, rfl⟩
  · refine ⟨v, ?_, present, rfl⟩
    rw [lookupPath, bind_of_ok found]
    simp [present]
    rfl
  · refine ⟨w, ?_, here, rfl⟩
    cases before with
    | nil =>
        cases followed
        cases here
    | cons next before =>
        rw [lookup_path_found adapterOf false _ found present (by simp)]
        exact followed

/-- A required path fails at its first missing segment, and is any other path if it has none. -/
theorem lookup_path_required (path : Path) (chain : Chain) (host : Host) (nonempty : path ≠ []) :
    (∀ after, lookupPath adapterOf false path chain host = .ok .missing after →
      ∃ segment, FirstMissing adapterOf path chain host segment ∧
        lookupPath adapterOf true path chain host = .error (.missingVariable segment) after) ∧
    ((∀ after, lookupPath adapterOf false path chain host ≠ .ok .missing after) →
      lookupPath adapterOf true path chain host = lookupPath adapterOf false path chain host) := by
  induction path generalizing chain host with
  | nil => exact absurd rfl nonempty
  | cons segment rest ih =>
      cases found : lookupSegment adapterOf segment chain host with
      | error fault stopped =>
          have same (required : Bool) :
              lookupPath adapterOf required (segment :: rest) chain host = .error fault stopped := by
            rw [lookupPath, bind_of_error found]
          rw [same, same]
          constructor
          · intro after failed
            cases failed
          · intro _
            rfl
      | ok v reached =>
          by_cases missing : v = .missing
          · subst missing
            obtain ⟨lenient, strict⟩ := lookup_path_missing adapterOf rest found
            rw [lenient, strict]
            constructor
            · intro after same
              cases same
              exact ⟨segment, ⟨[], rest, chain, host, reached, rfl, Or.inl ⟨rfl, rfl, rfl⟩, found⟩, rfl⟩
            · intro present
              exact absurd rfl (present reached)
          · have present := found_not_missing missing
            by_cases last : rest = []
            · subst last
              have same (required : Bool) :
                  lookupPath adapterOf required [segment] chain host = .ok v reached := by
                rw [lookupPath, bind_of_ok found]
                simp [present]
                rfl
              rw [same, same]
              constructor
              · intro after none
                cases none
                cases present
              · intro _
                rfl
            · rw [lookup_path_found adapterOf true rest found present last,
                lookup_path_found adapterOf false rest found present last]
              obtain ⟨stops, goes⟩ := ih [v] reached last
              refine ⟨fun after none => ?_, goes⟩
              obtain ⟨missed, first, failed⟩ := stops after none
              exact ⟨missed, first_missing_later adapterOf found present first, failed⟩

end Missing

/-- A variable is looked up by the segments of its name. -/
def Visit.FirstMissing (adapterOf : Value → Adapter) (visit : Visit) (segment : Text) : Prop :=
  Mustache.FirstMissing adapterOf (Path.ofName visit.name) visit.chain visit.start.host segment

/-- `strict` does what `lenient` does, until a variable of the lenient rendering is not found. -/
structure Refines {α : Type} (adapterOf : Value → Adapter) (visits : Visits)
    (lenient strict : Render α) : Prop where
  goes : ∀ start, (∀ visit ∈ visits start, visit.Found adapterOf) → strict start = lenient start
  stops : ∀ start earlier visit later after, visits start = earlier ++ visit :: later →
    (∀ visit ∈ earlier, visit.Found adapterOf) → visit.Misses adapterOf after →
    ∃ segment, visit.FirstMissing adapterOf segment ∧
      strict start = .error (.missingVariable segment) { visit.start with host := after }

section Steps
variable {adapterOf : Value → Adapter} {α β : Type}

theorem refines_same (act : Render α) : Refines adapterOf (fun _ => []) act act where
  goes _ _ := rfl
  stops _ earlier visit later _ split := by simp at split

theorem refines_bind {visits : Visits} {lenient strict : Render α} {next next' : α → Render β}
    {visits' : α → Visits} (first : Refines adapterOf visits lenient strict)
    (rest : ∀ result, Refines adapterOf (visits' result) (next result) (next' result)) :
    Refines adapterOf (fun start => visits start ++ Visits.after lenient visits' start)
      (lenient >>= next) (strict >>= next') where
  goes start found := by
    have same := first.goes start fun visit member => found visit (List.mem_append_left _ member)
    cases ran : lenient start with
    | error fault after => rw [bind_of_error ran, bind_of_error (same.trans ran)]
    | ok result after =>
        rw [bind_of_ok ran, bind_of_ok (same.trans ran)]
        apply (rest result).goes after
        intro visit member
        apply found visit
        apply List.mem_append_right
        rw [Visits.after, ran]
        exact member
  stops start earlier visit later after split found missing := by
    rcases List.append_eq_append_iff.mp split with ⟨between, rfl, tail⟩ | ⟨between, whole, tail⟩
    · -- The variable is one of `next`.
      have same := first.goes start fun visit member => found visit (List.mem_append_left _ member)
      cases ran : lenient start with
      | error fault stopped =>
          rw [Visits.after, ran] at tail
          simp at tail
      | ok result reached =>
          rw [Visits.after, ran] at tail
          rw [bind_of_ok (same.trans ran)]
          exact (rest result).stops reached between visit later after tail
            (fun visit member => found visit (List.mem_append_right _ member)) missing
    · cases between with
      | nil =>
          -- `next` begins with the variable.
          rw [List.append_nil] at whole
          have same := first.goes start fun visit member => found visit (whole ▸ member)
          cases ran : lenient start with
          | error fault stopped =>
              rw [Visits.after, ran] at tail
              simp at tail
          | ok result reached =>
              rw [Visits.after, ran] at tail
              rw [bind_of_ok (same.trans ran)]
              exact (rest result).stops reached [] visit later after tail.symm (by simp) missing
      | cons here between =>
          cases tail
          obtain ⟨segment, named, failed⟩ := first.stops start earlier visit between after whole
            found missing
          exact ⟨segment, named, bind_of_error failed _⟩

theorem refines_each {body body' : Chain → Render Unit} {inside : Chain → Visits}
    (each : ∀ chain, Refines adapterOf (inside chain) (body chain) (body' chain))
    (chains : List Chain) :
    Refines adapterOf (Visits.each body inside chains) (chains.forM body) (chains.forM body') := by
  induction chains with
  | nil => exact refines_same _
  | cons chain rest ih => exact refines_bind (each chain) fun _ => ih

end Steps

section Nodes
variable (settings : Settings)
open Render

def Settings.lenient : Settings := { settings with strict := false }
def Settings.requiring : Settings := { settings with strict := true }

theorem refines_variable (name : Text) (escape : Bool) (chain : Chain) :
    Refines settings.adapterOf (fun start => [⟨name, chain, start⟩])
      (variableTag settings.lenient name escape chain)
      (variableTag settings.requiring name escape chain) where
  goes start found := by
    have found_here := found _ List.mem_cons_self
    have same := (lookup_path_required settings.adapterOf (Path.ofName name) chain start.host
      (Path.segments_from_ne_nil true name)).2 found_here
    have read : onHost (lookup settings.adapterOf true chain name) start =
        onHost (lookup settings.adapterOf false chain name) start := by
      unfold onHost lookup
      rw [same]
    exact bind_same read _
  stops start earlier visit later after split found missing := by
    cases earlier with
    | cons first earlier => simp at split
    | nil =>
        cases split
        obtain ⟨segment, named, failed⟩ := (lookup_path_required settings.adapterOf
          (Path.ofName name) chain start.host (Path.segments_from_ne_nil true name)).1 after missing
        have read : onHost (lookup settings.adapterOf true chain name) start =
            .error (.missingVariable segment) { start with host := after } := by
          unfold onHost lookup
          rw [failed]
        exact ⟨segment, named, bind_of_error read _⟩

def RefinesExpand (adapterOf : Value → Adapter) (inside : Text → Text → Bool → Chain → Visits)
    (lenient strict : Expand) : Prop :=
  ∀ name indent linked chain, Refines adapterOf (inside name indent linked chain)
    (lenient name indent linked chain) (strict name indent linked chain)

variable {inside : Text → Text → Bool → Chain → Visits} {lenient strict : Expand}

mutual
theorem refines_node (expand : RefinesExpand settings.adapterOf inside lenient strict)
    (first : Node) (chain : Chain) :
    Refines settings.adapterOf (visits settings.lenient lenient inside first chain)
      (node settings.lenient lenient first chain) (node settings.requiring strict first chain) := by
  match first with
  | .text content => exact refines_same _
  | .variableTag name escape => exact refines_variable settings name escape chain
  | .sectionTag name inverted _ children =>
      have inner := refines_nodes expand children
      have chains : Refines settings.adapterOf _ _ _ :=
        refines_same (sectionChains settings.lenient name inverted chain)
      rw [node, node, section_eq, section_eq]
      exact refines_bind chains fun chains => refines_each inner chains
  | .partialTag name indent linked => exact expand name indent linked chain
  | .unknownTag _ | .unknown => exact refines_same _

theorem refines_nodes (expand : RefinesExpand settings.adapterOf inside lenient strict)
    (siblings : List Node) (chain : Chain) :
    Refines settings.adapterOf (visitsAll settings.lenient lenient inside siblings chain)
      (nodes settings.lenient lenient siblings chain)
      (nodes settings.requiring strict siblings chain) := by
  match siblings with
  | [] => exact refines_same _
  | first :: rest =>
      exact refines_bind (refines_node expand first chain) fun _ => refines_nodes expand rest chain
end

theorem refines_expand (depth : Nat) :
    RefinesExpand settings.adapterOf (partialVisits settings.lenient depth)
      (expandPartial settings.lenient depth) (expandPartial settings.requiring depth) := by
  induction depth with
  | zero =>
      intro name indent linked chain
      exact refines_same _
  | succ depth ih =>
      intro name indent linked chain
      have opened : Refines settings.adapterOf _ _ _ :=
        refines_same (partialNodes settings.lenient name indent linked)
      rw [expand_eq, expand_eq]
      exact refines_bind opened fun inner => refines_nodes settings ih inner chain

/-- A section whose name is not found is no error: the inverted one is rendered in the
chain as it stands, and the other one is left out. -/
theorem section_missing (name : Text) (inverted : Bool) (body : Chain → Render Unit)
    (chain : Chain) (start : Progress) (after : Host)
    (missing : lookup settings.adapterOf false chain name start.host = .ok .missing after) :
    sectionTag settings name inverted body chain start =
      if inverted then body chain { start with host := after }
      else .ok () { start with host := after } := by
  have read : onHost (lookup settings.adapterOf false chain name) start =
      .ok .missing { start with host := after } := by
    unfold onHost
    rw [missing]
  have empty : isEmpty settings.adapterOf .missing = pure true := by
    rw [isEmpty, strip]
    rfl
  unfold sectionTag
  rw [bind_of_ok read, empty]
  cases inverted with
  | true => rfl
  | false => rfl

end Nodes

theorem all_found_or_first (adapterOf : Value → Adapter) (visits : List Visit) :
    (∀ visit ∈ visits, visit.Found adapterOf) ∨
      ∃ earlier visit later after, visits = earlier ++ visit :: later ∧
        (∀ visit ∈ earlier, visit.Found adapterOf) ∧ visit.Misses adapterOf after := by
  induction visits with
  | nil => exact Or.inl (by simp)
  | cons first rest ih =>
      by_cases found : first.Found adapterOf
      · rcases ih with all | ⟨earlier, visit, later, after, rfl, before, missing⟩
        · exact Or.inl (List.forall_mem_cons.mpr ⟨found, all⟩)
        · right
          exact ⟨first :: earlier, visit, later, after, rfl,
            List.forall_mem_cons.mpr ⟨found, before⟩, missing⟩
      · obtain ⟨after, missing⟩ := Classical.not_forall_not.mp found
        exact Or.inr ⟨[], first, rest, after, rfl, by simp, missing⟩

theorem refines_render (template : Template) (registry : Registry) (depth : Nat)
    (contexts : Chain) :
    Refines registry.adapterOf
      ((template.withErrorOnMissing false).visits registry depth contexts)
      ((template.withErrorOnMissing false).renderTo registry depth contexts)
      ((template.withErrorOnMissing true).renderTo registry depth contexts) := by
  exact refines_nodes (template.settings registry) (refines_expand (template.settings registry) depth)
    template.nodes contexts

theorem text_of_refines {adapterOf : Value → Adapter} {visits : Visits}
    {lenient strict : Render Unit} (refines : Refines adapterOf visits lenient strict)
    {start after : Progress} {text : Text} (rendered : Render.toText strict start = .ok text after) :
    Render.toText lenient start = .ok text after := by
  unfold Render.toText at rendered ⊢
  rcases all_found_or_first adapterOf (visits { start with sink := .open none }) with
    found | ⟨earlier, visit, later, reached, split, found, missing⟩
  · rw [refines.goes _ found] at rendered
    exact rendered
  · obtain ⟨segment, -, failed⟩ := refines.stops _ earlier visit later reached split found missing
    rw [failed] at rendered
    cases rendered

/-- Strict rendering refines lenient rendering. If every variable that the lenient one
evaluates is found, the strict one is the same. Otherwise it fails at the first that is not,
in the state that the lenient one has there. A section whose name is not found fails in
neither of them. -/
theorem strict_refines_lenient (template : Template) (registry : Registry) (depth : Nat)
    (contexts : Chain) (start : Progress) :
    let strict := template.withErrorOnMissing true
    let lenient := template.withErrorOnMissing false
    ((∀ visit ∈ lenient.visits registry depth contexts start, visit.Found registry.adapterOf) →
      strict.renderTo registry depth contexts start =
        lenient.renderTo registry depth contexts start) ∧
    (∀ earlier visit later after,
      lenient.visits registry depth contexts start = earlier ++ visit :: later →
      (∀ visit ∈ earlier, visit.Found registry.adapterOf) →
      visit.Misses registry.adapterOf after →
      ∃ segment, visit.FirstMissing registry.adapterOf segment ∧
        strict.renderTo registry depth contexts start =
          .error (.missingVariable segment) { visit.start with host := after }) ∧
    (∀ text after, strict.render registry depth contexts start = .ok text after →
      lenient.render registry depth contexts start = .ok text after) ∧
    ∀ name inverted body chain state after,
      lookup registry.adapterOf false chain name state.host = .ok .missing after →
      Render.sectionTag (strict.settings registry) name inverted body chain state =
        if inverted then body chain { state with host := after }
        else .ok () { state with host := after } := by
  have refines := refines_render template registry depth contexts
  refine ⟨refines.goes start, refines.stops start, fun text after => text_of_refines refines, ?_⟩
  intro name inverted body chain state after missing
  exact section_missing (Template.settings registry (template.withErrorOnMissing true)) name
    inverted body chain state after missing

def strictPage : Template :=
  ⟨[.text ['a'], .sectionTag ['n'] true 1 [.variableTag ['u', '.', 'v'] true],
      .variableTag ['x'] true], .standard, .empty, .standard⟩

def strictData : Chain :=
  [.mapping .dict none [(.str ['u'], .mapping .dict none []), (.str ['x'], .str ['y'])]]

theorem strict_stops_on_page :
    ∃ segment, Visit.FirstMissing Registry.standard.adapterOf
        ⟨['u', '.', 'v'], strictData, ⟨.initial, ⟨[['a']], none⟩, []⟩⟩ segment ∧
      (strictPage.withErrorOnMissing true).renderTo .standard 0 strictData
          ⟨.initial, .open none, []⟩ =
        .error (.missingVariable segment) ⟨.initial, ⟨[['a']], none⟩, []⟩ := by
  have evaluated : (strictPage.withErrorOnMissing false).visits .standard 0 strictData
      ⟨.initial, .open none, []⟩ =
      [⟨['u', '.', 'v'], strictData, ⟨.initial, ⟨[['a']], none⟩, []⟩⟩,
        ⟨['x'], strictData, ⟨.initial, ⟨[['a']], none⟩, []⟩⟩] := by cbv
  have missing : Visit.Misses Registry.standard.adapterOf
      ⟨['u', '.', 'v'], strictData, ⟨.initial, ⟨[['a']], none⟩, []⟩⟩ .initial := by
    unfold Visit.Misses
    cbv
  exact (strict_refines_lenient strictPage .standard 0 strictData ⟨.initial, .open none, []⟩).2.1
    [] _ _ .initial evaluated (by simp) missing

end Mustache
