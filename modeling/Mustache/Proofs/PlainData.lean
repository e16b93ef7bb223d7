import Mustache.Proofs.Consulting
import Mustache.Proofs.NestedSections

/-!
Data written down as texts, lists and dictionaries. Unless an adapter is registered for one
of their classes they are read as what they are, and a dictionary that has an entry for a
name answers for all contexts around it.
-/

namespace Mustache

open Render

structure PlainReading (adapterOf : Value → Adapter) : Prop where
  text : ∀ text, adapterOf (.str text) = .scalar
  list : ∀ items, adapterOf (.sequence .list items) = .sequence
  dictionary : ∀ address entries, adapterOf (.mapping .dict address entries) = .mapping

def plainClasses : List ClassName :=
  ClassName.str.lineage ++ ClassName.list.lineage ++ ClassName.dict.lineage

section Registered
variable {registered : List (ClassName × Adapter)} {registry : Registry}

theorem adapter_built_in (recalls : registry.Recalls registered) {v : Value}
    (unused : ∀ name ∈ v.lineage, name ∉ registered.map (·.1)) :
    registry.adapterOf v = .builtIn v.lineage := by
  have none : v.lineage.findSome? (⟨registered, []⟩ : Registry).registered? = none := by
    rw [List.findSome?_eq_none_iff]
    intro name member
    have absent : registered.find? (fun pair => pair.1 = name) = none := by
      rw [List.find?_eq_none]
      intro pair listed same
      have known : pair.1 = name := by simpa using same
      exact unused name member (List.mem_map.mpr ⟨pair, listed, known⟩)
    rw [Registry.registered?, absent]
    rfl
  have given := (Consult.recalls_adapter recalls v).1
  refine given.trans ?_
  show ((v.lineage.findSome? (⟨registered, []⟩ : Registry).registered?).getD
    (.builtIn v.lineage)) = _
  rw [none]
  rfl

theorem plain_of_recalls (recalls : registry.Recalls registered)
    (unused : ∀ name ∈ plainClasses, name ∉ registered.map (·.1)) :
    PlainReading registry.adapterOf where
  text text := by
    have given := adapter_built_in recalls (v := .str text) fun name member =>
      unused name (List.mem_append_left _ (List.mem_append_left _ member))
    exact given
  list items := by
    have given := adapter_built_in recalls (v := .sequence .list items) fun name member =>
      unused name (List.mem_append_left _ (List.mem_append_right _ member))
    exact given
  dictionary address entries := by
    have given := adapter_built_in recalls (v := .mapping .dict address entries) fun name member =>
      unused name (List.mem_append_right _ member)
    exact given

end Registered

theorem standard_recalls : Registry.standard.Recalls Registry.standard.registered where
  known := rfl
  sound := List.forall_mem_nil _

theorem standard_plain : PlainReading Registry.standard.adapterOf :=
  plain_of_recalls standard_recalls (by decide)

section Mapping
variable {adapterOf : Value → Adapter} {host : Host} {v found : Value} {name : Text}

theorem present_of_entry (entry : host.entry v name = .found found) : v.isAbsent = false := by
  cases v with
  | null | missing => cases entry
  | _ => rfl

theorem lookup_in_mapping (reads : adapterOf v = .mapping) (present : v.isAbsent = false)
    (named : name ≠ Path.self) : lookupInFrame adapterOf name v = v.entry name := by
  unfold lookupInFrame
  rw [if_neg named, lookup_within_eq, present, reads]
  rfl

theorem lookup_entry (reads : adapterOf v = .mapping) (named : name ≠ Path.self)
    (entry : host.entry v name = .found found) :
    lookupInFrame adapterOf name v host = .ok found host := by
  have read : (get : Eval Host) host = .ok host host := rfl
  rw [lookup_in_mapping reads (present_of_entry entry) named, Value.entry, bind_of_ok read, entry]
  rfl

theorem found_first {segment : Text} {found : Value} (proper : Path.Proper segment)
    (known : lookupInFrame adapterOf segment v host = .ok found host)
    (present : found.isMissing = false) (required : Bool) (around : Chain) :
    lookup adapterOf required (v :: around) segment host = .ok found host ∧
      questions adapterOf (v :: around) segment host = [⟨segment, v⟩] := by
  have first : FoundIn adapterOf segment [] v host found host := ⟨⟨host, rfl, known⟩, present⟩
  have asked : questionsOf adapterOf segment (v :: around) host = [⟨segment, v⟩] :=
    questions_found_in first around
  have looked := lookup_segment_of_present known present around
  constructor
  · exact lookup_of_segment proper looked present required
  · rw [questions, of_name_proper proper, pathQuestions, asked, looked, if_found_of_present present]
    rfl

end Mapping

/-- The variable for a text writes it, escaped or not. -/
theorem variable_of_text {settings : Settings} {expand : Expand} {name text : Text}
    (escape : Bool) {chain : Chain} {start : Progress}
    (looked : lookup settings.adapterOf settings.strict chain name start.host =
      .ok (.str text) start.host)
    (closed : (settings.adapterOf (.str text)).opening (.str text) = .closed) :
    node settings expand (.variableTag name escape) chain start =
      write (if escape then text.escapeHtml else text) start := by
  have bare : onHost (strip settings.adapterOf (.str text)) start = .ok (.str text) start := by
    rw [strip_closed rfl closed]
    rfl
  refine (variable_of_lookup looked).trans ?_
  exact bind_of_ok bare _

end Mustache
