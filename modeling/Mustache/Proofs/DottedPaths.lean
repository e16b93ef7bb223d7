import Mathlib
import Mustache.Proofs.Strictness

/-!
Dotted paths compose. What stands before a dot is looked up in the contexts, and what stands
behind it only in the value that was found, wherever the dot is in a name. So a path can be
followed in parts, and no context but the one that knows the first segment has a say in the rest.
-/

namespace Mustache

/-! A name is taken apart at its dots. -/

namespace Path

theorem segments_dot (fresh : Bool) {head tail : Text} (plain : '.' ∉ head)
    (inner : ¬ (fresh = true ∧ head = [] ∧ tail = [])) :
    segmentsFrom fresh (head ++ '.' :: tail) = head :: ofName tail := by
  induction head generalizing fresh with
  | nil =>
      have whole : ¬ (fresh = true ∧ tail = []) := fun alone => inner ⟨alone.1, rfl, alone.2⟩
      rw [List.nil_append, segmentsFrom, if_pos rfl, if_neg whole]
      rfl
  | cons c rest ih =>
      obtain ⟨other, later⟩ := List.ne_and_not_mem_of_not_mem_cons plain
      rw [List.cons_append, segmentsFrom, if_neg other.symm, ih false later (by simp)]

theorem segments_single (fresh : Bool) {head : Text} (plain : '.' ∉ head) :
    segmentsFrom fresh head = [head] := by
  induction head generalizing fresh with
  | nil => rfl
  | cons c rest ih =>
      obtain ⟨other, later⟩ := List.ne_and_not_mem_of_not_mem_cons plain
      rw [segmentsFrom, if_neg other.symm, ih false later]

def Proper (segment : Text) : Prop := segment ≠ [] ∧ '.' ∉ segment

abbrev dotted (segments : Path) : Text := Text.join ['.'] segments

variable {segments : Path}

theorem of_name_dotted (some : segments ≠ []) (proper : ∀ segment ∈ segments, Proper segment) :
    ofName (dotted segments) = segments := by
  induction segments with
  | nil => exact absurd rfl some
  | cons segment later ih =>
      obtain ⟨here, others⟩ := List.forall_mem_cons.mp proper
      cases later with
      | nil => exact segments_single true here.2
      | cons next later =>
          have split : dotted (segment :: next :: later) =
              segment ++ '.' :: dotted (next :: later) := by
            simp [dotted, Text.join]
          rw [split, ofName, segments_dot true here.2 (fun alone => here.1 alone.2.1),
            ih (List.cons_ne_nil _ _) others]

theorem of_name_dotted_dot (some : segments ≠ [])
    (proper : ∀ segment ∈ segments, Proper segment) (rest : Text) :
    ofName (dotted segments ++ '.' :: rest) = segments ++ ofName rest := by
  induction segments with
  | nil => exact absurd rfl some
  | cons segment later ih =>
      obtain ⟨here, others⟩ := List.forall_mem_cons.mp proper
      have ended (tail : Text) : ofName (segment ++ '.' :: tail) = segment :: ofName tail :=
        segments_dot true here.2 fun alone => here.1 alone.2.1
      -- The last segment is followed by the rest, each other one by a segment.
      cases later with
      | nil => exact ended rest
      | cons next later =>
          have split : dotted (segment :: next :: later) ++ '.' :: rest =
              segment ++ '.' :: (dotted (next :: later) ++ '.' :: rest) := by
            simp [dotted, Text.join]
          rw [split, ended, ih (List.cons_ne_nil _ _) others]
          rfl

end Path

/-! The contexts that are asked. -/

structure Question where
  segment : Text
  context : Value

abbrev LookupResult := EStateM.Result Fault Host Value

def ifMissing (more : Host → List Question) : LookupResult → List Question
  | .ok found after => if found.isMissing then more after else []
  | .error _ _ => []

def ifFound (more : Value → Host → List Question) : LookupResult → List Question
  | .ok found after => if found.isMissing then [] else more found after
  | .error _ _ => []

section Answers
variable {found : Value} {after : Host}

theorem if_missing_of_missing (missing : found.isMissing = true) (more : Host → List Question) :
    ifMissing more (.ok found after) = more after := if_pos missing

theorem if_missing_of_present (present : found.isMissing = false) (more : Host → List Question) :
    ifMissing more (.ok found after) = [] := if_neg (ne_true_of_eq_false present)

theorem if_found_of_missing (missing : found.isMissing = true)
    (more : Value → Host → List Question) : ifFound more (.ok found after) = [] := if_pos missing

theorem if_found_of_present (present : found.isMissing = false)
    (more : Value → Host → List Question) : ifFound more (.ok found after) = more found after :=
  if_neg (ne_true_of_eq_false present)

end Answers

section Questions
variable (adapterOf : Value → Adapter)

/-- The contexts that are asked for a segment, until one knows it or fails. -/
def questionsOf (segment : Text) : Chain → Host → List Question
  | [], _ => []
  | frame :: outer, host =>
      ⟨segment, frame⟩ ::
        ifMissing (questionsOf segment outer) (lookupInFrame adapterOf segment frame host)

def pathQuestions : Path → Chain → Host → List Question
  | [], _, _ => []
  | segment :: rest, chain, host =>
      questionsOf adapterOf segment chain host ++
        ifFound (fun found => pathQuestions rest [found])
          (lookupSegment adapterOf segment chain host)

/-- All that is asked to look a name up. -/
def questions (chain : Chain) (name : Text) : Host → List Question :=
  pathQuestions adapterOf (Path.ofName name) chain

end Questions

section Sought
variable {adapterOf : Value → Adapter} {segment : Text} {host after : Host} {v : Value}

theorem lookup_segment_of_missing {frame found : Value}
    (looked : lookupInFrame adapterOf segment frame host = .ok found after)
    (missing : found.isMissing = true) (outer : Chain) :
    lookupSegment adapterOf segment (frame :: outer) host =
      lookupSegment adapterOf segment outer after := by
  rw [lookupSegment, bind_of_ok looked, if_pos missing]

theorem lookup_segment_of_present {frame : Value}
    (looked : lookupInFrame adapterOf segment frame host = .ok v after)
    (present : v.isMissing = false) (outer : Chain) :
    lookupSegment adapterOf segment (frame :: outer) host = .ok v after := by
  rw [lookupSegment, bind_of_ok looked, if_neg (ne_true_of_eq_false present)]
  rfl

theorem lookup_segment_of_error {frame : Value} {fault : Fault}
    (looked : lookupInFrame adapterOf segment frame host = .error fault after) (outer : Chain) :
    lookupSegment adapterOf segment (frame :: outer) host = .error fault after := by
  rw [lookupSegment, bind_of_error looked]

/-- Further contexts are asked for a segment only if it is missing in those before them. -/
theorem lookup_segment_append (inner outer : Chain) :
    lookupSegment adapterOf segment (inner ++ outer) =
      lookupSegment adapterOf segment inner >>= fun found =>
        if found.isMissing then lookupSegment adapterOf segment outer else return found := by
  induction inner with
  | nil => rfl
  | cons frame rest ih =>
      rw [List.cons_append, lookupSegment, lookupSegment, bind_assoc]
      congr 1
      funext found
      cases missing : found.isMissing with
      | true => simpa using ih
      | false => simp [missing]

theorem questions_of_append (inner outer : Chain) :
    questionsOf adapterOf segment (inner ++ outer) host =
      questionsOf adapterOf segment inner host ++
        ifMissing (questionsOf adapterOf segment outer)
          (lookupSegment adapterOf segment inner host) := by
  induction inner generalizing host with
  | nil => rfl
  | cons frame rest ih =>
      rw [List.cons_append, questionsOf, questionsOf, List.cons_append]
      congr 1
      cases looked : lookupInFrame adapterOf segment frame host with
      | error fault after =>
          rw [lookup_segment_of_error looked]
          rfl
      | ok found after =>
          -- The outer contexts are asked only if no inner one answers, and each inner one may stop
          -- it.
          cases missing : found.isMissing with
          | true =>
              rw [lookup_segment_of_missing looked missing, if_missing_of_missing missing,
                if_missing_of_missing missing, ih]
          | false =>
              rw [lookup_segment_of_present looked missing, if_missing_of_present missing,
                if_missing_of_present missing, if_missing_of_present missing, List.append_nil]

theorem questions_of_missing {chain : Chain}
    (missing : lookupSegment adapterOf segment chain host = .ok .missing after) :
    questionsOf adapterOf segment chain host = chain.map (⟨segment, ·⟩) := by
  induction chain generalizing host with
  | nil => rfl
  | cons frame rest ih =>
      rw [questionsOf, List.map_cons]
      congr 1
      cases looked : lookupInFrame adapterOf segment frame host with
      | error fault stopped =>
          rw [lookup_segment_of_error looked] at missing
          cases missing
      | ok found between =>
          cases here : found.isMissing with
          | true =>
              rw [lookup_segment_of_missing looked here] at missing
              rw [if_missing_of_missing here, ih missing]
          | false =>
              rw [lookup_segment_of_present looked here] at missing
              cases missing
              cases here

/-- A segment is missing in the contexts `inner`, and `frame` knows it. -/
structure FoundIn (adapterOf : Value → Adapter) (segment : Text) (inner : Chain) (frame : Value)
    (host : Host) (v : Value) (after : Host) : Prop where
  passed : ∃ between, lookupSegment adapterOf segment inner host = .ok .missing between ∧
    lookupInFrame adapterOf segment frame between = .ok v after
  present : v.isMissing = false

theorem found_in_some {chain : Chain}
    (found : lookupSegment adapterOf segment chain host = .ok v after)
    (present : v.isMissing = false) :
    ∃ inner frame outer, chain = inner ++ frame :: outer ∧
      FoundIn adapterOf segment inner frame host v after := by
  induction chain generalizing host with
  | nil =>
      cases found
      cases present
  | cons frame rest ih =>
      cases looked : lookupInFrame adapterOf segment frame host with
      | error fault stopped =>
          rw [lookup_segment_of_error looked] at found
          cases found
      | ok w between =>
          cases here : w.isMissing with
          | true =>
              rw [lookup_segment_of_missing looked here] at found
              obtain ⟨inner, next, outer, rfl, ⟨last, missing, known⟩, -⟩ := ih found
              -- The frame that does not know the segment joins those in front.
              refine ⟨frame :: inner, next, outer, rfl, ⟨last, ?_, known⟩, present⟩
              rw [lookup_segment_of_missing looked here, missing]
          | false =>
              rw [lookup_segment_of_present looked here] at found
              cases found
              exact ⟨[], frame, rest, rfl, ⟨host, rfl, looked⟩, present⟩

section Found
variable {inner : Chain} {frame : Value}
  (found : FoundIn adapterOf segment inner frame host v after)
include found

theorem lookup_found_in (outer : Chain) :
    lookupSegment adapterOf segment (inner ++ frame :: outer) host = .ok v after := by
  obtain ⟨between, missing, known⟩ := found.passed
  rw [lookup_segment_append, bind_of_ok missing]
  exact lookup_segment_of_present known found.present outer

theorem questions_found_in (outer : Chain) :
    questionsOf adapterOf segment (inner ++ frame :: outer) host =
      (inner ++ [frame]).map (⟨segment, ·⟩) := by
  obtain ⟨between, missing, known⟩ := found.passed
  rw [questions_of_append, missing, questions_of_missing missing, if_missing_of_missing rfl,
    questionsOf, known, if_missing_of_present found.present, List.map_append]
  rfl

end Found
end Sought

section Following
variable {adapterOf : Value → Adapter} {required : Bool} {chain : Chain}

/-- What is done with a value that was looked up, unless it is missing. -/
def andThen (found : Value) (next : Eval Value) : Eval Value :=
  if found.isMissing then return .missing else next

/-- A path is followed in two parts, of which the second starts from what the first one leads
to. -/
theorem lookup_path_parts {before after : Path} (some_before : before ≠ [])
    (some_after : after ≠ []) :
    lookupPath adapterOf required (before ++ after) chain =
      lookupPath adapterOf required before chain >>= fun found =>
        andThen found (lookupPath adapterOf required after [found]) := by
  induction before generalizing chain with
  | nil => exact absurd rfl some_before
  | cons segment rest ih =>
      have more : rest ++ after ≠ [] := List.append_ne_nil_of_right_ne_nil rest some_after
      rw [List.cons_append, lookupPath, lookupPath, bind_assoc]
      congr 1
      funext found
      by_cases missing : found.isMissing = true
      · cases required <;> simp [missing] <;> rfl
      · rw [if_neg missing, if_neg missing, if_neg more]
        -- Only where the first part ends does the lookup hand over to the second one.
        by_cases last : rest = []
        · rw [if_pos last, pure_bind, last, List.nil_append, andThen, if_neg missing]
        · rw [if_neg last]
          exact ih last

theorem path_questions_parts {before after : Path} (some_before : before ≠ []) (host : Host) :
    pathQuestions adapterOf (before ++ after) chain host =
      pathQuestions adapterOf before chain host ++
        ifFound (fun found => pathQuestions adapterOf after [found])
          (lookupPath adapterOf false before chain host) := by
  induction before generalizing chain host with
  | nil => exact absurd rfl some_before
  | cons segment rest ih =>
      rw [List.cons_append, pathQuestions, pathQuestions, List.append_assoc]
      congr 1
      cases looked : lookupSegment adapterOf segment chain host with
      | error fault after =>
          rw [lookupPath, bind_of_error looked]
          rfl
      | ok found between =>
          rw [lookupPath, bind_of_ok looked]
          cases missing : found.isMissing with
          | true =>
              rw [if_found_of_missing missing, if_found_of_missing missing]
              rfl
          | false =>
              rw [if_found_of_present missing, if_found_of_present missing,
                if_neg Bool.false_ne_true]
              -- Behind the last segment of the first part the second one begins, in what was found.
              by_cases last : rest = []
              · rw [if_pos last, last, List.nil_append, pathQuestions, List.nil_append]
                show _ = ifFound _ (.ok found between)
                rw [if_found_of_present missing]
              · rw [if_neg last]
                exact ih last between

section Answering
variable {other : Value → Adapter}

theorem segment_answers {segment : Text} {host : Host}
    (same : ∀ question ∈ questionsOf adapterOf segment chain host,
      lookupInFrame other question.segment question.context =
        lookupInFrame adapterOf question.segment question.context) :
    lookupSegment other segment chain host = lookupSegment adapterOf segment chain host := by
  induction chain generalizing host with
  | nil => rfl
  | cons frame rest ih =>
      rw [questionsOf] at same
      obtain ⟨here, later⟩ := List.forall_mem_cons.mp same
      rw [lookupSegment, lookupSegment, here]
      cases looked : lookupInFrame adapterOf segment frame host with
      | error fault after => rw [bind_of_error looked, bind_of_error looked]
      | ok found after =>
          rw [looked] at later
          rw [bind_of_ok looked, bind_of_ok looked]
          cases missing : found.isMissing with
          | true => exact ih (by rwa [if_missing_of_missing missing] at later)
          | false => rfl

/-- What a path leads to depends on nothing but the answers to what is asked. -/
theorem path_answers {path : Path} {host : Host}
    (same : ∀ question ∈ pathQuestions adapterOf path chain host,
      lookupInFrame other question.segment question.context =
        lookupInFrame adapterOf question.segment question.context) :
    lookupPath other required path chain host = lookupPath adapterOf required path chain host := by
  induction path generalizing chain host with
  | nil => rfl
  | cons segment rest ih =>
      rw [pathQuestions] at same
      obtain ⟨here, later⟩ := List.forall_mem_append.mp same
      rw [lookupPath, lookupPath]
      -- The first segment has the same answer, and so what is asked further is the same.
      have sought := segment_answers here
      cases looked : lookupSegment adapterOf segment chain host with
      | error fault after => rw [bind_of_error looked, bind_of_error (sought.trans looked)]
      | ok found after =>
          rw [bind_of_ok looked, bind_of_ok (sought.trans looked)]
          rw [looked] at later
          cases missing : found.isMissing with
          | true => cases required <;> rfl
          | false =>
              rw [if_neg Bool.false_ne_true, if_neg Bool.false_ne_true]
              split
              · rfl
              · exact ih (by rwa [if_found_of_present missing] at later)

end Answering
end Following

/-! Names that are followed in parts. -/

section Names
variable (adapterOf : Value → Adapter) (required : Bool)

/-- The recursion that looks up a name with dots by the part before its first dot, and then by
the part behind it. -/
structure Recurs (look : Chain → Text → Eval Value) : Prop where
  whole : ∀ chain name, name = Path.self ∨ '.' ∉ name →
    look chain name = lookupPath adapterOf required [name] chain
  split : ∀ chain head tail, '.' ∉ head → head ++ '.' :: tail ≠ Path.self →
    look chain (head ++ '.' :: tail) =
      look chain head >>= fun found => andThen found (look [found] tail)

theorem lookup_recurs : Recurs adapterOf required (lookup adapterOf required) where
  whole chain name plain := by
    rcases plain with rfl | plain
    · rfl
    · rw [lookup, Path.ofName, Path.segments_single true plain]
  split chain head tail plain named := by
    have inner : ¬ (true = true ∧ head = [] ∧ tail = []) := by
      rintro ⟨-, rfl, rfl⟩
      exact named rfl
    unfold lookup Path.ofName
    rw [Path.segments_dot true plain inner, Path.segments_single true plain]
    exact lookup_path_parts (List.cons_ne_nil head []) (Path.segments_from_ne_nil true tail)

/-- There are fewer dots behind the first one, so the recursion ends: one function solves it. -/
theorem recurs_iff (look : Chain → Text → Eval Value) :
    Recurs adapterOf required look ↔ look = lookup adapterOf required := by
  constructor
  · intro recurs
    funext chain name
    have known := lookup_recurs adapterOf required
    induction dots : name.count '.' using Nat.strong_induction_on generalizing chain name with
    | _ _ ih =>
        by_cases plain : name = Path.self ∨ '.' ∉ name
        · rw [recurs.whole chain name plain, known.whole chain name plain]
        · -- Neither part of the name has as many dots as the name.
          obtain ⟨named, dotted⟩ := not_or.mp plain
          obtain ⟨head, tail, rfl, first⟩ := List.eq_append_cons_of_mem (not_not.mp dotted)
          have before : head.count '.' = 0 := List.count_eq_zero.mpr first
          simp only [List.count_append, List.count_cons_self, before] at dots
          rw [recurs.split chain head tail first named, known.split chain head tail first named,
            ih (head.count '.') (by omega) chain head rfl]
          congr 1
          funext found
          rw [ih (tail.count '.') (by omega) [found] tail rfl]
  · rintro rfl
    exact lookup_recurs adapterOf required

variable {head : Text} {later : Path} (proper : ∀ segment ∈ head :: later, Path.Proper segment)
include proper

theorem lookup_dotted (chain : Chain) (rest : Text) :
    lookup adapterOf required chain (Path.dotted (head :: later) ++ '.' :: rest) =
      lookup adapterOf required chain (Path.dotted (head :: later)) >>= fun found =>
        andThen found (lookup adapterOf required [found] rest) := by
  unfold lookup
  rw [Path.of_name_dotted_dot (List.cons_ne_nil _ _) proper,
    Path.of_name_dotted (List.cons_ne_nil _ _) proper]
  exact lookup_path_parts (List.cons_ne_nil _ _) (Path.segments_from_ne_nil true rest)

theorem questions_dotted (chain : Chain) (rest : Text) (host : Host) :
    questions adapterOf chain (Path.dotted (head :: later) ++ '.' :: rest) host =
      questions adapterOf chain (Path.dotted (head :: later)) host ++
        ifFound (fun found => questions adapterOf [found] rest)
          (lookup adapterOf false chain (Path.dotted (head :: later)) host) := by
  unfold questions lookup
  rw [Path.of_name_dotted_dot (List.cons_ne_nil _ _) proper,
    Path.of_name_dotted (List.cons_ne_nil _ _) proper]
  exact path_questions_parts (List.cons_ne_nil _ _) host

variable {adapterOf} in
/-- Where the first segment is found, the others are sought in what was found, whatever contexts
there are outside. -/
theorem lookup_dotted_found {inner : Chain} {frame v : Value} {host after : Host}
    (found : FoundIn adapterOf head inner frame host v after) (outer : Chain) (rest : Text) :
    lookup adapterOf required (inner ++ frame :: outer)
          (Path.dotted (head :: later) ++ '.' :: rest) host =
        lookupPath adapterOf required (later ++ Path.ofName rest) [v] after ∧
      questions adapterOf (inner ++ frame :: outer)
          (Path.dotted (head :: later) ++ '.' :: rest) host =
        (inner ++ [frame]).map (⟨head, ·⟩) ++
          pathQuestions adapterOf (later ++ Path.ofName rest) [v] after := by
  have sought := lookup_found_in found outer
  have more : later ++ Path.ofName rest ≠ [] :=
    List.append_ne_nil_of_right_ne_nil later (Path.segments_from_ne_nil true rest)
  unfold questions lookup
  rw [Path.of_name_dotted_dot (List.cons_ne_nil _ _) proper, List.cons_append]
  constructor
  · exact lookup_path_found adapterOf required _ sought found.present more
  · rw [pathQuestions, questions_found_in found outer, sought, if_found_of_present found.present]

/-- Dotted paths compose. A path followed by a dot and any name is looked up as the path, and then
the name in the value that it leads to: with the same result or fault, the same changes to the
host's data and the same questions in the same order. Nothing but their answers enters. If the
path leads nowhere, neither does the whole. Contexts outside the one that knows the first segment
are not asked. The recursion that splits a name at its first dot has this one solution. -/
theorem dotted_paths_compose (chain : Chain) (rest : Text) :
    let path := Path.dotted (head :: later)
    let whole := path ++ '.' :: rest
    lookup adapterOf required chain whole =
        (lookup adapterOf required chain path >>= fun found =>
          andThen found (lookup adapterOf required [found] rest)) ∧
      (∀ host after, lookup adapterOf required chain path host = .ok .missing after →
        lookup adapterOf required chain whole host = .ok .missing after) ∧
      (∀ host, questions adapterOf chain whole host =
        questions adapterOf chain path host ++
          ifFound (fun found => questions adapterOf [found] rest)
            (lookup adapterOf false chain path host)) ∧
      (∀ host other, (∀ question ∈ questions adapterOf chain whole host,
          lookupInFrame other question.segment question.context =
            lookupInFrame adapterOf question.segment question.context) →
        lookup other required chain whole host = lookup adapterOf required chain whole host) ∧
      (∀ host v after, lookupSegment adapterOf head chain host = .ok v after →
        v.isMissing = false →
        ∃ inner frame outer, chain = inner ++ frame :: outer ∧
          FoundIn adapterOf head inner frame host v after ∧
          ∀ outer', lookup adapterOf required (inner ++ frame :: outer') whole host =
              lookupPath adapterOf required (later ++ Path.ofName rest) [v] after ∧
            questions adapterOf (inner ++ frame :: outer') whole host =
              (inner ++ [frame]).map (⟨head, ·⟩) ++
                pathQuestions adapterOf (later ++ Path.ofName rest) [v] after) ∧
      ∀ look, Recurs adapterOf required look ↔ look = lookup adapterOf required := by
  intro path whole
  have composed := lookup_dotted adapterOf required proper chain rest
  refine ⟨composed, ?_, questions_dotted adapterOf proper chain rest, ?_, ?_,
    recurs_iff adapterOf required⟩
  · -- A head that is missing is a case of the composed lookup.
    intro host after missing
    rw [composed, bind_of_ok missing]
    rfl
  · exact fun host other => path_answers
  · intro host v after found present
    obtain ⟨inner, frame, outer, split, known⟩ := found_in_some found present
    exact ⟨inner, frame, outer, split, known,
      fun outer' => lookup_dotted_found required proper known outer' rest⟩

end Names

def countingObject : Value :=
  .object ⟨['R'], none, none, some ['r'], true⟩
    [(['n'], .shared, .function ⟨some [], .counts (.fixed [1]), true⟩ .null)]

def countingData : Chain := [.null, .mapping .dict none [(.str ['u'], countingObject)]]

theorem counting_path_composes :
    let adapterOf := Registry.standard.adapterOf
    (∀ segment ∈ [['u'], ['n']], Path.Proper segment) ∧
      lookup adapterOf true countingData "u.n.".toList =
        (lookup adapterOf true countingData "u.n".toList >>= fun found =>
          andThen found (lookup adapterOf true [found] [])) ∧
      lookup adapterOf true countingData "u.n..".toList .initial =
        .ok (.int 1) (Host.initial.countCall [1]) := by
  have proper : ∀ segment ∈ [['u'], ['n']], Path.Proper segment := by
    simp [Path.Proper]
  obtain ⟨composed, -⟩ :=
    dotted_paths_compose Registry.standard.adapterOf true proper countingData []
  obtain ⟨itself, -⟩ :=
    dotted_paths_compose Registry.standard.adapterOf true proper countingData ['.']
  have counted : lookup Registry.standard.adapterOf true countingData (Path.dotted [['u'], ['n']])
      .initial = .ok (.int 1) (Host.initial.countCall [1]) := by cbv
  refine ⟨proper, composed, (congrFun itself _).trans ?_⟩
  rw [bind_of_ok counted]
  rfl

end Mustache
