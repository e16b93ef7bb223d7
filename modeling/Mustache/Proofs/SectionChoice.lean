import Mustache.Proofs.Indistinct

/-!
What the sections over a value render, told by what is left of the value without its layers. A
value is left to the inverted section or to the normal one, and never to both; the normal one
renders its body at least once.
-/

namespace Mustache

/-- A value of the kind `kind` that the normal section does not leave out. -/
structure Filled (adapterOf : Value → Adapter) (kind : ValueKind) (target : Value)
    (host : Host) : Prop where
  present : target.isAbsent = false
  full : (adapterOf target).isEmpty target host = .ok false host
  kind : (adapterOf target).kind = kind

/-- Which section is rendered over a value without layers, the inverted one or not, and in which
chains it renders its body. -/
inductive Choice (adapterOf : Value → Adapter) (chain : Chain) (host : Host) (target : Value) :
    Bool → List Chain → Prop
  | absent : target.isAbsent = true → Choice adapterOf chain host target true [chain]
  | empty : target.isAbsent = false → (adapterOf target).isEmpty target host = .ok true host →
      Choice adapterOf chain host target true [chain]
  | list {items : List Value} : Filled adapterOf .list target host →
      (adapterOf target).iterate target host = .ok items host →
      Choice adapterOf chain host target false (items.map (· :: chain))
  | record : Filled adapterOf .record target host →
      Choice adapterOf chain host target false [target :: chain]
  | scalar : Filled adapterOf .scalar target host →
      Choice adapterOf chain host target false [chain]

def bareEmpty (adapterOf : Value → Adapter) (target : Value) : Eval Bool :=
  if target.isAbsent then pure true else (adapterOf target).isEmpty target

/-- Why neither section can be rendered: it cannot be told whether the value is empty, or what a
list holds. -/
inductive Refusal (adapterOf : Value → Adapter) (host : Host) (target : Value)
    (fault : Fault) : Prop
  | emptiness : target.isAbsent = false →
      (adapterOf target).isEmpty target host = .error fault host →
      Refusal adapterOf host target fault
  | items : Filled adapterOf .list target host →
      (adapterOf target).iterate target host = .error fault host →
      Refusal adapterOf host target fault

section Choosing
variable {adapterOf : Value → Adapter} {chain : Chain} {host : Host} {target : Value}

theorem reads_get {α : Type} {next : Host → Eval α}
    (reads : final (next host host) = host) : final ((get >>= next) host) = host := reads

theorem empty_value_reads (adapter : Adapter) (v : Value) (host : Host) :
    final (adapter.isEmpty v host) = host := by
  have length : final (Adapter.hasNoLength v host) = host := by
    apply reads_get
    cases host.length? v <;> rfl
  unfold Adapter.isEmpty
  split
  · rfl
  · exact length
  · exact length
  · rfl
  · rfl

theorem iterate_reads (adapter : Adapter) (v : Value) (host : Host) :
    final (adapter.iterate v host) = host := by
  unfold Adapter.iterate
  split
  · apply reads_get
    cases host.elements? v <;> rfl
  · rfl
  · rfl

theorem ended_of_reads {α : Type} {result : EStateM.Result Fault Host α}
    (reads : final result = host) :
    (∃ answer, result = .ok answer host) ∨ ∃ fault, result = .error fault host := by
  subst reads
  cases result with
  | ok answer after => exact .inl ⟨answer, rfl⟩
  | error fault after => exact .inr ⟨fault, rfl⟩

/-- Some section is rendered, unless the value refuses to be read. -/
theorem choice_or_refusal (adapterOf : Value → Adapter) (chain : Chain) (host : Host)
    (target : Value) :
    (∃ inverted chains, Choice adapterOf chain host target inverted chains) ∨
      ∃ fault, Refusal adapterOf host target fault := by
  by_cases absent : target.isAbsent = true
  · exact .inl ⟨true, [chain], .absent absent⟩
  · have present : target.isAbsent = false := eq_false_of_ne_true absent
    obtain ⟨empty, emptiness⟩ | ⟨fault, emptiness⟩ :=
      ended_of_reads (empty_value_reads (adapterOf target) target host)
    · cases empty with
      | true => exact .inl ⟨true, [chain], .empty present emptiness⟩
      | false =>
          cases kind : (adapterOf target).kind with
          | record => exact .inl ⟨false, _, .record ⟨present, emptiness, kind⟩⟩
          | scalar => exact .inl ⟨false, _, .scalar ⟨present, emptiness, kind⟩⟩
          | list =>
              have filled : Filled adapterOf .list target host := ⟨present, emptiness, kind⟩
              obtain ⟨items, iterated⟩ | ⟨fault, iterated⟩ :=
                ended_of_reads (iterate_reads (adapterOf target) target host)
              · exact .inl ⟨false, _, .list filled iterated⟩
              · exact .inr ⟨fault, .items filled iterated⟩
    · exact .inr ⟨fault, .emptiness present emptiness⟩

theorem empty_of_filled {kind : ValueKind} (filled : Filled adapterOf kind target host) :
    bareEmpty adapterOf target host = .ok false host := by
  rw [bareEmpty, filled.present]
  exact filled.full

/-- The inverted section is for what is empty, and the normal one for what is not. -/
theorem empty_of_choice {inverted : Bool} {chains : List Chain}
    (choice : Choice adapterOf chain host target inverted chains) :
    bareEmpty adapterOf target host = .ok inverted host := by
  cases choice with
  | absent absent =>
      rw [bareEmpty, absent]
      rfl
  | empty present empty =>
      rw [bareEmpty, present]
      exact empty
  | list filled _ | record filled | scalar filled => exact empty_of_filled filled

/-- Which section is rendered, and where, is settled by the value. -/
theorem choice_unique {inverted inverted' : Bool} {chains chains' : List Chain}
    (choice : Choice adapterOf chain host target inverted chains)
    (choice' : Choice adapterOf chain host target inverted' chains') :
    inverted = inverted' ∧ chains = chains' := by
  have answers := (empty_of_choice choice).symm.trans (empty_of_choice choice')
  obtain rfl : inverted = inverted' := by
    injection answers
  refine ⟨rfl, ?_⟩
  -- The emptiness is the same on both sides, so only the kinds are left to be compared.
  cases choice with
  | absent _ | empty _ _ => cases choice' <;> rfl
  | list filled iterated =>
      cases choice' with
      | list _ iterated' =>
          cases iterated.symm.trans iterated'
          rfl
      | record other | scalar other => cases filled.kind.symm.trans other.kind
  | record filled =>
      cases choice' with
      | record _ => rfl
      | list other _ | scalar other => cases filled.kind.symm.trans other.kind
  | scalar filled =>
      cases choice' with
      | scalar _ => rfl
      | list other _ | record other => cases filled.kind.symm.trans other.kind

theorem length_of_elements {v : Value} {items : List Value}
    (elements : host.elements? v = some items) : host.length? v = some items.length := by
  cases v with
  | object look members => cases elements
  | range stop =>
      cases elements
      simp [Host.length?]
  | _ => exact congrArg (Option.map List.length) elements

theorem elements_of_iterate {v : Value} {items : List Value}
    (iterated : Adapter.sequence.iterate v host = .ok items host) :
    host.elements? v = some items := by
  have read : (get : Eval Host) host = .ok host host := rfl
  unfold Adapter.iterate at iterated
  dsimp only at iterated
  rw [bind_of_ok read] at iterated
  cases elements : host.elements? v with
  | none =>
      rw [elements] at iterated
      cases iterated
  | some others =>
      rw [elements] at iterated
      cases iterated
      rfl

theorem length_of_full {v : Value} (full : Adapter.hasNoLength v host = .ok false host) :
    host.length? v ≠ some 0 := by
  intro length
  have read : (get : Eval Host) host = .ok host host := rfl
  unfold Adapter.hasNoLength at full
  rw [bind_of_ok read, length] at full
  cases full

theorem items_of_filled {items : List Value} (filled : Filled adapterOf .list target host)
    (iterated : (adapterOf target).iterate target host = .ok items host) : items ≠ [] := by
  rintro rfl
  have kind := filled.kind
  have full := filled.full
  generalize adapterOf target = adapter at kind full iterated
  cases adapter with
  | sequence =>
      have full : Adapter.hasNoLength target host = .ok false host := by
        cases target <;> exact full
      exact length_of_full full (length_of_elements (elements_of_iterate iterated))
  | reversed =>
      cases target with
      | reversedList text items =>
          have none : items.reverse = [] := by injection iterated
          rw [List.reverse_eq_nil_iff.mp none] at full
          cases full
      | _ => cases iterated
  | once => cases iterated
  | _ => cases kind

theorem choice_renders {inverted : Bool} {chains : List Chain}
    (choice : Choice adapterOf chain host target inverted chains) : chains ≠ [] := by
  cases choice with
  | list filled iterated => simpa using items_of_filled filled iterated
  | absent _ | empty _ _ | record _ | scalar _ => simp

end Choosing

/-! Taking off layers that count nothing. -/

section Stripped
variable {adapterOf : Value → Adapter} {v target : Value}

theorem strip_closed (present : v.isAbsent = false)
    (closed : (adapterOf v).opening v = .closed) : strip adapterOf v = pure v := by
  rw [strip_eq, present, closed]
  rfl

theorem counting_not_pure (slot : Slot) :
    (countCall slot >>= settle adapterOf) ≠ pure target := by
  intro same
  let counted := Host.initial.countCall slot
  have ran : countCall slot .initial = .ok (.int (counted.calls slot)) counted := rfl
  have here := congrFun same .initial
  rw [bind_of_ok ran] at here
  unfold settle at here
  cases opening : (adapterOf (.int (counted.calls slot))).opening (.int (counted.calls slot)) with
  | fails error =>
      rw [opening] at here
      cases here
  | closed | opens _ | counts _ =>
      rw [opening] at here
      injection here with _ left
      have calls := congrFun (congrArg Host.calls left) slot
      simp [counted, Host.countCall, Host.initial] at calls

theorem strip_stripped (v : Value) (stripped : strip adapterOf v = pure target) :
    strip adapterOf target = pure target := by
  -- The recursion is on `v`, layer by layer, down to the value that is left.
  have whole := stripped
  rw [strip_eq] at stripped
  split at stripped
  · cases congrFun stripped .initial
    exact whole
  · split at stripped
    · cases congrFun stripped .initial
      exact whole
    · next inner opens =>
        have smaller := Adapter.size_opening opens
        exact strip_stripped inner stripped
    · next slot _ => exact absurd stripped (counting_not_pure slot)
    · cases congrFun stripped .initial
termination_by sizeOf v

theorem is_empty_stripped (stripped : strip adapterOf v = pure target) :
    isEmpty adapterOf v = bareEmpty adapterOf target := by
  rw [isEmpty, stripped]
  rfl

theorem kind_filled {kind : ValueKind} {host : Host} (stripped : strip adapterOf v = pure target)
    (filled : Filled adapterOf kind target host) : kindOf adapterOf target = pure kind := by
  rw [kindOf, strip_stripped v stripped, pure_bind, filled.present, ← filled.kind]
  rfl

end Stripped

section Chains
open Render
variable {settings : Settings} {chain : Chain} {start : Progress} {host : Host} {v target : Value}

theorem nodes_single (expand : Expand) (only : Node) (chain : Chain) :
    nodes settings expand [only] chain = node settings expand only chain := bind_pure _

/-- A section renders its body in its chains, once it has found them. -/
theorem section_of_chains {name : Text} {expand : Expand} {inverted : Bool} {line : Int}
    {body : List Node} {chains : List Chain} {found : Progress}
    (ran : sectionChains settings name inverted chain start = .ok chains found) :
    node settings expand (.sectionTag name inverted line body) chain start =
      chains.forM (nodes settings expand body) found := by
  show sectionTag settings name inverted _ chain start = _
  rw [section_eq, bind_of_ok ran]

theorem section_of_error {name : Text} {expand : Expand} {inverted : Bool} {line : Int}
    {body : List Node} {fault : Fault} {found : Progress}
    (ran : sectionChains settings name inverted chain start = .error fault found) :
    node settings expand (.sectionTag name inverted line body) chain start =
      .error fault found := by
  show sectionTag settings name inverted _ chain start = _
  rw [section_eq, bind_of_error ran]

theorem on_host_of_ok {α : Type} {read : Eval α} {result : α}
    (ran : read start.host = .ok result host) :
    onHost read start = .ok result { start with host } := by
  rw [onHost, ran]

theorem on_host_of_error {α : Type} {read : Eval α} {fault : Fault}
    (failed : read start.host = .error fault host) :
    onHost read start = .error fault { start with host } := by
  rw [onHost, failed]

def bodyChains (settings : Settings) (chain : Chain) (target : Value) :
    ValueKind → Render (List Chain)
  | .list => do
      let items ← onHost ((settings.adapterOf target).iterate target)
      return items.map (· :: chain)
  | .record => return [target :: chain]
  | .scalar => return [chain]

variable {name : Text} (looked : lookup settings.adapterOf false chain name start.host = .ok v host)
  (stripped : strip settings.adapterOf v = pure target)
include looked stripped

theorem chains_of_other {empty asked : Bool}
    (told : bareEmpty settings.adapterOf target host = .ok empty host) (other : empty ≠ asked) :
    sectionChains settings name asked chain start = .ok [] { start with host } := by
  rw [← is_empty_stripped stripped] at told
  rw [sectionChains, bind_of_ok (on_host_of_ok looked), bind_of_ok (on_host_of_ok told),
    if_pos (by simpa using other)]
  rfl

theorem chains_of_filled {kind : ValueKind} (filled : Filled settings.adapterOf kind target host) :
    sectionChains settings name false chain start =
      bodyChains settings chain target kind { start with host } := by
  have told := empty_of_filled filled
  rw [← is_empty_stripped stripped] at told
  have bare : onHost (strip settings.adapterOf v) { start with host } =
      .ok target { start with host } := by
    rw [stripped]
    rfl
  have kinded : onHost (kindOf settings.adapterOf target) { start with host } =
      .ok kind { start with host } := by
    rw [kind_filled stripped filled]
    rfl
  rw [sectionChains, bind_of_ok (on_host_of_ok looked), bind_of_ok (on_host_of_ok told),
    if_neg (by simp), if_neg (by simp), bind_of_ok bare, bind_of_ok kinded]
  cases kind <;> rfl

theorem chains_of_choice {inverted : Bool} {chains : List Chain}
    (choice : Choice settings.adapterOf chain host target inverted chains) :
    sectionChains settings name inverted chain start = .ok chains { start with host } := by
  have told := empty_of_choice choice
  rw [← is_empty_stripped stripped] at told
  cases choice with
  | absent _ | empty _ _ =>
      rw [sectionChains, bind_of_ok (on_host_of_ok looked), bind_of_ok (on_host_of_ok told)]
      rfl
  | list filled iterated =>
      rw [chains_of_filled looked stripped filled]
      exact bind_of_ok (on_host_of_ok iterated) _
  | record filled | scalar filled => exact chains_of_filled looked stripped filled

theorem chains_of_refusal {fault : Fault}
    (refusal : Refusal settings.adapterOf host target fault) :
    sectionChains settings name false chain start = .error fault { start with host } := by
  cases refusal with
  | emptiness present failed =>
      have told : isEmpty settings.adapterOf v host = .error fault host := by
        rw [is_empty_stripped stripped, bareEmpty, present]
        exact failed
      rw [sectionChains, bind_of_ok (on_host_of_ok looked),
        bind_of_error (on_host_of_error told)]
  | items filled failed =>
      rw [chains_of_filled looked stripped filled]
      exact bind_of_error (on_host_of_error failed) _

end Chains

end Mustache
