import Mustache.Proofs.Appending
import Mustache.Proofs.DottedPaths

/-!
Outer contexts cannot override what inner ones define. A name whose first segment is known, or
cannot be read, leads to the same with further contexts outside, and these are not asked for it.
So they have no part in a rendering that finds all the names it comes to.
-/

namespace Mustache

section Reading
variable {adapterOf : Value → Adapter} {chain : Chain} {host : Host}

def Answered (result : LookupResult) : Prop :=
  ∀ after, result ≠ .ok .missing after

theorem segment_outer {segment : Text}
    (answered : Answered (lookupSegment adapterOf segment chain host)) (outer : Chain) :
    lookupSegment adapterOf segment (chain ++ outer) host =
        lookupSegment adapterOf segment chain host ∧
      questionsOf adapterOf segment (chain ++ outer) host =
        questionsOf adapterOf segment chain host := by
  rw [lookup_segment_append, questions_of_append]
  cases looked : lookupSegment adapterOf segment chain host with
  | error fault after =>
      rw [bind_of_error looked]
      exact ⟨rfl, List.append_nil _⟩
  | ok v after =>
      have present : v.isMissing = false := by
        apply found_not_missing
        rintro rfl
        exact answered after looked
      rw [bind_of_ok looked, if_neg (ne_true_of_eq_false present), if_missing_of_present present]
      exact ⟨rfl, List.append_nil _⟩

theorem path_outer {segment : Text} {rest : Path}
    (answered : Answered (lookupSegment adapterOf segment chain host)) (required : Bool)
    (outer : Chain) :
    lookupPath adapterOf required (segment :: rest) (chain ++ outer) host =
        lookupPath adapterOf required (segment :: rest) chain host ∧
      pathQuestions adapterOf (segment :: rest) (chain ++ outer) host =
        pathQuestions adapterOf (segment :: rest) chain host := by
  obtain ⟨same, asked⟩ := segment_outer answered outer
  constructor
  · rw [lookupPath, lookupPath]
    exact bind_same same _
  · rw [pathQuestions, pathQuestions, asked, same]

def HeadAnswered (adapterOf : Value → Adapter) (chain : Chain) (name : Text) (host : Host) : Prop :=
  ∀ segment rest, Path.ofName name = segment :: rest →
    Answered (lookupSegment adapterOf segment chain host)

theorem lookup_outer {name : Text} (answered : HeadAnswered adapterOf chain name host)
    (required : Bool) (outer : Chain) :
    lookup adapterOf required (chain ++ outer) name host =
        lookup adapterOf required chain name host ∧
      questions adapterOf (chain ++ outer) name host = questions adapterOf chain name host := by
  unfold lookup questions
  cases split : Path.ofName name with
  | nil => exact absurd split (Path.segments_from_ne_nil true name)
  | cons segment rest => exact path_outer (answered segment rest split) required outer

/-- A value is found, or the host fails. -/
inductive Decided : LookupResult → Prop
  | found {v : Value} {after : Host} : v.isMissing = false → Decided (.ok v after)
  | failed {error : HostError} {after : Host} : Decided (.error (.host error) after)

theorem head_of_decided {name : Text} {required : Bool}
    (decided : Decided (lookup adapterOf required chain name host)) :
    HeadAnswered adapterOf chain name host := by
  intro segment rest split after none
  obtain ⟨lenient, strict⟩ := lookup_path_missing adapterOf rest none
  unfold lookup at decided
  rw [split] at decided
  cases required with
  | false =>
      rw [lenient] at decided
      cases decided with
      | found present => cases present
  | true =>
      rw [strict] at decided
      cases decided

theorem head_of_answered {name : Text}
    (answered : Answered (lookup adapterOf false chain name host)) :
    HeadAnswered adapterOf chain name host := by
  intro segment rest split after none
  apply answered after
  unfold lookup
  rw [split]
  exact (lookup_path_missing adapterOf rest none).1

end Reading

/-! A rendering with further contexts outside. -/

namespace Ahead
open Render

def nameSought? : Node → Option Text
  | .variableTag name _ | .sectionTag name _ _ _ => some name
  | .text _ | .partialTag _ _ _ | .unknownTag _ | .unknown => none

variable (settings : Settings)

/-- The rendering comes to a variable or a section of this name, in this chain. -/
def Seeks (ahead : Ahead) (name : Text) (chain : Chain) (host : Host) : Prop :=
  ∃ depth first rest start, Reaches settings ahead ⟨depth, first :: rest, chain, start⟩ ∧
    nameSought? first = some name ∧ start.host = host

/-- All names that the rendering comes to have an answer. -/
def AllAnswered (ahead : Ahead) : Prop :=
  ∀ name chain host, Seeks settings ahead name chain host →
    Answered (lookup settings.adapterOf false chain name host)

variable {settings}

theorem bind_next {α β : Type} {act : Render α} {next next' : α → Render β} {start : Progress}
    (same : ∀ result after, act start = .ok result after →
      next result after = next' result after) :
    (act >>= next) start = (act >>= next') start := by
  cases ran : act start with
  | ok result after => rw [bind_of_ok ran, bind_of_ok ran, same result after ran]
  | error fault after => rw [bind_of_error ran, bind_of_error ran]

theorem seeks_next {a b : Ahead} (next : Next settings a b) {name : Text} {chain : Chain}
    {host : Host} (seeks : Seeks settings b name chain host) :
    Seeks settings a name chain host := by
  obtain ⟨depth, first, rest, start, reached, named, same⟩ := seeks
  exact ⟨depth, first, rest, start, .later next reached, named, same⟩

theorem answered_next {a b : Ahead} (answered : AllAnswered settings a) (next : Next settings a b) :
    AllAnswered settings b :=
  fun name chain host seeks => answered name chain host (seeks_next next seeks)

section Outer
variable (outer : Chain) {depth : Nat} {chain : Chain} {start : Progress}

theorem answered_here {first : Node} {rest : List Node} {name : Text}
    (answered : AllAnswered settings ⟨depth, first :: rest, chain, start⟩)
    (named : nameSought? first = some name) :
    HeadAnswered settings.adapterOf chain name start.host :=
  head_of_answered (answered name chain start.host ⟨depth, first, rest, start, .here _, named, rfl⟩)

theorem on_host_outer {name : Text}
    (answered : HeadAnswered settings.adapterOf chain name start.host) (required : Bool) :
    onHost (lookup settings.adapterOf required (chain ++ outer) name) start =
      onHost (lookup settings.adapterOf required chain name) start := by
  unfold onHost
  rw [(lookup_outer answered required outer).1]

theorem section_chains_outer {name : Text}
    (answered : HeadAnswered settings.adapterOf chain name start.host) (inverted : Bool) :
    sectionChains settings name inverted (chain ++ outer) start =
      ((·.map (· ++ outer)) <$> sectionChains settings name inverted chain) start := by
  unfold sectionChains
  rw [map_bind]
  refine (bind_same (on_host_outer outer answered false) _).trans ?_
  refine congrFun (congrArg (bind _) (funext fun found => ?_)) start
  simp only [map_bind]
  congr 1
  funext empty
  split
  · rfl
  · split
    · rfl
    · simp only [map_bind]
      congr 1
      funext target
      congr 1
      funext kind
      cases kind with
      | list => simp [Function.comp_def]
      | record | scalar => rfl

theorem each_outer {name : Text} {inverted : Bool} {line : Int} {children rest : List Node}
    {found between : Progress} (earlier here later : List Chain)
    (answered : AllAnswered settings
      ⟨depth, .sectionTag name inverted line children :: rest, chain, start⟩)
    (inside : ∀ inner between, AllAnswered settings ⟨depth, children, inner, between⟩ →
      Render.nodes settings (expandPartial settings depth) children (inner ++ outer) between =
        Render.nodes settings (expandPartial settings depth) children inner between)
    (chains : sectionChains settings name inverted chain start =
      .ok (earlier ++ (here ++ later)) found)
    (before : earlier.forM (Render.nodes settings (expandPartial settings depth) children) found =
      .ok () between) :
    (here.map (· ++ outer)).forM (Render.nodes settings (expandPartial settings depth) children)
        between =
      here.forM (Render.nodes settings (expandPartial settings depth) children) between := by
  induction here generalizing earlier between with
  | nil => rfl
  | cons inner here ih =>
      have first := inside inner between (answered_next answered (.child chains before))
      refine (bind_same first _).trans (bind_next fun _ after ran => ?_)
      -- The chain just rendered is one of the earlier ones for the rest.
      apply ih (earlier ++ [inner])
      · simpa using chains
      · simp only [List.forM_eq_forM, List.forM_append] at before ⊢
        rw [bind_of_ok before]
        exact (bind_of_ok ran _).trans rfl

def OuterExpand (settings : Settings) (outer : Chain) (depth : Nat) : Prop :=
  ∀ name indent linked rest chain start,
    AllAnswered settings ⟨depth, .partialTag name indent linked :: rest, chain, start⟩ →
    expandPartial settings depth name indent linked (chain ++ outer) start =
      expandPartial settings depth name indent linked chain start

mutual
theorem node_outer (expand : OuterExpand settings outer depth) (first : Node) (rest : List Node)
    (chain : Chain) (start : Progress)
    (answered : AllAnswered settings ⟨depth, first :: rest, chain, start⟩) :
    node settings (expandPartial settings depth) first (chain ++ outer) start =
      node settings (expandPartial settings depth) first chain start := by
  match first with
  | .text _ | .unknownTag _ | .unknown => rfl
  | .variableTag name escape =>
      have head := answered_here answered rfl
      exact bind_same (on_host_outer outer head settings.strict) _
  | .partialTag name indent linked => exact expand name indent linked rest chain start answered
  | .sectionTag name inverted _ children =>
      have head := answered_here answered rfl
      rw [node, node, section_eq, section_eq]
      refine (bind_same (section_chains_outer outer head inverted) _).trans ?_
      rw [bind_map_left]
      refine bind_next fun chains found ran => ?_
      rw [← List.append_nil chains] at ran
      exact each_outer outer [] chains [] answered (nodes_outer expand children) ran rfl

theorem nodes_outer (expand : OuterExpand settings outer depth) (siblings : List Node)
    (chain : Chain) (start : Progress)
    (answered : AllAnswered settings ⟨depth, siblings, chain, start⟩) :
    Render.nodes settings (expandPartial settings depth) siblings (chain ++ outer) start =
      Render.nodes settings (expandPartial settings depth) siblings chain start := by
  match siblings with
  | [] => rfl
  | first :: rest =>
      have same := node_outer expand first rest chain start answered
      refine (bind_same same _).trans (bind_next fun _ after ran => ?_)
      exact nodes_outer expand rest chain after (answered_next answered (.sibling ran))
end

theorem expand_outer (depth : Nat) : OuterExpand settings outer depth := by
  induction depth with
  | zero => exact fun _ _ _ _ _ _ _ => rfl
  | succ depth ih =>
      intro name indent linked rest chain start answered
      rw [expand_eq, expand_eq]
      refine bind_next fun inside after ran => ?_
      exact nodes_outer outer ih inside chain after (answered_next answered (.included ran))

theorem run_outer {ahead : Ahead} (answered : AllAnswered settings ahead) :
    ({ ahead with chain := ahead.chain ++ outer } : Ahead).run settings = ahead.run settings :=
  nodes_outer outer (expand_outer outer ahead.depth) ahead.nodes ahead.chain ahead.start answered

/-- What is ahead with the contexts outside is ahead without them. -/
theorem next_outer {a b : Ahead} (answered : AllAnswered settings a)
    (next : Next settings { a with chain := a.chain ++ outer } b) :
    ∃ inner, b.chain = inner ++ outer ∧ Next settings a { b with chain := inner } := by
  obtain ⟨depth, nodes, chain, start⟩ := a
  cases next with
  | sibling ran =>
      rw [node_outer outer (expand_outer outer depth) _ _ chain start answered] at ran
      exact ⟨chain, rfl, .sibling ran⟩
  | @child _ name inverted line children rest _ inner earlier later _ found after chains before =>
      have head := answered_here answered rfl
      rw [section_chains_outer outer head inverted] at chains
      cases ran : sectionChains settings name inverted chain start with
      | error fault stopped =>
          rw [map_eq_pure_bind, bind_of_error ran] at chains
          cases chains
      | ok plain reached =>
          rw [map_eq_pure_bind, bind_of_ok ran] at chains
          -- The chains found are the ones without the outer contexts, with these at their ends.
          injection chains with split same
          subst same
          obtain ⟨earlier', others, rfl, rfl, more⟩ := List.map_eq_append_iff.mp split
          obtain ⟨inner', later', rfl, rfl, rfl⟩ := List.map_eq_cons_iff.mp more
          have each := each_outer outer [] earlier' (inner' :: later') answered
            (nodes_outer outer (expand_outer outer depth) children) ran rfl
          exact ⟨inner', rfl, .child ran (each.symm.trans before)⟩
  | included ran => exact ⟨chain, rfl, .included ran⟩

theorem reaches_outer {a b : Ahead} (answered : AllAnswered settings a)
    (reached : Reaches settings { a with chain := a.chain ++ outer } b) :
    ∃ inner, b.chain = inner ++ outer ∧ Reaches settings a { b with chain := inner } := by
  generalize same : ({ a with chain := a.chain ++ outer } : Ahead) = whole at reached
  induction reached generalizing a with
  | here =>
      subst same
      exact ⟨a.chain, rfl, .here a⟩
  | later next _ ih =>
      subst same
      obtain ⟨inner, split, plain⟩ := next_outer outer answered next
      obtain ⟨last, ended, reached⟩ := ih (answered_next answered plain) (by rw [← split])
      exact ⟨last, ended, .later plain reached⟩

/-- Nothing is sought with the contexts outside that is not sought without them, and what is
sought is asked of the same contexts and has the same answer. -/
theorem seeks_outer {ahead : Ahead} (answered : AllAnswered settings ahead) {name : Text}
    {whole : Chain} {host : Host}
    (seeks : Seeks settings { ahead with chain := ahead.chain ++ outer } name whole host) :
    ∃ inner, whole = inner ++ outer ∧ Seeks settings ahead name inner host ∧
      questions settings.adapterOf whole name host =
        questions settings.adapterOf inner name host ∧
      ∀ required, lookup settings.adapterOf required whole name host =
        lookup settings.adapterOf required inner name host := by
  obtain ⟨depth, first, rest, start, reached, named, same⟩ := seeks
  obtain ⟨inner, split, plain⟩ := reaches_outer outer answered reached
  have sought : Seeks settings ahead name inner host :=
    ⟨depth, first, rest, start, plain, named, same⟩
  have head := head_of_answered (answered name inner host sought)
  subst split
  exact ⟨inner, rfl, sought, (lookup_outer head false outer).2,
    fun required => (lookup_outer head required outer).1⟩

end Outer
end Ahead

/-- The variables and sections that the rendering evaluates are found, or cannot be read. -/
def Template.AllAnswered (registry : Registry) (depth : Nat) (template : Template)
    (contexts : Chain) (start : Progress) : Prop :=
  Ahead.AllAnswered (template.settings registry) (template.ahead depth contexts start)

/-- A rendering evaluates this name in this chain. -/
def Template.Seeks (registry : Registry) (depth : Nat) (template : Template) (contexts : Chain)
    (start : Progress) : Text → Chain → Host → Prop :=
  Ahead.Seeks (template.settings registry) (template.ahead depth contexts start)

/-- Outer contexts cannot override what inner ones define. A name that is found, or that the host
fails to look up, has the same answer with any contexts outside, after the same questions, and
nothing but the answers to these enters. If this is true of all names that a rendering comes to,
it does the same with any contexts outside, and asks none of them. -/
theorem outer_contexts_cannot_override (registry : Registry) (contexts outer : Chain) :
    let adapterOf := registry.adapterOf
    (∀ required name host, Decided (lookup adapterOf required contexts name host) →
      lookup adapterOf required (contexts ++ outer) name host =
          lookup adapterOf required contexts name host ∧
        questions adapterOf (contexts ++ outer) name host =
          questions adapterOf contexts name host ∧
        ∀ other, (∀ question ∈ questions adapterOf contexts name host,
            lookupInFrame other question.segment question.context =
              lookupInFrame adapterOf question.segment question.context) →
          lookup other required (contexts ++ outer) name host =
            lookup adapterOf required contexts name host) ∧
      ∀ (template : Template) depth start,
        (template.AllAnswered registry depth contexts start →
          template.renderTo registry depth (contexts ++ outer) start =
              template.renderTo registry depth contexts start ∧
            ∀ name whole host, template.Seeks registry depth (contexts ++ outer) start name whole
                host →
              ∃ inner, whole = inner ++ outer ∧
                template.Seeks registry depth contexts start name inner host ∧
                questions adapterOf whole name host = questions adapterOf inner name host ∧
                ∀ required, lookup adapterOf required whole name host =
                  lookup adapterOf required inner name host) ∧
        (template.AllAnswered registry depth contexts { start with sink := .open none } →
          template.render registry depth (contexts ++ outer) start =
            template.render registry depth contexts start) := by
  intro adapterOf
  constructor
  · intro required name host decided
    -- The head of a name that is decided has an answer, so the contexts outside are not reached.
    obtain ⟨same, asked⟩ := lookup_outer (head_of_decided decided) required outer
    refine ⟨same, asked, fun other answers => ?_⟩
    rw [← asked] at answers
    exact (path_answers answers).trans same
  · intro template depth start
    constructor
    · intro answered
      exact ⟨Ahead.run_outer outer answered, fun _ _ _ => Ahead.seeks_outer outer answered⟩
    · intro answered
      have same : template.renderTo registry depth (contexts ++ outer)
          { start with sink := .open none } = template.renderTo registry depth contexts
          { start with sink := .open none } := Ahead.run_outer outer answered
      unfold Template.render Render.toText
      rw [same]

def countingPage : Template :=
  ⟨[.sectionTag ['u'] false 1 [.variableTag ['n'] true]], .standard, .empty, .standard⟩

def countingStart : Progress := ⟨.initial, .open none, []⟩

inductive CountingAhead : Ahead → Prop
  | page : CountingAhead (countingPage.ahead 0 countingData countingStart)
  | inside : CountingAhead
      ⟨0, [.variableTag ['n'] true], countingObject :: countingData, countingStart⟩
  | done (chain : Chain) (start : Progress) : CountingAhead ⟨0, [], chain, start⟩

theorem counting_chains :
    Render.sectionChains (countingPage.settings .standard) ['u'] false countingData countingStart =
      .ok [countingObject :: countingData] countingStart := by
  cbv

theorem counting_next (a b : Ahead) (next : Ahead.Next (countingPage.settings .standard) a b)
    (here : CountingAhead a) : CountingAhead b := by
  cases here with
  | page =>
      cases next with
      | sibling _ => exact .done _ _
      | @child _ _ _ _ _ _ _ _ earlier _ _ _ _ chains before =>
          rw [counting_chains] at chains
          cases earlier with
          | nil =>
              cases chains
              cases before
              exact .inside
          | cons _ earlier =>
              injection chains with split _
              simp at split
  | inside =>
      cases next with
      | sibling _ => exact .done _ _
  | done chain start => cases next

theorem counting_page_answered :
    countingPage.AllAnswered .standard 0 countingData countingStart := by
  rintro name chain host ⟨depth, first, rest, state, reached, named, rfl⟩ after missing
  have here := Ahead.reaches_keep counting_next reached .page
  cases here with
  | page =>
      cases named
      have found : lookup Registry.standard.adapterOf false countingData ['u'] .initial =
          .ok countingObject .initial := by cbv
      cases found.symm.trans missing
  | inside =>
      cases named
      have found : lookup Registry.standard.adapterOf false (countingObject :: countingData) ['n']
          .initial = .ok (.int 1) (Host.initial.countCall [1]) := by cbv
      cases found.symm.trans missing

theorem counting_page_not_overridden :
    let adapterOf := Registry.standard.adapterOf
    let outer : Chain := [.mapping .dict none [(.str ['n'], .str ['x'])]]
    Decided (lookup adapterOf true countingData "u.n".toList .initial) ∧
      lookup adapterOf true (countingData ++ outer) "u.n".toList .initial =
        lookup adapterOf true countingData "u.n".toList .initial ∧
      countingPage.AllAnswered .standard 0 countingData countingStart ∧
      countingPage.render .standard 0 (countingData ++ outer) countingStart =
        countingPage.render .standard 0 countingData countingStart := by
  intro adapterOf outer
  obtain ⟨names, pages⟩ := outer_contexts_cannot_override .standard countingData outer
  have counted : lookup adapterOf true countingData "u.n".toList .initial =
      .ok (.int 1) (Host.initial.countCall [1]) := by cbv
  have decided : Decided (lookup adapterOf true countingData "u.n".toList .initial) := by
    rw [counted]
    exact .found rfl
  refine ⟨decided, (names true _ .initial decided).1, counting_page_answered, ?_⟩
  exact (pages countingPage 0 countingStart).2 counting_page_answered

end Mustache
