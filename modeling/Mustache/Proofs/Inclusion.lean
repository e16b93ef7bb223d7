import Mustache.Proofs.StandalonePartial
import Mustache.Proofs.Visits

/-!
A partial that stands alone on its line is the text it names, put in its place with every
line indented. What is rendered for its tag is what the text is read as there.
-/

namespace Mustache

/-- The questions `fewer` are the questions `more` without some of those for `name`. -/
def AsksBut (name : Text) (fewer more : List Text) : Prop :=
  fewer.Sublist more ∧ more.filter (· ≠ name) = fewer.filter (· ≠ name)

theorem asks_but_both (name other : Text) (fewer more : List Text)
    (asks : AsksBut name fewer more) : AsksBut name (other :: fewer) (other :: more) := by
  obtain ⟨shorter, same⟩ := asks
  refine ⟨shorter.cons_cons other, ?_⟩
  rw [List.filter_cons, List.filter_cons, same]

theorem asks_but_more (name : Text) (fewer more : List Text) (asks : AsksBut name fewer more) :
    AsksBut name fewer (name :: more) := by
  obtain ⟨shorter, same⟩ := asks
  refine ⟨shorter.cons name, ?_⟩
  rw [List.filter_cons, if_neg (by simp)]
  exact same

structure Progress.Asked (name : Text) (before after : Progress) : Prop where
  sink : after.sink = before.sink
  calls : after.host.calls = before.host.calls
  changes : after.host.changes = before.host.changes
  asked : ∀ number, after.host.asked number = before.host.asked number ∨
    after.host.asked number = name :: before.host.asked number

theorem asked_but {name : Text} {a b b' : Progress} (like : Progress.Like (AsksBut name) a b)
    (asked : b.Asked name b') : Progress.Like (AsksBut name) a b' where
  host :=
    { calls := like.host.calls.trans asked.calls.symm
      changes := like.host.changes.trans asked.changes.symm
      asked := by
        intro number
        have asks := like.host.asked number
        rcases asked.asked number with same | more
        · exact same ▸ asks
        · exact more ▸ asks_but_more name _ _ asks }
  text := by rw [like.text, asked.sink]
  roomy := like.roomy
  roomy' := asked.sink ▸ like.roomy'

def Terms.tagFirst (provider : Provider) (name text : Text) : Terms where
  asks more fewer := AsksBut name fewer more
  more other _ _ asks := asks_but_both name other _ _ asks
  holds := provider.Maps name text
  spares fault := fault = .tooDeep

def Terms.textFirst (provider : Provider) (name text : Text) : Terms where
  asks := AsksBut name
  more other _ _ asks := asks_but_both name other _ _ asks
  holds := provider.Maps name text
  spares fault := fault = .tooDeep

section Expansion
open Render
variable (settings : Settings) {name pad text : Text} {inner : Parsed}

theorem nodes_fetched {start : Progress} {host : Host}
    (fetched : settings.provider.fetch name start.host = .ok (.str text) host)
    (read : parse (Text.indentLines pad text) settings.delimiters = .ok inner) :
    ∃ notes, partialNodes settings name pad true start =
      .ok inner.nodes ⟨host, start.sink, notes⟩ := by
  have given : onHost (settings.provider.fetch name) start =
      .ok (.str text) { start with host } := by
    rw [onHost, fetched]
  have source : fetchPartial settings name pad true start =
      .ok (Text.indentLines pad text) { start with host } := by
    unfold fetchPartial
    rw [if_pos rfl]
    exact bind_of_ok given _
  rw [partialNodes, bind_of_ok source, read]
  exact ⟨_, rfl⟩

theorem expand_fetched {start : Progress} {host : Host}
    (fetched : settings.provider.fetch name start.host = .ok (.str text) host)
    (read : parse (Text.indentLines pad text) settings.delimiters = .ok inner) (depth : Nat)
    (chain : Chain) :
    ∃ notes, expandPartial settings (depth + 1) name pad true chain start =
      nodes settings (expandPartial settings depth) inner.nodes chain
        ⟨host, start.sink, notes⟩ := by
  obtain ⟨notes, stands⟩ := nodes_fetched settings fetched read
  refine ⟨notes, ?_⟩
  rw [expand_eq, bind_of_ok stands]

theorem expand_of_maps {start : Progress} (maps : settings.provider.Maps name text start.host)
    (read : parse (Text.indentLines pad text) settings.delimiters = .ok inner) (depth : Nat)
    (chain : Chain) :
    ∃ after, start.Asked name after ∧
      expandPartial settings (depth + 1) name pad true chain start =
        nodes settings (expandPartial settings depth) inner.nodes chain after := by
  obtain ⟨asked, fetched⟩ := maps
  obtain ⟨notes, expanded⟩ := expand_fetched settings fetched read depth chain
  refine ⟨_, ?_, expanded⟩
  exact ⟨rfl, rfl, rfl, Provider.asked_of_fetch fetched⟩

theorem expand_alone (depth : Nat) :
    SimExpand .strict (expandPartial settings depth) (expandPartial settings depth) :=
  sim_expand settings depth depth (Nat.le_refl _) fun less => absurd less (Nat.lt_irrefl _)

theorem sim_tag_first {provider : Provider} (same : settings.provider = provider)
    (read : parse (Text.indentLines pad text) settings.delimiters = .ok inner) (depth : Nat)
    (chain : Chain) :
    Sim (.tagFirst provider name text) (expandPartial settings depth name pad true chain)
      (nodes settings (expandPartial settings depth) inner.nodes chain) := by
  subst same
  have alone := expand_alone settings depth name pad true chain
  cases depth with
  | zero => exact sim_spared _ rfl _
  | succ depth =>
      refine ⟨alone.grows, fun a b like covers => ?_⟩
      have maps := covers.2 a.host (Host.before_refl _) (alone.grows a like.roomy).1
      obtain ⟨after, asked, expanded⟩ := expand_of_maps settings maps read depth chain
      have deeper : SimExpand (.tagFirst settings.provider name text)
          (expandPartial settings depth) (expandPartial settings (depth + 1)) :=
        sim_expand settings depth (depth + 1) (Nat.le_succ _) fun _ => rfl
      have inside := sim_nodes settings deeper inner.nodes chain
      rw [expanded] at covers ⊢
      refine inside.agree after b ?_ ⟨covers.1, fun host first last => ?_⟩
      · exact like_flip (fun _ _ => id) (asked_but (like_flip (fun _ _ => id) like) asked)
      · exact covers.2 host
          (Host.before_trans (Host.before_of_changes asked.changes.symm) first) last

theorem sim_text_first {provider : Provider} (same : settings.provider = provider)
    (read : parse (Text.indentLines pad text) settings.delimiters = .ok inner) (depth : Nat)
    (chain : Chain) :
    Sim (.textFirst provider name text)
      (nodes settings (expandPartial settings depth) inner.nodes chain)
      (expandPartial settings (depth + 1) name pad true chain) := by
  subst same
  have same : SimExpand (.textFirst settings.provider name text)
      (expandPartial settings depth) (expandPartial settings depth) :=
    sim_expand settings depth depth (Nat.le_refl _) fun _ => rfl
  have inside := sim_nodes settings same inner.nodes chain
  refine ⟨inside.grows, fun a b like covers => ?_⟩
  -- The provider is asked in a state of the host that only differs in what was asked.
  have maps := covers.2 b.host (Host.before_of_changes like.host.changes)
    (Host.before_trans (Host.before_of_changes like.host.changes.symm)
      (inside.grows a like.roomy).1)
  obtain ⟨after, asked, expanded⟩ := expand_of_maps settings maps read depth chain
  rw [expanded]
  exact inside.agree a after (asked_but like asked) covers

theorem strict_glue (depth : Nat) (base siblings : List Node) (lines : Nat) (chain : Chain) :
    Sim .strict
      (nodes settings (expandPartial settings depth)
        (Node.glue base (Node.laterAll lines siblings.reverse)).reverse chain)
      (nodes settings (expandPartial settings depth) base.reverse chain >>= fun _ =>
        nodes settings (expandPartial settings depth) siblings chain) := by
  have joined := strict_join settings (expand_alone settings depth) base.reverse
    (Node.laterAll lines siblings) chain
  rw [nodes_later] at joined
  rw [Node.glue_reverse, Node.later_all_reverse, List.reverse_reverse]
  exact joined

end Expansion

def Options.settings (options : Options) (provider : Provider) (registry : Registry) : Settings :=
  ⟨registry.adapterOf, options.errorOnMissing, options.delimiters, provider⟩

-- Siblings with the text in the place of the tag, and the same siblings with the tag.
def SameRendered (options : Options) (provider : Provider) (name text : Text)
    (inlined included : List Node) : Prop :=
  ∀ index : Registry × Nat,
    let settings := options.settings provider index.1
    let expand := Render.expandPartial settings
    Rendered (.tagFirst provider name text) settings (expand index.2) (expand index.2)
        included inlined ∧
      Rendered (.textFirst provider name text) settings (expand index.2) (expand (index.2 + 1))
        inlined included

theorem congruence_same_rendered (options : Options) (provider : Provider) (name text : Text) :
    Congruence (SameRendered options provider name text) := by
  refine congruence_all fun index => congruence_and (congruence_flip ?_) ?_
  · refine congruence_rendered ?_ (expand_alone _ _) (expand_alone _ _)
    exact sim_expand _ _ _ (Nat.le_refl _) fun _ => rfl
  · refine congruence_rendered ?_ (expand_alone _ _) (expand_alone _ _)
    exact sim_expand _ _ _ (Nat.le_succ _) fun _ => rfl

theorem same_rendered_tag (options : Options) (provider : Provider) {name pad text : Text}
    {inner : Parsed} (read : parse (Text.indentLines pad text) options.delimiters = .ok inner)
    (base : List Node) (lines : Nat) :
    SameRendered options provider name text
      (Node.glue base (Node.laterAll lines inner.nodes.reverse))
      (.partialTag name pad true :: base) := by
  intro index
  have refl := (congruence_same_rendered options provider name text).refl base index
  refine ⟨fun chain => ?_, fun chain => ?_⟩
  · rw [List.reverse_cons, nodes_snoc]
    refine sim_strict_follow (sim_bind (refl.1 chain) fun _ => ?_)
      (sim_symm (strict_glue _ _ base inner.nodes lines chain))
    exact sim_tag_first (options.settings provider index.1) rfl read index.2 chain
  · rw [List.reverse_cons, nodes_snoc]
    refine sim_strict_lead (strict_glue _ _ base inner.nodes lines chain)
      (sim_bind (refl.2 chain) fun _ => ?_)
    exact sim_text_first (options.settings provider index.1) rfl read index.2 chain

/-- A rendering whose partials are not nested too deeply, all through which `maps` holds of
the host's data. -/
def Completes {α : Type} (maps : Host → Prop) (start : Progress)
    (result : EStateM.Result Fault Progress α) : Prop :=
  (∀ after, result ≠ .error .tooDeep after) ∧
    ∀ host, start.host.Before host → host.Before (final result).host → maps host

/-- Two renderings, by the depth of the partials, that come to the same in states that are
`like`. If one of them completes, so does the other and in the same way; to include a text
takes one level of partials. -/
structure Includes {α : Type} (maps : Host → Prop) (like : Progress → Progress → Prop)
    (included inlined : Nat → Render α) : Prop where
  of_included : ∀ depth start, like start start → Completes maps start (included depth start) →
    Agree like (inlined depth start) (included depth start)
  of_inlined : ∀ depth start, like start start → Completes maps start (inlined depth start) →
    Agree like (inlined depth start) (included (depth + 1) start)

/-- The same data of the host, but for questions to providers for `name`. -/
def SameData (name : Text) (a b : Progress) : Prop := Host.Like (AsksBut name) a.host b.host

theorem same_data_self (name : Text) (start : Progress) : SameData name start start :=
  ⟨rfl, rfl, fun _ => ⟨List.Sublist.refl _, rfl⟩⟩

theorem includes_of_sims {α : Type} {provider : Provider} {name text : Text}
    {included inlined : Nat → Render α}
    (tag : ∀ depth, Sim (.tagFirst provider name text) (included depth) (inlined depth))
    (body : ∀ depth, Sim (.textFirst provider name text) (inlined depth) (included (depth + 1))) :
    Includes (provider.Maps name text) (Progress.Like (AsksBut name)) included inlined where
  of_included depth start like completes := by
    have covers : (Terms.tagFirst provider name text).Covers start (included depth start) := by
      refine ⟨?_, completes.2⟩
      rintro fault after failed rfl
      exact completes.1 after failed
    have agree := (tag depth).agree start start (like_flip (fun _ _ => id) like) covers
    exact agree_flip (fun a b (like : Progress.Like (fun more fewer => AsksBut name fewer more) a b) =>
      like_flip (fun _ _ => id) like) agree
  of_inlined depth start like completes := by
    refine (body depth).agree start start like ⟨?_, completes.2⟩
    rintro fault after failed rfl
    exact completes.1 after failed

theorem completes_of_text {maps : Host → Prop} {act : Render Unit} {start : Progress}
    (completes : Completes maps start (Render.toText act start)) :
    Completes maps { start with sink := .open none } (act { start with sink := .open none }) := by
  obtain ⟨shallow, all⟩ := completes
  unfold Render.toText at shallow all
  generalize act { start with sink := .open none } = ran at shallow all
  refine ⟨?_, ?_⟩
  · rintro after rfl
    exact shallow _ rfl
  · cases ran <;> exact all

theorem agree_text {name : Text} {act act' : Render Unit} {start : Progress}
    (agree : Agree (Progress.Like (AsksBut name)) (act { start with sink := .open none })
      (act' { start with sink := .open none })) :
    Agree (SameData name) (Render.toText act start) (Render.toText act' start) := by
  unfold Render.toText
  generalize act { start with sink := .open none } = ran at agree ⊢
  generalize act' { start with sink := .open none } = ran' at agree ⊢
  cases ran <;> cases ran'
  · exact ⟨agree.2.text, agree.2.host⟩
  · exact absurd agree id
  · exact absurd agree id
  · exact ⟨agree.1, agree.2.host⟩

-- A text has a sink of its own, which takes any number of pieces, wherever it is made.
theorem includes_text {maps : Host → Prop} {name : Text} {included inlined : Nat → Render Unit}
    (includes : Includes maps (Progress.Like (AsksBut name)) included inlined) :
    Includes maps (SameData name) (fun depth => Render.toText (included depth))
      (fun depth => Render.toText (inlined depth)) where
  of_included depth start _ completes :=
    agree_text (includes.of_included depth _ ⟨same_data_self name start, rfl, rfl, rfl⟩
      (completes_of_text completes))
  of_inlined depth start _ completes :=
    agree_text (includes.of_inlined depth _ ⟨same_data_self name start, rfl, rfl, rfl⟩
      (completes_of_text completes))

/-- A standalone partial means textual inclusion: with its tag or with the text that the
provider maps the name to, indented, in the place of the line, a source compiles or fails
alike, and what is compiled renders alike. -/
theorem standalone_partial_is_inclusion (options : Options) (provider : Provider)
    (line : PartialLine options.delimiters) (pre post text : Text) (ending : Ending)
    (inner : Parsed) (starts : pre.EndsLine)
    (outside : (scan pre options.delimiters).ending = .ok ending)
    (active : ending.delimiters = options.delimiters) (ends : text.EndsLine)
    (read : parse (Text.indentLines line.pad text) options.delimiters = .ok inner)
    (kept : inner.delimiters = options.delimiters) :
    SameOutcome
      (fun inlined included : Template => ∀ registry contexts,
        Includes (provider.Maps line.name text) (Progress.Like (AsksBut line.name))
            (included.renderTo registry · contexts) (inlined.renderTo registry · contexts) ∧
          Includes (provider.Maps line.name text) (SameData line.name)
            (included.render registry · contexts) (inlined.render registry · contexts))
      (Template.compile (pre ++ Text.indentLines line.pad text ++ post) provider options)
      (Template.compile (pre ++ line.source ++ post) provider options) := by
  have compiled := parse_included
    (congruence_same_rendered options provider line.name text) line pre post
    (Text.indentLines line.pad text) starts outside active (indent_lines_ends _ _ ends) read kept
    (same_rendered_tag options provider read)
  unfold Template.compile
  -- From here on it does not matter how the two sources were read.
  generalize parse (pre ++ Text.indentLines line.pad text ++ post) options.delimiters = inlined
    at compiled
  generalize parse (pre ++ line.source ++ post) options.delimiters = included at compiled
  cases inlined with
  | error error =>
      cases included with
      | error error' => exact compiled
      | ok included => exact absurd compiled id
  | ok inlined =>
      cases included with
      | error error' => exact absurd compiled id
      | ok included =>
          intro registry contexts
          have tag (depth : Nat) := (compiled (registry, depth)).1 contexts
          have body (depth : Nat) := (compiled (registry, depth)).2 contexts
          simp only [List.reverse_reverse] at tag body
          have includes := includes_of_sims tag body
          exact ⟨includes, includes_text includes⟩

def pageLine : PartialLine .standard where
  pad := [' ', '\t']
  name := ['p']
  brk := ['\n']
  opens := by decide
  visible := by simp [Delimiters.standard, Text.isSpace]
  blank := by simp [Text.isPadding]
  trimmed := by decide
  closed := by decide
  ended := Or.inl rfl

def pageProvider : Provider :=
  .dictionary (.mapping .dict none [(.str ['p'], .str "x\n\ny\n".toList)])

def pageStart : Progress := ⟨.initial, .open none, []⟩

theorem page_includes_text :
    ∃ included, Template.compile ("{{^s}}\n".toList ++ pageLine.source ++ "z{{/s}}".toList)
        pageProvider .standard = .ok included ∧
      ∃ after, included.render .standard 1 [] pageStart =
          .ok " \tx\n\n \ty\nz".toList after ∧ SameData ['p'] pageStart after := by
  have read : parse (Text.indentLines pageLine.pad "x\n\ny\n".toList) Options.standard.delimiters =
      .ok ⟨[.text " \tx\n\n \ty\n".toList], .standard⟩ := by cbv
  have whole : parse ("{{^s}}\n".toList ++ Text.indentLines pageLine.pad "x\n\ny\n".toList ++
      "z{{/s}}".toList) Options.standard.delimiters =
      .ok ⟨[.sectionTag ['s'] true 1 [.text " \tx\n\n \ty\nz".toList]], .standard⟩ := by cbv
  have outside : (scan "{{^s}}\n".toList Options.standard.delimiters).ending =
      .ok ⟨[], 2, .standard⟩ := by cbv
  have includes := standalone_partial_is_inclusion .standard pageProvider pageLine
    "{{^s}}\n".toList "z{{/s}}".toList "x\n\ny\n".toList ⟨[], 2, .standard⟩ _ (by decide)
    outside rfl (by decide) read rfl
  rw [Template.compile, whole] at includes
  obtain ⟨included, compiled, same⟩ := outcome_of_ok includes
  have entered (settings : Settings) (body : Chain → Render Unit) :
      Render.sectionTag settings ['s'] true body [] = body [] := by
    have absent : isEmpty settings.adapterOf .missing = pure true := by
      rw [isEmpty, strip]
      rfl
    have unknown : lookup settings.adapterOf false [] ['s'] = pure .missing := rfl
    unfold Render.sectionTag
    rw [unknown]
    show (Render.onHost (isEmpty settings.adapterOf .missing) >>= _) = _
    rw [absent]
    rfl
  have rendered : Template.render .standard 0
      ⟨[.sectionTag ['s'] true 1 [.text " \tx\n\n \ty\nz".toList]], .standard, pageProvider,
        .standard⟩ [] pageStart = .ok " \tx\n\n \ty\nz".toList pageStart := by
    unfold Template.render Template.renderTo Render.tree Render.nodes Render.node
    rw [entered]
    rfl
  have agree := (same .standard []).2.of_inlined 0 pageStart (same_data_self _ _)
  dsimp only at agree
  rw [rendered] at agree
  have completes : Completes (pageProvider.Maps ['p'] "x\n\ny\n".toList) pageStart
      (.ok " \tx\n\n \ty\nz".toList pageStart : EStateM.Result Fault Progress Text) := by
    refine ⟨?_, fun host _ _ => ⟨host.asked, rfl⟩⟩
    intro after failed
    cases failed
  obtain ⟨after, ran, data⟩ := agree_of_ok (agree completes)
  exact ⟨included, compiled, after, ran, data⟩

end Mustache
