import Mustache.Proofs.OuterContexts
import Mustache.Proofs.PlainData
import Mustache.Proofs.TagNames

/-!
A page in a layout. The page is rendered first, into a sink of its own, so a page that fails
leaves nothing behind. The layout then has what the page came to in front of all contexts, under
one name. Where it shows this name it writes the page as it is, and all other names mean what
they mean without the page.
-/

namespace Mustache

open Render Template

/-- A page in front of the contexts is read as a mapping, and what it came to as a text. -/
structure ContentRead (adapterOf : Value → Adapter) : Prop where
  frame : ∀ content, adapterOf (contentFrame content) = .mapping
  text : ∀ content, (adapterOf (.str content)).opening (.str content) = .closed

theorem content_read {adapterOf : Value → Adapter} (plain : PlainReading adapterOf) :
    ContentRead adapterOf where
  frame content := plain.dictionary _ _
  text content := by
    rw [plain.text]
    rfl

section Names
variable {adapterOf : Value → Adapter} (read : ContentRead adapterOf) {content : Text}
include read

theorem content_found (required : Bool) (contexts : Chain) (host : Host) :
    lookup adapterOf required (contentFrame content :: contexts) contentName host =
      .ok (.str content) host := by
  have known : lookupInFrame adapterOf contentName (contentFrame content) host =
      .ok (.str content) host := lookup_entry (read.frame content) (by decide) rfl
  exact (found_first ⟨by decide, by decide⟩ known rfl required contexts).1

theorem content_silent {segment : Text} (named : segment ≠ Path.self)
    (other : segment ≠ contentName) :
    lookupInFrame adapterOf segment (contentFrame content) = pure .missing := by
  have looked (host : Host) : (get : Eval Host) host = .ok host host := rfl
  have absent (host : Host) : host.entry (contentFrame content) segment = .absent := by
    have unknown : Value.find? segment (host.entries (contentFrame content)) = none :=
      (if_neg other.symm).trans rfl
    rw [contentFrame] at unknown ⊢
    simp only [Host.entry, unknown]
  rw [lookup_in_mapping (read.frame content) rfl named]
  funext host
  rw [Value.entry, bind_of_ok (looked host), absent]

/-- A name that begins with another segment means the same without the page, wherever the page
stands among the contexts. -/
theorem lookup_without_content {name : Text} (named : name ≠ Path.self)
    (other : Path.head name ≠ contentName) (required : Bool) (inner contexts : Chain) :
    lookup adapterOf required (inner ++ contentFrame content :: contexts) name =
      lookup adapterOf required (inner ++ contexts) name := by
  -- Only the first segment is asked of the contexts, and the page does not answer for it.
  obtain ⟨later, split⟩ := Path.name_head named
  have silent : lookupInFrame adapterOf (Path.head name) (contentFrame content) = pure .missing :=
    content_silent read (Path.head_not_self name) other
  have skipped : lookupSegment adapterOf (Path.head name) (contentFrame content :: contexts) =
      lookupSegment adapterOf (Path.head name) contexts := by
    rw [lookupSegment, silent]
    rfl
  have same : lookupSegment adapterOf (Path.head name)
      (inner ++ contentFrame content :: contexts) =
      lookupSegment adapterOf (Path.head name) (inner ++ contexts) := by
    funext host
    rw [lookup_segment_append, lookup_segment_append, skipped]
  unfold lookup
  rw [split, lookupPath, lookupPath, same]

end Names

namespace Ahead
variable (settings : Settings)

/-- What a rendering comes to outside all sections: in the siblings, and in what the partials
among them stand for. -/
inductive Outside : Ahead → Ahead → Prop
  | here (ahead : Ahead) : Outside ahead ahead
  | sibling {depth : Nat} {first : Node} {rest : List Node} {chain : Chain}
      {start after : Progress} {last : Ahead} :
      node settings (expandPartial settings depth) first chain start = .ok () after →
      Outside ⟨depth, rest, chain, after⟩ last →
      Outside ⟨depth, first :: rest, chain, start⟩ last
  | included {depth : Nat} {name indent : Text} {linked : Bool} {rest inside : List Node}
      {chain : Chain} {start after : Progress} {last : Ahead} :
      partialNodes settings name indent linked start = .ok inside after →
      Outside ⟨depth, inside, chain, after⟩ last →
      Outside ⟨depth + 1, .partialTag name indent linked :: rest, chain, start⟩ last

variable {settings}

theorem outside_chain {a b : Ahead} (outside : Outside settings a b) : b.chain = a.chain := by
  induction outside with
  | here => rfl
  | sibling _ _ ih => exact ih
  | included _ _ ih => exact ih

end Ahead

inductive Provider.Gives (provider : Provider) (linked : Bool) : Text → Prop
  | fetched {name text : Text} {host after : Host} : linked = true →
      provider.fetch name host = .ok (.str text) after → Provider.Gives provider linked text
  | unlinked : linked = false → Provider.Gives provider linked []

/-- Siblings that are in the tree, or in the tree of a text that the provider gave. -/
inductive Given (settings : Settings) (tree : List Node) : List Node → Prop
  | tree : Given settings tree tree
  | rest {first : Node} {rest : List Node} : Given settings tree (first :: rest) →
      Given settings tree rest
  | children {name : Text} {inverted : Bool} {line : Int} {children rest : List Node} :
      Given settings tree (.sectionTag name inverted line children :: rest) →
      Given settings tree children
  | parsed {name indent text : Text} {linked : Bool} {rest : List Node} {inner : Parsed} :
      Given settings tree (.partialTag name indent linked :: rest) →
      settings.provider.Gives linked text →
      parse (Text.indentLines indent text) settings.delimiters = .ok inner →
      Given settings tree inner.nodes

section Sources
variable {settings : Settings} {α β : Type}

theorem ok_of_bind {act : Render α} {next : α → Render β} {start after : Progress} {result : β}
    (ran : (act >>= next) start = .ok result after) :
    ∃ found between, act start = .ok found between ∧ next found between = .ok result after := by
  cases first : act start with
  | ok found between => exact ⟨found, between, rfl, (bind_of_ok first next).symm.trans ran⟩
  | error fault between =>
      rw [bind_of_error first] at ran
      cases ran

theorem str_of_text {host : Host} {indent text : Text} {v : Value}
    (searched : Provider.textOf host indent v = .ok text) : v = .str text := by
  unfold Provider.textOf at searched
  split at searched
  · cases searched
    rfl
  · cases searched
  · split at searched
    · cases searched
    · split at searched <;> cases searched

theorem source_given {name indent source : Text} {linked : Bool} {start after : Progress}
    (fetched : fetchPartial settings name indent linked start = .ok source after) :
    ∃ text, settings.provider.Gives linked text ∧ source = Text.indentLines indent text := by
  rw [fetch_eq] at fetched
  obtain ⟨v, between, asked, indented⟩ := ok_of_bind fetched
  obtain ⟨progress, _, _, searched⟩ := ok_of_bind indented
  cases told : Provider.textOf progress.host indent v with
  | error error =>
      rw [told] at searched
      cases searched
  | ok text =>
      rw [told] at searched
      cases searched
      obtain rfl := str_of_text told
      refine ⟨text, ?_, rfl⟩
      -- Without a provider the text is empty; with one it is what was fetched.
      cases linked with
      | false =>
          cases asked
          exact .unlinked rfl
      | true =>
          rw [if_pos rfl, onHost] at asked
          cases given : settings.provider.fetch name start.host with
          | error fault later =>
              rw [given] at asked
              cases asked
          | ok found later =>
              rw [given] at asked
              cases asked
              exact .fetched rfl given

theorem stands_for_given {name indent : Text} {linked : Bool} {start after : Progress}
    {inside : List Node}
    (stands : partialNodes settings name indent linked start = .ok inside after) :
    ∃ text inner, settings.provider.Gives linked text ∧
      parse (Text.indentLines indent text) settings.delimiters = .ok inner ∧
      inside = inner.nodes := by
  obtain ⟨source, _, fetched, later⟩ := ok_of_bind stands
  obtain ⟨_, _, _, later⟩ := ok_of_bind later
  obtain ⟨text, gives, rfl⟩ := source_given fetched
  cases read : parse (Text.indentLines indent text) settings.delimiters with
  | error error =>
      rw [read] at later
      cases later
  | ok inner =>
      rw [read] at later
      cases later
      exact ⟨text, inner, gives, read, rfl⟩

theorem next_given {tree : List Node} (a b : Ahead) (next : Ahead.Next settings a b)
    (given : Given settings tree a.nodes) : Given settings tree b.nodes := by
  cases next with
  | sibling _ => exact .rest given
  | child _ _ => exact .children given
  | included stands =>
      obtain ⟨text, inner, gives, read, rfl⟩ := stands_for_given stands
      exact .parsed given gives read

end Sources

/-- A layout with what the page came to in front of the contexts. -/
structure ShowsPage (registry : Registry) (depth : Nat) (layout : Template) (contexts : Chain)
    (content : Text) (start : Progress) : Prop where
  /-- Outside all sections the page is written whole wherever it is named. -/
  whole : ∀ ahead escape rest,
    Ahead.Outside (layout.settings registry)
      (layout.ahead depth (contentFrame content :: contexts) start) ahead →
    ahead.nodes = .variableTag contentName escape :: rest →
    node (layout.settings registry) (expandPartial (layout.settings registry) ahead.depth)
        (.variableTag contentName escape) ahead.chain ahead.start =
      write (if escape then content.escapeHtml else content) ahead.start
  /-- Other names are looked up as if there were no page, whatever was pushed in front of it. -/
  others : ∀ required inner name, name ≠ Path.self → Path.head name ≠ contentName →
    lookup registry.adapterOf required (inner ++ contentFrame content :: contexts) name =
      lookup registry.adapterOf required (inner ++ contexts) name

theorem shows_page {registry : Registry} (read : ContentRead registry.adapterOf) (depth : Nat)
    (layout : Template) (contexts : Chain) (content : Text) (start : Progress) :
    ShowsPage registry depth layout contexts content start where
  whole := by
    rintro ⟨_, _, chain, now⟩ escape rest outside rfl
    obtain rfl : chain = contentFrame content :: contexts := Ahead.outside_chain outside
    exact variable_of_text escape (content_found read _ contexts now.host) (read.text content)
  others required inner name named other :=
    lookup_without_content read named other required inner contexts

/-- A page is put into a layout as a whole or not at all. If the page fails, the layout is not
begun and the sink is as it was. If it does not, what is written is what the layout writes with
the page in front of the contexts, put behind what is in the sink. All that is parsed then are
texts that the provider gives, and where a page is read as a mapping with a text, that text is
written whole, and stands in the way of no other name. -/
theorem layout_takes_whole_page (registry : Registry) (depth : Nat) (page layout : Template)
    (contexts : Chain) (start : Progress) :
    (∀ fault after, page.render registry depth contexts start = .error fault after →
      page.renderToInLayout registry depth layout contexts start = .error fault after ∧
        after.sink = start.sink) ∧
    ∀ content between, page.render registry depth contexts start = .ok content between →
      let framed := contentFrame content :: contexts
      between.sink = start.sink ∧
      page.renderToInLayout registry depth layout contexts start =
        layout.renderTo registry depth framed between ∧
      layout.renderTo registry depth framed between =
        onState (·.behind start.sink.pieces)
          (layout.renderTo registry depth framed
            { between with sink := ⟨[], start.sink.room⟩ }) ∧
      (∀ ahead, Ahead.Reaches (layout.settings registry) (layout.ahead depth framed between) ahead →
        Given (layout.settings registry) layout.nodes ahead.nodes) ∧
      (ContentRead registry.adapterOf →
        ShowsPage registry depth layout contexts content between) := by
  constructor
  · intro fault after failed
    -- The page has a sink of its own, and the one that was there is put back in both cases.
    refine ⟨bind_of_error failed _, ?_⟩
    obtain ⟨stopped, -, rfl⟩ := render_to_of_render_error failed
    rfl
  · intro content between rendered framed
    have kept : between.sink = start.sink := by
      obtain ⟨stopped, -, -, rfl⟩ := render_to_of_render rendered
      rfl
    refine ⟨kept, bind_of_ok rendered _, ?_, fun ahead reached => ?_, fun read => ?_⟩
    · have appends : Appends (layout.renderTo registry depth framed) :=
        appends_run depth layout.nodes framed
      rw [← kept, ← appends, behind_fresh]
    · exact Ahead.reaches_keep next_given reached .tree
    · exact shows_page read depth layout contexts content between

def tagPage : Template := ⟨[.text "<\x7b\x7bx\x7d\x7d>".toList], .standard, .empty, .standard⟩

def failingPage : Template :=
  ⟨[.text ['a'], .variableTag ['x'] true], .standard, .empty, ⟨true, .standard⟩⟩

def shell : Template :=
  ⟨[.variableTag contentName true, .partialTag ['p'] [] true, .variableTag ['t'] true], .standard,
    .dictionary (.mapping .dict none [(.str ['p'], .str "\x7b\x7b&content\x7d\x7d".toList)]),
    ⟨true, .standard⟩⟩

def shellData : Chain :=
  [.mapping .dict none [(.str contentName, .str ['y']), (.str ['t'], .str ['z'])]]

def shellStart : Progress := ⟨.initial, ⟨[['s']], none⟩, []⟩

theorem shell_takes_pages :
    failingPage.renderToInLayout .standard 1 shell shellData shellStart =
        .error (.missingVariable ['x']) shellStart ∧
      ∃ after, tagPage.renderToInLayout .standard 1 shell shellData shellStart = .ok () after ∧
        after.sink.text = "s&lt;\x7b\x7bx\x7d\x7d&gt;<\x7b\x7bx\x7d\x7d>z".toList ∧
        ShowsPage .standard 1 shell shellData "<\x7b\x7bx\x7d\x7d>".toList shellStart := by
  have failed : failingPage.render .standard 1 shellData shellStart =
      .error (.missingVariable ['x']) shellStart := by cbv
  have rendered : tagPage.render .standard 1 shellData shellStart =
      .ok "<\x7b\x7bx\x7d\x7d>".toList shellStart := by cbv
  have shown : shell.renderTo .standard 1
      (contentFrame "<\x7b\x7bx\x7d\x7d>".toList :: shellData) shellStart =
        .ok () ⟨.initial, ⟨["z".toList, "<\x7b\x7bx\x7d\x7d>".toList,
          "&lt;\x7b\x7bx\x7d\x7d&gt;".toList, "s".toList], none⟩,
          [.expanded ['p'] 1, .parsed 1 1]⟩ := by cbv
  constructor
  · exact ((layout_takes_whole_page .standard 1 failingPage shell shellData shellStart).1 _ _
      failed).1
  · obtain ⟨-, framed, -, -, shows_⟩ :=
      (layout_takes_whole_page .standard 1 tagPage shell shellData shellStart).2 _ _ rendered
    exact ⟨_, framed.trans shown, by decide, shows_ (content_read standard_plain)⟩

end Mustache
