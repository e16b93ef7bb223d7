import Mustache.Proofs.NameTrees

/-!
The rendering of a partial that names itself. It follows the tree that is rendered: each node
is asked for its name and its kids before all the nodes around it, and answers. By induction on
the tree the rendering ends, with the tree written out.
-/

namespace Mustache

theorem tree_source_parsed : parse treeSource .standard = .ok ⟨[nodeTag], .standard⟩ := by cbv

theorem node_source_parsed :
    parse (Text.indentLines [] nodeSource) .standard = .ok ⟨nodeNodes, .standard⟩ := by cbv

/-- A rendering succeeds, adds `text` to what is written and leaves the data as in `host`,
whatever providers were asked for. -/
def Shows (text : Text) (host : Host) (start : Progress)
    (result : EStateM.Result Fault Progress Unit) : Prop :=
  ∃ after, host.Same after ∧ Adds text after start result

structure Ready (host : Host) (start : Progress) : Prop where
  same : host.Same start.host
  roomy : start.sink.room = none

section Showing
variable {text more : Text} {host : Host} {start : Progress}

theorem shows_then {first second : Render Unit} (here : Shows text host start (first start))
    (next : ∀ done, Ready host done → Shows more host done (second done)) :
    Shows (text ++ more) host start ((first >>= fun _ => second) start) := by
  obtain ⟨between, same, done, ran, rfl, roomy, wrote⟩ := here
  obtain ⟨after, same', last, ran', left, roomy', wrote'⟩ := next done ⟨same, roomy⟩
  refine ⟨after, same', last, (bind_of_ok ran _).trans ran', left, roomy', ?_⟩
  rw [wrote', wrote, List.append_assoc]

theorem shows_nothing (ready : Ready host start) : Shows [] host start (.ok () start) :=
  ⟨start.host, ready.same, start, rfl, rfl, ready.roomy, (List.append_nil _).symm⟩

theorem shows_write (content : Text) (ready : Ready host start) :
    Shows content host start (Render.write content start) :=
  ⟨start.host, ready.same, adds_write content ready.roomy⟩

theorem ready_of_shows {result : EStateM.Result Fault Progress Unit} {after : Progress}
    (shown : Shows text host start result) (ran : result = .ok () after) : Ready host after := by
  obtain ⟨_, same, done, ended, rfl, roomy, -⟩ := shown
  cases ran.symm.trans ended
  exact ⟨same, roomy⟩

end Showing

section Rendering
open Render NameTree
variable {settings : Settings} {host : Host} {start : Progress}

theorem kids_chains {name : Text} {kids : List NameTree} {v : Value}
    (held : (NameTree.node name kids).HeldBy settings.adapterOf host v) (ready : Ready host start)
    (around : Chain) :
    ∃ items, List.Forall₂ (HeldBy settings.adapterOf host) kids items ∧
      sectionChains settings kidsKey false (v :: around) start =
        .ok (items.map (· :: v :: around)) start := by
  obtain ⟨list, items, known, sequence, elements, all⟩ := kids_found held ready.same
  have present := present_of_elements elements
  have looked := (found_first ⟨by decide, by decide⟩ known (missing_of_present present) false
    around).1
  have bare : strip settings.adapterOf list = pure list :=
    strip_closed present (by rw [sequence]; rfl)
  have read : (get : Eval Host) start.host = .ok start.host start.host := rfl
  have counted : Adapter.sequence.isEmpty list start.host =
      .ok (decide (items.length = 0)) start.host := by
    have told : Adapter.hasNoLength list start.host =
        .ok (decide (items.length = 0)) start.host := by
      rw [Adapter.hasNoLength, bind_of_ok read, length_of_elements elements]
      rfl
    exact told
  refine ⟨items, all, ?_⟩
  -- A list without kids is empty, so its section is left out.
  by_cases none : items = []
  · have told : bareEmpty settings.adapterOf list start.host = .ok true start.host := by
      rw [none] at counted
      rw [bareEmpty, present, sequence]
      exact counted
    rw [chains_of_other looked bare told (by decide), none]
    rfl
  · have full : Filled settings.adapterOf .list list start.host := by
      refine ⟨present, ?_, by rw [sequence]; rfl⟩
      rw [sequence, counted]
      simp [none]
    have iterated : (settings.adapterOf list).iterate list start.host = .ok items start.host := by
      rw [sequence, Adapter.iterate, bind_of_ok read, elements]
      rfl
    exact chains_of_choice looked bare (.list full iterated)

theorem variable_shown {name : Text} {kids : List NameTree} {v : Value} {expand : Expand}
    (held : (NameTree.node name kids).HeldBy settings.adapterOf host v) (ready : Ready host start)
    (around : Chain) :
    Shows name.escapeHtml host start
      (node settings expand (.variableTag nameKey true) (v :: around) start) := by
  have looked := (found_first ⟨by decide, by decide⟩ (name_found held ready.same) rfl
    settings.strict around).1
  have closed : (settings.adapterOf (.str name)).opening (.str name) = .closed := by
    cases held with
    | node _ _ closed _ _ _ _ => exact closed
  rw [variable_of_text true looked closed]
  exact shows_write name.escapeHtml ready

structure NodePartial (settings : Settings) (host : Host) : Prop where
  standard : settings.delimiters = .standard
  maps : settings.provider.Maps nodeName nodeSource host

theorem partial_stands (given : NodePartial settings host) (ready : Ready host start) :
    ∃ between, Ready host between ∧ between.sink = start.sink ∧
      partialNodes settings nodeName [] true start = .ok nodeNodes between := by
  obtain ⟨asked, fetched⟩ := maps_same ready.same given.maps
  have read := node_source_parsed
  rw [← given.standard] at read
  obtain ⟨notes, stands⟩ := nodes_fetched settings fetched read
  have still : host.Same { start.host with asked } :=
    same_trans ready.same (same_asked start.host asked)
  exact ⟨⟨{ start.host with asked }, start.sink, notes⟩, ⟨still, ready.roomy⟩, rfl, stands⟩

theorem brackets_shown {inside : Text} {expand : Expand} {chain : Chain} (ready : Ready host start)
    (here : ∀ done, Ready host done →
      Shows inside host done (expand nodeName [] true chain done)) :
    Shows (['('] ++ inside ++ [')']) host start (nodes settings expand kidNodes chain start) := by
  have shown : Shows (['('] ++ (inside ++ ([')'] ++ []))) host start
      (nodes settings expand kidNodes chain start) := by
    refine shows_then (shows_write ['('] ready) fun opened ready => ?_
    refine shows_then (here opened ready) fun done ready => ?_
    exact shows_then (shows_write [')'] ready) fun closed ready => shows_nothing ready
  rwa [List.append_nil, ← List.append_assoc] at shown

mutual
/-- The partial shows the tree that the innermost context holds, whatever is around it. -/
theorem node_shown (given : NodePartial settings host) (tree : NameTree) {v : Value}
    (held : tree.HeldBy settings.adapterOf host v) {depth : Nat} (deep : tree.height ≤ depth)
    (around : Chain) {start : Progress} (ready : Ready host start) :
    Shows tree.written host start
      (expandPartial settings depth nodeName [] true (v :: around) start) := by
  match tree with
  | .node name kids =>
      -- One level of the depth is used up here, and the kids are one level lower than the node.
      obtain ⟨depth, rfl⟩ := Nat.exists_eq_add_one_of_ne_zero (Nat.ne_zero_of_lt deep)
      obtain ⟨between, ready, sink, stands⟩ := partial_stands given ready
      have shown : Shows (name.escapeHtml ++ writtenAll kids) host between
          (nodes settings (expandPartial settings depth) nodeNodes (v :: around) between) := by
        refine shows_then (variable_shown held ready around) fun done ready => ?_
        obtain ⟨items, all, chains⟩ := kids_chains held ready around
        rw [nodes_single, section_of_chains chains]
        exact kids_shown given kids all (Nat.le_of_succ_le_succ deep) (v :: around) ready
      obtain ⟨after, same, done, ran, left, roomy, wrote⟩ := shown
      rw [expand_eq, bind_of_ok stands]
      exact ⟨after, same, done, ran, left, roomy, by rw [wrote, sink]; rfl⟩

theorem kids_shown (given : NodePartial settings host) (kids : List NameTree) {items : List Value}
    (held : List.Forall₂ (HeldBy settings.adapterOf host) kids items) {depth : Nat}
    (deep : heightAll kids ≤ depth) (around : Chain) {start : Progress}
    (ready : Ready host start) :
    Shows (writtenAll kids) host start
      ((items.map (· :: around)).forM (nodes settings (expandPartial settings depth) kidNodes)
        start) := by
  match kids, items, held with
  | [], [], _ => exact shows_nothing ready
  | kid :: rest, item :: others, .cons first later =>
      obtain ⟨here, deeper⟩ := Nat.max_le.mp deep
      refine shows_then (brackets_shown ready fun done ready => ?_) fun done ready => ?_
      · exact node_shown given kid first here around ready
      · exact kids_shown given rest later deeper around ready
end

end Rendering

/-! What such a rendering asks for. -/
section Asking
open Render NameTree
variable {settings : Settings} {host : Host} {tree : NameTree} {outer : Chain}

/-- What is ahead at a part of the tree: the tag of the partial with the text around it, or what
the partial stands for. Both stop only where the part stops. -/
inductive PartAhead (settings : Settings) (host : Host) (tree : NameTree) (outer : Chain) :
    Ahead → Prop
  | tags {part : NameTree} {v : Value} {around : Chain} {depth : Nat} {siblings : List Node}
      {start : Progress} :
      Descent settings.adapterOf host tree outer part v around → part.height ≤ depth →
      (∀ sibling ∈ siblings, sibling = nodeTag ∨ ∃ content, sibling = .text content) →
      Ready host start → PartAhead settings host tree outer ⟨depth, siblings, v :: around, start⟩
  | inside {part : NameTree} {v : Value} {around : Chain} {depth : Nat} {siblings : List Node}
      {start : Progress} :
      Descent settings.adapterOf host tree outer part v around → part.height ≤ depth + 1 →
      (∀ sibling ∈ siblings, sibling ∈ nodeNodes) →
      Ready host start → PartAhead settings host tree outer ⟨depth, siblings, v :: around, start⟩

theorem descent_holds {part : NameTree} {v : Value} {around : Chain}
    (descent : Descent settings.adapterOf host tree outer part v around) :
    part.HeldBy settings.adapterOf host v := by
  cases descent with
  | root held => exact held
  | kid _ _ held => exact held

variable {part : NameTree} {v : Value} {around : Chain} {depth : Nat} {start after : Progress}
  (given : NodePartial settings host)
  (descent : Descent settings.adapterOf host tree outer part v around)
include given descent

theorem tags_leave {sibling : Node} (deep : part.height ≤ depth) (ready : Ready host start)
    (known : sibling = nodeTag ∨ ∃ content, sibling = .text content)
    (ran : node settings (expandPartial settings depth) sibling (v :: around) start =
      .ok () after) : Ready host after := by
  rcases known with rfl | ⟨content, rfl⟩
  · exact ready_of_shows (node_shown given part (descent_holds descent) deep around ready) ran
  · exact ready_of_shows (shows_write content ready) ran

theorem kids_leave {name : Text} {kids : List NameTree} {items : List Value}
    (split : part = .node name kids) (deep : part.height ≤ depth + 1) (ready : Ready host start)
    (held : List.Forall₂ (HeldBy settings.adapterOf host) kids items)
    {earlier later : List Value} (some : items = earlier ++ later)
    (ran : (earlier.map (· :: v :: around)).forM
      (nodes settings (expandPartial settings depth) kidNodes) start = .ok () after) :
    Ready host after := by
  subst split some
  have first := List.forall₂_take earlier.length held
  rw [List.take_left] at first
  have low : heightAll (kids.take earlier.length) ≤ depth := by
    rw [height_all_le]
    intro kid member
    exact height_all_le.mp (Nat.le_of_succ_le_succ deep) kid (List.mem_of_mem_take member)
  exact ready_of_shows (kids_shown given _ first low (v :: around) ready) ran

theorem inside_leaves {sibling : Node} (deep : part.height ≤ depth + 1) (ready : Ready host start)
    (known : sibling ∈ nodeNodes)
    (ran : node settings (expandPartial settings depth) sibling (v :: around) start =
      .ok () after) : Ready host after := by
  obtain ⟨name, kids⟩ := part
  have held := descent_holds descent
  rcases List.mem_pair.mp known with rfl | rfl
  · exact ready_of_shows (variable_shown held ready around) ran
  · obtain ⟨items, all, chains⟩ := kids_chains held ready around
    rw [section_of_chains chains] at ran
    exact kids_leave given descent rfl deep ready all (List.append_nil items).symm ran

theorem kid_ahead {earlier later : List Chain} {inner : Chain} {found : Progress}
    (deep : part.height ≤ depth + 1) (ready : Ready host start)
    (chains : sectionChains settings kidsKey false (v :: around) start =
      .ok (earlier ++ inner :: later) found)
    (before : earlier.forM (nodes settings (expandPartial settings depth) kidNodes) found =
      .ok () after) :
    PartAhead settings host tree outer ⟨depth, kidNodes, inner, after⟩ := by
  obtain ⟨name, kids⟩ := part
  obtain ⟨items, all, known⟩ := kids_chains (descent_holds descent) ready around
  have answers := known.symm.trans chains
  injection answers with split same
  subst same
  obtain ⟨first, rest, whole, rfl, more⟩ := List.map_eq_append_iff.mp split
  obtain ⟨item, others, rfl, rfl, -⟩ := List.map_eq_cons_iff.mp more
  have left := kids_leave given descent rfl deep ready all whole before
  have here := List.forall₂_drop first.length all
  rw [whole, List.drop_left] at here
  obtain ⟨kid, others', held, -, kids_from⟩ := List.forall₂_cons_right_iff.mp here
  have member : kid ∈ kids := List.mem_of_mem_drop (kids_from ▸ List.mem_cons_self)
  have low := height_all_le.mp (Nat.le_of_succ_le_succ deep) kid member
  -- What was ahead at the node is left behind: the kid is now the part in front.
  refine .tags (.kid descent member held) low ?_ left
  intro sibling listed
  simp only [kidNodes, List.mem_cons, List.not_mem_nil, or_false] at listed
  rcases listed with rfl | rfl | rfl
  · exact .inr ⟨_, rfl⟩
  · exact .inl rfl
  · exact .inr ⟨_, rfl⟩

omit descent in
theorem part_next (a b : Ahead) (next : Ahead.Next settings a b)
    (here : PartAhead settings host tree outer a) : PartAhead settings host tree outer b := by
  cases here with
  | tags descent deep known ready =>
      cases next with
      | sibling ran =>
          have left := tags_leave given descent deep ready (known _ List.mem_cons_self) ran
          exact .tags descent deep (fun _ later => known _ (List.mem_cons_of_mem _ later)) left
      | child _ _ =>
          -- Neither the tag of the partial nor a text has children.
          rcases known _ List.mem_cons_self with tag | ⟨_, text⟩
          · cases tag
          · cases text
      | included ran =>
          rcases known _ List.mem_cons_self with tag | ⟨_, text⟩
          · cases tag
            obtain ⟨between, ready, -, stands⟩ := partial_stands given ready
            cases stands.symm.trans ran
            exact .inside descent deep (fun _ => id) ready
          · cases text
  | inside descent deep known ready =>
      cases next with
      | sibling ran =>
          have left := inside_leaves given descent deep ready (known _ List.mem_cons_self) ran
          exact .inside descent deep (fun _ later => known _ (List.mem_cons_of_mem _ later)) left
      | child chains before =>
          rcases List.mem_pair.mp (known _ List.mem_cons_self) with tag | tag
          · cases tag
          · cases tag
            exact kid_ahead given descent deep ready chains before
      | included _ =>
          rcases List.mem_pair.mp (known _ List.mem_cons_self) with tag | tag <;> cases tag

omit descent in
theorem part_asks {ahead : Ahead} (first : PartAhead settings host tree outer ahead) {name : Text}
    {chain : Chain} {now : Host} (seeks : Ahead.Seeks settings ahead name chain now) :
    ∃ part v around, chain = v :: around ∧
      Descent settings.adapterOf host tree outer part v around ∧
      (name = nameKey ∨ name = kidsKey) ∧
      questions settings.adapterOf chain name now = [⟨name, v⟩] := by
  obtain ⟨depth, sought, rest, start, reached, named, rfl⟩ := seeks
  have here := Ahead.reaches_keep (part_next given) reached first
  cases here with
  | tags _ _ known _ =>
      rcases known _ List.mem_cons_self with rfl | ⟨_, rfl⟩ <;> cases named
  | @inside part v around _ _ _ descent _ known ready =>
      refine ⟨part, v, around, rfl, descent, ?_⟩
      obtain ⟨own, kids⟩ := part
      have held := descent_holds descent
      rcases List.mem_pair.mp (known _ List.mem_cons_self) with rfl | rfl
      · cases named
        have found := found_first ⟨by decide, by decide⟩ (name_found held ready.same) rfl false
        exact ⟨.inl rfl, (found around).2⟩
      · cases named
        obtain ⟨list, items, known, -, elements, -⟩ := kids_found held ready.same
        have present := missing_of_present (present_of_elements elements)
        exact ⟨.inr rfl, (found_first ⟨by decide, by decide⟩ known present false around).2⟩

end Asking

/-- A partial that names itself for each kid of a tree is rendered to the end, whatever the tree
and the contexts around it, and gives the tree written out, in both modes. The contexts grow by
a node for each level, but what is asked of them is asked of the node in front alone. -/
theorem recursive_partial_writes_tree (options : Options)
    (standard : options.delimiters = .standard) (provider : Provider) (registry : Registry)
    (tree : NameTree) {v : Value} (outer : Chain) (start : Progress)
    (maps : provider.Maps nodeName nodeSource start.host)
    (held : tree.HeldBy registry.adapterOf start.host v) {depth : Nat}
    (deep : tree.height ≤ depth) :
    ∃ template, Template.compile treeSource provider options = .ok template ∧
      (∃ asked notes, template.render registry depth (v :: outer) start =
        .ok tree.written ⟨{ start.host with asked }, start.sink, notes⟩) ∧
      ∀ name chain host,
        template.Seeks registry depth (v :: outer) { start with sink := .open none } name chain
          host →
        ∃ part w around, chain = w :: around ∧
          NameTree.Descent registry.adapterOf start.host tree outer part w around ∧
          (name = nameKey ∨ name = kidsKey) ∧
          questions registry.adapterOf chain name host = [⟨name, w⟩] := by
  let template : Template := ⟨[nodeTag], .standard, provider, options⟩
  let opened : Progress := { start with sink := .open none }
  have given : NodePartial (template.settings registry) start.host := ⟨standard, maps⟩
  have ready : Ready start.host opened := ⟨⟨rfl, rfl, fun _ => trivial⟩, rfl⟩
  refine ⟨template, ?_, ?_, fun name chain host seeks => ?_⟩
  · rw [Template.compile, standard, tree_source_parsed]
    rfl
  · obtain ⟨after, same, done, ran, rfl, -, wrote⟩ :=
      node_shown given tree held deep outer ready
    refine ⟨done.host.asked, done.notes, ?_⟩
    have rendered : template.renderTo registry depth (v :: outer) opened = .ok () done := by
      refine Eq.trans ?_ ran
      exact congrFun (nodes_single _ nodeTag (v :: outer)) opened
    rw [Template.render, Render.toText, rendered]
    dsimp only
    rw [wrote, ← same_eq same]
    rfl
  -- The rendering starts at the root, whose tag is all there is.
  · refine part_asks given (.tags (.root held) deep ?_ ready) seeks
    exact List.forall_mem_singleton.mpr (.inl rfl)

def familyTree : NameTree :=
  .node "a<".toList [.node ['b'] [], .node ['c'] [.node [] []]]

def familyProvider : Provider := .dictionary (.mapping .dict none [(.str nodeName, .str nodeSource)])

def familyOuter : Chain := [.mapping .dict none [(.str nameKey, .str ['x'])]]

theorem family_tree_written :
    ∃ template, Template.compile treeSource familyProvider .standard = .ok template ∧
      ∃ asked notes, template.render .standard 3 (familyTree.value :: familyOuter) pageStart =
        .ok "a&lt;(b)(c())".toList ⟨{ pageStart.host with asked }, pageStart.sink, notes⟩ := by
  have held := NameTree.value_holds standard_plain pageStart.host familyTree
  have maps : familyProvider.Maps nodeName nodeSource pageStart.host := ⟨_, rfl⟩
  have written : familyTree.written = "a&lt;(b)(c())".toList := by decide
  obtain ⟨template, compiled, rendered, -⟩ := recursive_partial_writes_tree .standard rfl
    familyProvider .standard familyTree familyOuter pageStart maps held (by decide : _ ≤ 3)
  rw [written] at rendered
  exact ⟨template, compiled, rendered⟩

end Mustache
