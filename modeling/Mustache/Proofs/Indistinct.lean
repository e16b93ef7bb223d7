import Mathlib.Data.List.Forall2
import Mustache.Proofs.Matching
import Mustache.Proofs.Visits

/-!
Data that rendering does not tell apart. Where a relation is kept by taking layers off and by
looking a name up in one context, it is kept by chains, paths and sections. Two renderings of a
tree in chains that are related come to the same variables one after the other, and if these
print the same texts, both write the same.
-/

namespace Mustache

/-! One step of taking layers off, by what the outermost one shows. -/

section Steps
variable {adapterOf : Value → Adapter}

theorem strip_eq (v : Value) :
    strip adapterOf v =
      if v.isAbsent then pure v
      else match (adapterOf v).opening v with
        | .closed => pure v
        | .opens inner => strip adapterOf inner
        | .counts slot => countCall slot >>= settle adapterOf
        | .fails error => throw (.host error) := by
  rw [strip]
  split
  · rfl
  · split <;> next opens => rw [opens]

theorem lookup_within_eq (name : Text) (v : Value) :
    lookupWithin adapterOf name v =
      if v.isAbsent then pure .missing
      else (adapterOf v).invoke v name >>= fun found =>
        if found.isMissing then
          match (adapterOf v).opening v with
          | .closed => member (adapterOf v) v name
          | .opens inner => lookupWithin adapterOf name inner
          | .counts slot => countCall slot >>= settle adapterOf >>= fun count =>
              member (adapterOf count) count name
          | .fails error => throw (.host error)
        else pure found := by
  rw [lookupWithin]
  split
  · rfl
  · congr 1
    funext found
    split
    · split <;> next opens => rw [opens]
    · rfl

end Steps

structure ReadAlike (adapterOf : Value → Adapter) (rel : Value → Value → Prop) (a b : Value) :
    Prop where
  related : rel a b
  adapter : adapterOf b = adapterOf a
  null : b.isNull = a.isNull
  missing : b.isMissing = a.isMissing
  empty : (adapterOf a).isEmpty b = (adapterOf a).isEmpty a
  items : Matches (List.Forall₂ rel) ((adapterOf a).iterate a) ((adapterOf a).iterate b)

/-- A relation that reading does not see. Below their layers, related values are related by
`below`. -/
structure Indistinct (adapterOf : Value → Adapter) (rel below : Value → Value → Prop) : Prop where
  same : ∀ v, rel v v
  missing : ∀ {a b}, rel a b → b.isMissing = a.isMissing
  stripped : ∀ {a b}, rel a b → Matches below (strip adapterOf a) (strip adapterOf b)
  found : ∀ {a b} name, rel a b →
    Matches rel (lookupWithin adapterOf name a) (lookupWithin adapterOf name b)
  bottom : ∀ {a b}, below a b → ReadAlike adapterOf rel a b

section Lookup
variable {adapterOf : Value → Adapter} {rel below : Value → Value → Prop}
  (indistinct : Indistinct adapterOf rel below) {a b : Value} {chain chain' : Chain}
include indistinct

theorem is_empty_indistinct (related : rel a b) : isEmpty adapterOf b = isEmpty adapterOf a := by
  symm
  apply eq_of_matches
  apply matches_bind (indistinct.stripped related)
  intro v w under
  have alike := indistinct.bottom under
  rw [alike.adapter, Value.isAbsent, Value.isAbsent, alike.null, alike.missing, alike.empty]
  exact matches_refl (fun _ => rfl) _

theorem kind_indistinct (related : rel a b) : kindOf adapterOf b = kindOf adapterOf a := by
  symm
  apply eq_of_matches
  apply matches_bind (indistinct.stripped related)
  intro v w under
  have alike := indistinct.bottom under
  rw [alike.adapter, Value.isAbsent, Value.isAbsent, alike.null, alike.missing]
  exact matches_refl (fun _ => rfl) _

theorem missing_indistinct :
    Matches rel (pure .missing : Eval Value) (pure .missing) :=
  matches_pure (indistinct.same .missing)

theorem lookup_segment_indistinct (name : Text) (related : List.Forall₂ rel chain chain') :
    Matches rel (lookupSegment adapterOf name chain) (lookupSegment adapterOf name chain') := by
  induction related with
  | nil => exact missing_indistinct indistinct
  | @cons frame frame' outer outer' here rest ih =>
      -- The dot alone means the context itself; all else is looked up in it.
      have found : Matches rel (lookupInFrame adapterOf name frame)
          (lookupInFrame adapterOf name frame') := by
        unfold lookupInFrame
        split
        · exact matches_pure here
        · exact indistinct.found name here
      apply matches_bind found
      intro v w related
      rw [indistinct.missing related]
      split
      · exact ih
      · exact matches_pure related

theorem lookup_path_indistinct (required : Bool) (path : Path)
    (related : List.Forall₂ rel chain chain') :
    Matches rel (lookupPath adapterOf required path chain)
      (lookupPath adapterOf required path chain') := by
  induction path generalizing chain chain' with
  | nil => exact missing_indistinct indistinct
  | cons segment rest ih =>
      apply matches_bind (lookup_segment_indistinct indistinct segment related)
      intro v w related
      rw [indistinct.missing related]
      split
      · exact matches_refl indistinct.same _
      · split
        · exact matches_pure related
        · exact ih (.cons related .nil)

theorem lookup_indistinct (required : Bool) (name : Text)
    (related : List.Forall₂ rel chain chain') :
    Matches rel (lookup adapterOf required chain name) (lookup adapterOf required chain' name) :=
  lookup_path_indistinct indistinct required (Path.ofName name) related

end Lookup

/-! Texts are compared of whatever can be read. -/
section Texts
variable (adapterOf : Value → Adapter)

/-- Two values that are read of `a` and `b` in the same way, each step in the same state. -/
inductive ReadOff (a b : Value) : Value → Value → Prop
  | itself : ReadOff a b a b
  | stripped {v w inner inner' : Value} {host after : Host} : ReadOff a b v w →
      strip adapterOf v host = .ok inner after → strip adapterOf w host = .ok inner' after →
      ReadOff a b inner inner'
  | found {v w part part' : Value} {host after : Host} (name : Text) : ReadOff a b v w →
      lookupWithin adapterOf name v host = .ok part after →
      lookupWithin adapterOf name w host = .ok part' after → ReadOff a b part part'
  | item {v w item item' : Value} {items items' : List Value} {host after : Host} :
      ReadOff a b v w → (adapterOf v).iterate v host = .ok items after →
      (adapterOf v).iterate w host = .ok items' after → (item, item') ∈ items.zip items' →
      ReadOff a b item item'

/-- Whatever is read of two values in the same way has the same text. -/
def SameTexts (a b : Value) : Prop :=
  ∀ v w, ReadOff adapterOf a b v w → ∀ host, w.shown host = v.shown host

variable {adapterOf} {a b v w : Value}

theorem read_off_trans {x y : Value} (first : ReadOff adapterOf a b v w)
    (rest : ReadOff adapterOf v w x y) : ReadOff adapterOf a b x y := by
  induction rest with
  | itself => exact first
  | stripped _ ran ran' ih => exact ih.stripped ran ran'
  | found name _ ran ran' ih => exact ih.found name ran ran'
  | item _ ran ran' inside ih => exact ih.item ran ran' inside

theorem same_texts_of_read (same : SameTexts adapterOf a b) (read : ReadOff adapterOf a b v w) :
    SameTexts adapterOf v w := fun x y rest => same x y (read_off_trans read rest)

theorem read_off_same (read : ReadOff adapterOf a a v w) : v = w := by
  induction read with
  | itself => rfl
  | stripped _ ran ran' ih | found _ _ ran ran' ih =>
      subst ih
      cases ran.symm.trans ran'
      rfl
  | item _ ran ran' inside ih =>
      subst ih
      cases ran.symm.trans ran'
      exact (List.forall₂_iff_zip.mp (List.forall₂_refl _)).2 inside

/-- Values that are not told apart and have the same texts stay so when they are read. -/
theorem same_texts_indistinct {rel : Value → Value → Prop}
    (indistinct : Indistinct adapterOf rel rel) :
    Indistinct adapterOf (fun a b => rel a b ∧ SameTexts adapterOf a b)
      (fun a b => rel a b ∧ SameTexts adapterOf a b) where
  same v := by
    refine ⟨indistinct.same v, ?_⟩
    intro x y read host
    rw [read_off_same read]
  missing both := indistinct.missing both.1
  stripped := by
    rintro a b ⟨related, texts⟩
    apply matches_of_runs (indistinct.stripped related)
    intro host after inner inner' ran ran' under
    exact ⟨under, same_texts_of_read texts (.stripped .itself ran ran')⟩
  found := by
    rintro a b name ⟨related, texts⟩
    apply matches_of_runs (indistinct.found name related)
    intro host after part part' ran ran' under
    exact ⟨under, same_texts_of_read texts (.found name .itself ran ran')⟩
  bottom := by
    rintro a b ⟨related, texts⟩
    have alike := indistinct.bottom related
    refine { alike with related := ⟨related, texts⟩, items := ?_ }
    apply matches_of_runs alike.items
    intro host after items items' ran ran' each
    obtain ⟨length, pairs⟩ := List.forall₂_iff_zip.mp each
    refine List.forall₂_iff_zip.mpr ⟨length, fun inside => ⟨pairs inside, ?_⟩⟩
    exact same_texts_of_read texts (.item .itself ran ran' inside)

end Texts

def Visit.Prints (settings : Settings) (visit : Visit) (v : Value) (host : Host) : Prop :=
  ∃ found between,
    lookup settings.adapterOf settings.strict visit.chain visit.name visit.start.host =
      .ok found between ∧
    found.isMissing = false ∧ strip settings.adapterOf found between = .ok v host

/-- Two renderings that go the same way if their variables, taken in pairs, are as `agree`
says. -/
def Follows {α β : Type} (agree : Visit → Visit → Prop) (rel : α → β → Prop)
    (plain other : Visits) (x : Render α) (y : Render β) : Prop :=
  ∀ start, (∀ pair ∈ (plain start).zip (other start), agree pair.1 pair.2) →
    Paired rel (x start) (y start) ∧ (plain start).length = (other start).length

section Steps
variable {agree : Visit → Visit → Prop} {α β γ δ : Type} {rel : α → β → Prop}
  {rel' : γ → δ → Prop}

theorem follows_of_matches {x : Render α} {y : Render β} (same : Matches rel x y) :
    Follows agree rel (fun _ => []) (fun _ => []) x y := fun start _ => ⟨same start, rfl⟩

theorem zip_append_left {α β : Type} {xs xs' : List α} {ys ys' : List β} {pair : α × β}
    (member : pair ∈ xs.zip ys) : pair ∈ (xs ++ xs').zip (ys ++ ys') := by
  induction xs generalizing ys with
  | nil => cases member
  | cons x xs ih =>
      cases ys with
      | nil => cases member
      | cons y ys =>
          rcases List.mem_cons.mp member with rfl | inside
          · exact List.mem_cons_self
          · exact List.mem_cons_of_mem _ (ih inside)

theorem follows_bind {plain other : Visits} {x : Render α} {y : Render β}
    {f : α → Render γ} {g : β → Render δ} {plain' : α → Visits} {other' : β → Visits}
    (first : Follows agree rel plain other x y)
    (next : ∀ a b, rel a b → Follows agree rel' (plain' a) (other' b) (f a) (g b)) :
    Follows agree rel' (fun start => plain start ++ Visits.after x plain' start)
      (fun start => other start ++ Visits.after y other' start) (x >>= f) (y >>= g) := by
  intro start free
  obtain ⟨paired, count⟩ := first start fun pair member => free pair (zip_append_left member)
  -- Only with equally many variables before them are those of `f` and `g` paired with each other.
  rw [List.zip_append count] at free
  cases ran : x start with
  | error fault after =>
      rw [ran] at paired
      have ran' := error_of_paired paired
      rw [bind_of_error ran, bind_of_error ran']
      refine ⟨.error fault after, ?_⟩
      simp only [Visits.after_of_error ran, Visits.after_of_error ran', List.append_nil, count]
  | ok a after =>
      rw [ran] at paired
      obtain ⟨b, ran', related⟩ := ok_of_paired paired
      rw [Visits.after_of_ok ran, Visits.after_of_ok ran'] at free
      obtain ⟨paired', count'⟩ := next a b related after fun pair member =>
        free pair (List.mem_append_right _ member)
      rw [bind_of_ok ran, bind_of_ok ran']
      refine ⟨paired', ?_⟩
      simp only [Visits.after_of_ok ran, Visits.after_of_ok ran', List.length_append, count, count']

theorem follows_each {body body' : Chain → Render Unit} {inside inside' : Chain → Visits}
    {rel : Chain → Chain → Prop}
    (each : ∀ chain chain', rel chain chain' →
      Follows agree Eq (inside chain) (inside' chain') (body chain) (body' chain'))
    {chains chains' : List Chain} (related : List.Forall₂ rel chains chains') :
    Follows agree Eq (Visits.each body inside chains) (Visits.each body' inside' chains')
      (chains.forM body) (chains'.forM body') := by
  induction related with
  | nil => exact follows_of_matches (matches_pure rfl)
  | cons here rest ih => exact follows_bind (each _ _ here) fun _ _ _ => ih

end Steps

namespace Render

theorem matches_on_host {α β : Type} {rel : α → β → Prop} {read : Eval α} {read' : Eval β}
    (same : Matches rel read read') : Matches rel (onHost read) (onHost read') := by
  intro start
  have here := same start.host
  unfold onHost
  generalize read start.host = left, read' start.host = right at here ⊢
  cases here with
  | ok after related => exact .ok _ related
  | error fault after => exact .error fault _

theorem read_of_on_host {α : Type} {read : Eval α} {start after : Progress} {result : α}
    (ran : onHost read start = .ok result after) : read start.host = .ok result after.host := by
  unfold onHost at ran
  cases here : read start.host with
  | ok result' host =>
      rw [here] at ran
      cases ran
      rfl
  | error fault host =>
      rw [here] at ran
      cases ran

end Render

def Agreeing (settings : Settings) (below : Value → Value → Prop)
    (agree : Visit → Visit → Prop) : Prop :=
  ∀ plain other v w host, agree plain other →
    Visit.Prints settings plain v host → Visit.Prints settings other w host → below v w →
    w.shown host = v.shown host

theorem same_texts_agreeing (settings : Settings) (rel : Value → Value → Prop) :
    Agreeing settings (fun a b => rel a b ∧ SameTexts settings.adapterOf a b) fun _ _ => True :=
  fun _ _ v w host _ _ _ both => both.2 v w .itself host

section Rendering
open Render
variable {settings : Settings} {rel below : Value → Value → Prop} {agree : Visit → Visit → Prop}
  (indistinct : Indistinct settings.adapterOf rel below)
  (agreeing : Agreeing settings below agree)

include indistinct in
theorem section_chains_indistinct {chain chain' : Chain} (related : List.Forall₂ rel chain chain')
    (name : Text) (inverted : Bool) :
    Matches (List.Forall₂ (List.Forall₂ rel)) (sectionChains settings name inverted chain)
      (sectionChains settings name inverted chain') := by
  apply matches_bind (matches_on_host (lookup_indistinct indistinct false name related))
  intro found found' here
  rw [is_empty_indistinct indistinct here]
  apply matches_after
  intro empty
  split
  · exact matches_pure .nil
  · split
    · exact matches_pure (.cons related .nil)
    · apply matches_bind (matches_on_host (indistinct.stripped here))
      intro target target' under
      have alike := indistinct.bottom under
      rw [kind_indistinct indistinct alike.related, alike.adapter]
      apply matches_after
      intro kind
      -- Each item goes in front of the chain, or the value itself, or nothing.
      cases kind with
      | list =>
          apply matches_bind (matches_on_host alike.items)
          intro items items' same
          apply matches_pure
          apply List.forall₂_map_left_iff.mpr
          apply List.forall₂_map_right_iff.mpr
          exact same.imp fun item item' inside => .cons inside related
      | record => exact matches_pure (.cons (.cons alike.related related) .nil)
      | scalar => exact matches_pure (.cons related .nil)

include indistinct agreeing in
theorem follows_variable {chain chain' : Chain} (related : List.Forall₂ rel chain chain')
    (name : Text) (escape : Bool) :
    Follows agree Eq (fun start => [⟨name, chain, start⟩])
      (fun start => [⟨name, chain', start⟩]) (variableTag settings name escape chain)
      (variableTag settings name escape chain') := by
  intro start free
  have agrees := free _ List.mem_cons_self
  refine ⟨?_, rfl⟩
  have looks := matches_on_host (lookup_indistinct indistinct settings.strict name related)
  apply paired_bind (looks start)
  intro found found' between looked looked' here
  rw [indistinct.missing here]
  by_cases absent : found.isMissing = true
  · rw [if_pos absent, if_pos absent]
    exact .ok between rfl
  · rw [if_neg absent, if_neg absent]
    apply paired_bind (matches_on_host (indistinct.stripped here) between)
    intro v w after stripped stripped' under
    have present : found.isMissing = false := eq_false_of_ne_true absent
    -- Both variables print what they come to, so the hypothesis about prints applies.
    have text := agreeing _ _ v w after.host agrees
      ⟨found, between.host, read_of_on_host looked, present, read_of_on_host stripped⟩
      ⟨found', between.host, read_of_on_host looked', (indistinct.missing here).trans present,
        read_of_on_host stripped'⟩ under
    rw [(indistinct.bottom under).null]
    split
    · exact .ok after rfl
    · change Paired Eq
        (write (if escape then (v.shown after.host).escapeHtml else v.shown after.host) after)
        (write (if escape then (w.shown after.host).escapeHtml else w.shown after.host) after)
      rw [text]
      exact matches_refl Eq.refl _ after

def FollowsExpand (agree : Visit → Visit → Prop) (rel : Value → Value → Prop)
    (inside : Text → Text → Bool → Chain → Visits) (expand : Expand) : Prop :=
  ∀ name indent linked chain chain', List.Forall₂ rel chain chain' →
    Follows agree Eq (inside name indent linked chain) (inside name indent linked chain')
      (expand name indent linked chain) (expand name indent linked chain')

variable {inside : Text → Text → Bool → Chain → Visits} {expand : Expand}

mutual
theorem follows_node (indistinct : Indistinct settings.adapterOf rel below)
    (agreeing : Agreeing settings below agree) (expands : FollowsExpand agree rel inside expand)
    (first : Node) {chain chain' : Chain} (related : List.Forall₂ rel chain chain') :
    Follows agree Eq (visits settings expand inside first chain)
      (visits settings expand inside first chain') (node settings expand first chain)
      (node settings expand first chain') := by
  match first with
  | .text content => exact follows_of_matches (matches_refl Eq.refl _)
  | .variableTag name escape => exact follows_variable indistinct agreeing related name escape
  | .sectionTag name inverted _ children =>
      have chains := section_chains_indistinct indistinct related name inverted
      rw [node, node, section_eq, section_eq]
      exact follows_bind (follows_of_matches chains) fun _ _ here =>
        follows_each (fun _ _ each => follows_nodes indistinct agreeing expands children each)
          here
  | .partialTag name indent linked => exact expands name indent linked chain chain' related
  | .unknownTag _ | .unknown => exact follows_of_matches (matches_refl Eq.refl _)

theorem follows_nodes (indistinct : Indistinct settings.adapterOf rel below)
    (agreeing : Agreeing settings below agree) (expands : FollowsExpand agree rel inside expand)
    (siblings : List Node) {chain chain' : Chain} (related : List.Forall₂ rel chain chain') :
    Follows agree Eq (visitsAll settings expand inside siblings chain)
      (visitsAll settings expand inside siblings chain') (nodes settings expand siblings chain)
      (nodes settings expand siblings chain') := by
  match siblings with
  | [] => exact follows_of_matches (matches_refl Eq.refl _)
  | first :: rest =>
      exact follows_bind (follows_node indistinct agreeing expands first related) fun _ _ _ =>
        follows_nodes indistinct agreeing expands rest related
end

include indistinct agreeing in
theorem follows_expand (depth : Nat) :
    FollowsExpand agree rel (partialVisits settings depth) (expandPartial settings depth) := by
  induction depth with
  | zero =>
      intro name indent linked chain chain' related
      exact follows_of_matches (matches_refl Eq.refl _)
  | succ depth ih =>
      intro name indent linked chain chain' related
      have opened := matches_refl Eq.refl (partialNodes settings name indent linked)
      rw [expand_eq, expand_eq]
      apply follows_bind (follows_of_matches opened)
      rintro inner _ rfl
      exact follows_nodes indistinct agreeing ih inner related

end Rendering

section Template
variable (template : Template) (registry : Registry) (depth : Nat)
  {rel below : Value → Value → Prop} {agree : Visit → Visit → Prop}
  (indistinct : Indistinct registry.adapterOf rel below)
  (agreeing : Agreeing (template.settings registry) below agree)
  {plain other : Chain} (related : List.Forall₂ rel plain other) {start : Progress}
include indistinct agreeing related

theorem render_to_indistinct
    (free : ∀ pair ∈ (template.visits registry depth plain start).zip
      (template.visits registry depth other start), agree pair.1 pair.2) :
    template.renderTo registry depth other start =
      template.renderTo registry depth plain start := by
  have reading : Indistinct (template.settings registry).adapterOf rel below := indistinct
  have expands := follows_expand reading agreeing depth
  have follows := follows_nodes reading agreeing expands template.nodes related
  exact (eq_of_paired (follows start free).1).symm

theorem render_indistinct
    (free : ∀ pair ∈ (template.visits registry depth plain { start with sink := .open none }).zip
      (template.visits registry depth other { start with sink := .open none }),
      agree pair.1 pair.2) :
    template.render registry depth other start = template.render registry depth plain start := by
  have written := render_to_indistinct template registry depth indistinct agreeing related free
  unfold Template.render Render.toText
  rw [written]

end Template
end Mustache
