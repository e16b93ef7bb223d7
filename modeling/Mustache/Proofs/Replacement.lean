import Mathlib.Data.List.Forall2
import Mustache.Proofs.Merging

/-!
Siblings that may stand in for others. If what is read before a point of a source may
stand in for something else, so may the tree of the whole source, whatever is read after
that point.
-/

namespace Mustache

/-- A relation of siblings, nearest first, that nodes read after them leave as it is. -/
structure Congruence (alike : List Node → List Node → Prop) : Prop where
  refl : ∀ siblings, alike siblings siblings
  text : ∀ content a b, alike a b → alike (Node.pushText content a) (Node.pushText content b)
  cons : ∀ node a b, alike a b → alike (node :: a) (node :: b)
  inside : ∀ name inverted (line line' : Int) children children' a b, alike children children' →
    alike a b → alike (.sectionTag name inverted line children.reverse :: a)
      (.sectionTag name inverted line' children'.reverse :: b)

theorem congruence_flip {alike : List Node → List Node → Prop} (congruence : Congruence alike) :
    Congruence fun a b => alike b a where
  refl := congruence.refl
  text content a b := congruence.text content b a
  cons node a b := congruence.cons node b a
  inside name inverted line line' children children' a b :=
    congruence.inside name inverted line' line children' children b a

theorem congruence_all {ι : Type} {alike : ι → List Node → List Node → Prop}
    (congruence : ∀ i, Congruence (alike i)) : Congruence fun a b => ∀ i, alike i a b where
  refl siblings i := (congruence i).refl siblings
  text content a b same i := (congruence i).text content a b (same i)
  cons node a b same i := (congruence i).cons node a b (same i)
  inside name inverted line line' children children' a b within same i :=
    (congruence i).inside name inverted line line' children children' a b (within i) (same i)

theorem congruence_and {alike alike' : List Node → List Node → Prop} (first : Congruence alike)
    (second : Congruence alike') : Congruence fun a b => alike a b ∧ alike' a b where
  refl siblings := ⟨first.refl siblings, second.refl siblings⟩
  text content a b same := ⟨first.text content a b same.1, second.text content a b same.2⟩
  cons node a b same := ⟨first.cons node a b same.1, second.cons node a b same.2⟩
  inside name inverted line line' children children' a b within same :=
    ⟨first.inside name inverted line line' children children' a b within.1 same.1,
      second.inside name inverted line line' children children' a b within.2 same.2⟩

def SameOutcome {α β : Type} (related : α → β → Prop) :
    Except ParseError α → Except ParseError β → Prop
  | .ok a, .ok b => related a b
  | .error error, .error error' => error.fault = error'.fault
  | _, _ => False

theorem outcome_of_ok {α β : Type} {related : α → β → Prop} {a : α} {second : Except ParseError β}
    (same : SameOutcome related (.ok a) second) : ∃ b, second = .ok b ∧ related a b := by
  cases second with
  | error error => exact absurd same id
  | ok b => exact ⟨b, rfl, same⟩

theorem outcome_bind {α β α' β' : Type} {related : α → β → Prop} {related' : α' → β' → Prop}
    {first : Except ParseError α} {second : Except ParseError β}
    {next : α → Except ParseError α'} {next' : β → Except ParseError β'}
    (same : SameOutcome related first second)
    (rest : ∀ a b, related a b → SameOutcome related' (next a) (next' b)) :
    SameOutcome related' (first.bind next) (second.bind next') := by
  cases first <;> cases second
  · exact same
  · exact absurd same id
  · exact absurd same id
  · exact rest _ _ same

section Stacks
variable {alike : List Node → List Node → Prop}

def Frame.Alike (alike : List Node → List Node → Prop) (a b : Frame) : Prop :=
  a.opened.name = b.opened.name ∧ a.inverted = b.inverted ∧ alike a.before b.before

structure Stack.Alike (alike : List Node → List Node → Prop) (a b : Stack) : Prop where
  frames : List.Forall₂ (Frame.Alike alike) a.frames b.frames
  before : alike a.before b.before

theorem with_text_alike (congruence : Congruence alike) (token : Token) {a b : List Node}
    (same : alike a b) : alike (token.withText a) (token.withText b) := by
  unfold Token.withText
  have spaced := congruence.text token.text a b same
  split
  · exact spaced
  · exact congruence.text token.padding _ _ spaced

theorem step_alike (congruence : Congruence alike) (token : Token) (lines lines' : Nat)
    {a b : Stack} (same : Stack.Alike alike a b) :
    SameOutcome (Stack.Alike alike) (a.step (token.later lines)) (b.step (token.later lines')) := by
  obtain ⟨frames, before⟩ := a
  obtain ⟨frames', before'⟩ := b
  obtain ⟨outer, inner⟩ := same
  have spaced : alike ((token.later lines).withText before) ((token.later lines').withText before') :=
    with_text_alike congruence token inner
  rw [Stack.step, Stack.step]
  generalize (token.later lines).withText before = text at spaced
  generalize (token.later lines').withText before' = text' at spaced
  simp only [Token.later]
  cases token.tag with
  | comment | stray | delimiters => exact ⟨outer, spaced⟩
  | value | inclusion => exact ⟨outer, congruence.cons _ _ _ spaced⟩
  | opening inverted name =>
      exact ⟨List.Forall₂.cons ⟨rfl, rfl, spaced⟩ outer, congruence.refl []⟩
  | closing name =>
      -- The frames are alike, so both stacks have a section to close or neither has.
      cases outer with
      | nil => exact rfl
      | cons first rest =>
          obtain ⟨same_name, same_sign, below⟩ := first
          simp only [same_name]
          split
          · refine ⟨rest, ?_⟩
            rw [Frame.close, Frame.close, same_name, same_sign]
            exact congruence.inside _ _ _ _ _ _ _ _ spaced below
          · exact rfl

theorem run_alike (congruence : Congruence alike) (tokens : List Token) (lines lines' : Nat)
    {a b : Stack} (same : Stack.Alike alike a b) :
    SameOutcome (Stack.Alike alike) (a.run (tokens.map (·.later lines)))
      (b.run (tokens.map (·.later lines'))) := by
  induction tokens generalizing a b with
  | nil => exact same
  | cons token rest ih =>
      rw [List.map_cons, List.map_cons, Stack.run, Stack.run]
      exact outcome_bind (step_alike congruence token lines lines' same) fun _ _ after => ih after

theorem finish_alike (congruence : Congruence alike) (ending : Except ParseError Ending)
    (lines lines' : Nat) {a b : Stack} (same : Stack.Alike alike a b) :
    SameOutcome (fun p p' : Parsed => alike p.nodes.reverse p'.nodes.reverse)
      (a.finish (outcomeLater lines (·.later lines) ending))
      (b.finish (outcomeLater lines' (·.later lines') ending)) := by
  obtain ⟨frames, before⟩ := a
  obtain ⟨frames', before'⟩ := b
  obtain ⟨outer, inner⟩ := same
  cases ending with
  | error error => exact rfl
  | ok ending =>
      cases outer with
      | nil =>
          have last := congruence.text ending.tail before before' inner
          simpa [Stack.finish, SameOutcome, outcomeLater, Ending.later] using last
      | cons first rest => exact congrArg ParseFault.unclosedSection first.1

theorem tree_alike (congruence : Congruence alike) (scanned : Scan) (lines lines' : Nat)
    {a b : Stack} (same : Stack.Alike alike a b) :
    SameOutcome (fun p p' : Parsed => alike p.nodes.reverse p'.nodes.reverse)
      ((scanned.later lines).tree a) ((scanned.later lines').tree b) :=
  outcome_bind (run_alike congruence scanned.tokens lines lines' same) fun _ _ after =>
    finish_alike congruence scanned.ending lines lines' after

end Stacks

section Rendered
variable {terms : Terms} {settings : Settings} {lead follow : Render.Expand}
open Render

def Rendered (terms : Terms) (settings : Settings) (lead follow : Expand) (a b : List Node) : Prop :=
  ∀ chain, Sim terms (nodes settings lead a.reverse chain) (nodes settings follow b.reverse chain)

theorem congruence_rendered (expand : SimExpand terms lead follow)
    (blind : SimExpand .strict lead lead) (blind' : SimExpand .strict follow follow) :
    Congruence (Rendered terms settings lead follow) where
  refl siblings chain := sim_nodes settings expand siblings.reverse chain
  text content a b same chain :=
    sim_strict_lead (strict_push_text settings blind content a chain)
      (sim_strict_follow (sim_bind (same chain) fun _ => sim_write content)
        (sim_symm (strict_push_text settings blind' content b chain)))
  cons first a b same chain := by
    rw [List.reverse_cons, List.reverse_cons, nodes_snoc, nodes_snoc]
    exact sim_bind (same chain) fun _ => sim_node settings expand first chain
  inside name inverted line line' children children' a b within same chain := by
    rw [List.reverse_cons, List.reverse_cons, nodes_snoc, nodes_snoc]
    exact sim_bind (same chain) fun _ => sim_section settings name inverted within chain

end Rendered
end Mustache
