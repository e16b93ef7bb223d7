import Mustache.Proofs.Linearisation

/-!
The sections that tags leave open. Tags are matched one after the other against the sections open
before them, and do not look at those further out. A section that stays open was open before, or
one of the tags opened it and those after it close all that they open.
-/

namespace Mustache

theorem match_tags_append (opens : List OpenSection) (earlier later : List Token) :
    matchTags opens (earlier ++ later) =
      (matchTags opens earlier).bind fun between => matchTags between later := by
  induction earlier generalizing opens with
  | nil => rfl
  | cons token rest ih =>
      rw [List.cons_append, matchTags, matchTags]
      cases token.tag with
      | closing name =>
          cases opens with
          | nil => rfl
          | cons innermost outer =>
              by_cases fits : name = innermost.name
              · simp only [fits, if_true]
                exact ih outer
              · simp only [fits, if_false]
                rfl
      | _ => exact ih _

theorem match_tags_onto {opens after : List OpenSection} {tokens : List Token}
    (outer : List OpenSection) (matched : matchTags opens tokens = .ok after) :
    matchTags (opens ++ outer) tokens = .ok (after ++ outer) := by
  induction tokens generalizing opens with
  | nil =>
      cases matched
      rfl
  | cons token rest ih =>
      rw [matchTags] at matched ⊢
      cases tag : token.tag with
      | closing name =>
          rw [tag] at matched
          cases opens with
          | nil => cases matched
          | cons innermost inner =>
              -- What is closed is on top, so the sections below are not looked at.
              by_cases fits : name = innermost.name
              · simp only [fits, if_true] at matched
                simpa only [List.cons_append, fits, if_true] using ih matched
              · simp [fits] at matched
      | opening inverted name =>
          rw [tag] at matched
          exact ih matched
      | _ =>
          rw [tag] at matched
          exact ih matched

def OpenedAmong (opened : OpenSection) (tokens : List Token) : Prop :=
  ∃ earlier token later inverted, tokens = earlier ++ token :: later ∧
    token.tag = .opening inverted opened.name ∧ token.line = opened.line ∧
    matchTags [] later = .ok []

theorem opened_among_cons {opened : OpenSection} {tokens : List Token} (token : Token)
    (among : OpenedAmong opened tokens) : OpenedAmong opened (token :: tokens) := by
  obtain ⟨earlier, opening, later, inverted, rfl, found⟩ := among
  exact ⟨token :: earlier, opening, later, inverted, rfl, found⟩

/-- The innermost section that tags leave open was open before, and they close just what was
open inside it, or it is opened by one of them. -/
theorem innermost_origin {opens outer : List OpenSection} {innermost : OpenSection}
    {tokens : List Token} (matched : matchTags opens tokens = .ok (innermost :: outer)) :
    (∃ inside, opens = inside ++ innermost :: outer ∧ matchTags inside tokens = .ok []) ∨
      OpenedAmong innermost tokens := by
  induction tokens generalizing opens with
  | nil =>
      cases matched
      exact .inl ⟨[], rfl, rfl⟩
  | cons token rest ih =>
      rw [matchTags] at matched
      cases tag : token.tag with
      | opening inverted name =>
          rw [tag] at matched
          rcases ih matched with ⟨_ | ⟨opened, inside⟩, split, closed⟩ | among
          · cases split
            -- The section was opened by this very tag.
            exact .inr ⟨[], token, rest, inverted, rfl, tag, rfl, closed⟩
          · cases split
            exact .inl ⟨inside, rfl, by rwa [matchTags, tag]⟩
          · exact .inr (opened_among_cons token among)
      | closing name =>
          rw [tag] at matched
          cases opens with
          | nil => cases matched
          | cons opened around =>
              by_cases fits : name = opened.name
              · simp only [fits, if_true] at matched
                rcases ih matched with ⟨inside, rfl, closed⟩ | among
                · refine .inl ⟨opened :: inside, rfl, ?_⟩
                  simpa only [matchTags, tag, fits, if_true] using closed
                · exact .inr (opened_among_cons token among)
              · simp [fits] at matched
      | _ =>
          rw [tag] at matched
          rcases ih matched with ⟨inside, split, closed⟩ | among
          · exact .inl ⟨inside, split, by rwa [matchTags, tag]⟩
          · exact .inr (opened_among_cons token among)

end Mustache
