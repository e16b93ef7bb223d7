import Mustache.Proofs.HostData

/-!
Two computations that go the same way. They start in one state and end in one state, with
answers that are related or with the same fault.
-/

namespace Mustache

inductive Paired {ε σ α β : Type} (rel : α → β → Prop) :
    EStateM.Result ε σ α → EStateM.Result ε σ β → Prop
  | ok {a : α} {b : β} (state : σ) : rel a b → Paired rel (.ok a state) (.ok b state)
  | error (fault : ε) (state : σ) : Paired rel (.error fault state) (.error fault state)

def Matches {ε σ α β : Type} (rel : α → β → Prop) (x : EStateM ε σ α) (y : EStateM ε σ β) : Prop :=
  ∀ state, Paired rel (x state) (y state)

section Matching
variable {ε σ α β γ δ : Type} {rel : α → β → Prop} {rel' : γ → δ → Prop}

theorem ok_of_paired {a : α} {state : σ} {right : EStateM.Result ε σ β}
    (paired : Paired rel (.ok a state) right) : ∃ b, right = .ok b state ∧ rel a b := by
  cases paired with
  | @ok _ b _ related => exact ⟨b, rfl, related⟩

theorem error_of_paired {fault : ε} {state : σ} {right : EStateM.Result ε σ β}
    (paired : Paired rel (.error fault state) right) : right = .error fault state := by
  cases paired
  rfl

theorem matches_pure {a : α} {b : β} (related : rel a b) :
    Matches rel (pure a : EStateM ε σ α) (pure b) := fun state => .ok state related

theorem matches_throw (fault : ε) :
    Matches rel (throw fault : EStateM ε σ α) (throw fault) := fun state => .error fault state

theorem matches_refl {rel : α → α → Prop} (refl : ∀ a, rel a a) (x : EStateM ε σ α) :
    Matches rel x x := by
  intro state
  cases x state with
  | ok a after => exact .ok after (refl a)
  | error fault after => exact .error fault after

theorem matches_of_runs {rel rel' : α → β → Prop} {x : EStateM ε σ α} {y : EStateM ε σ β}
    (same : Matches rel x y)
    (answers : ∀ state after a b, x state = .ok a after → y state = .ok b after → rel a b →
      rel' a b) : Matches rel' x y := by
  intro state
  have here := same state
  have runs := answers state
  generalize x state = left, y state = right at here runs ⊢
  cases here with
  | ok after related => exact .ok after (runs after _ _ rfl rfl related)
  | error fault after => exact .error fault after

theorem matches_imp {rel rel' : α → β → Prop} (weaker : ∀ a b, rel a b → rel' a b)
    {x : EStateM ε σ α} {y : EStateM ε σ β} (same : Matches rel x y) : Matches rel' x y :=
  matches_of_runs same fun _ _ a b _ _ => weaker a b

theorem paired_bind {x : EStateM ε σ α} {y : EStateM ε σ β} {f : α → EStateM ε σ γ}
    {g : β → EStateM ε σ δ} {state : σ} (first : Paired rel (x state) (y state))
    (next : ∀ a b after, x state = .ok a after → y state = .ok b after → rel a b →
      Paired rel' (f a after) (g b after)) : Paired rel' ((x >>= f) state) ((y >>= g) state) := by
  cases ran : x state with
  | ok a after =>
      rw [ran] at first
      obtain ⟨b, ran', related⟩ := ok_of_paired first
      rw [bind_of_ok ran, bind_of_ok ran']
      exact next a b after ran ran' related
  | error fault after =>
      rw [ran] at first
      rw [bind_of_error ran, bind_of_error (error_of_paired first)]
      exact .error fault after

theorem matches_bind {x : EStateM ε σ α} {y : EStateM ε σ β} {f : α → EStateM ε σ γ}
    {g : β → EStateM ε σ δ} (first : Matches rel x y)
    (next : ∀ a b, rel a b → Matches rel' (f a) (g b)) : Matches rel' (x >>= f) (y >>= g) :=
  fun state => paired_bind (first state) fun a b after _ _ related => next a b related after

theorem matches_after (x : EStateM ε σ α) {f : α → EStateM ε σ γ} {g : α → EStateM ε σ δ}
    (next : ∀ a, Matches rel' (f a) (g a)) : Matches rel' (x >>= f) (x >>= g) := by
  apply matches_bind (matches_refl (fun a => Eq.refl a) x)
  intro a b same
  exact same ▸ next a

theorem eq_of_paired {left right : EStateM.Result ε σ α} (paired : Paired Eq left right) :
    left = right := by
  cases paired with
  | ok after related => rw [related]
  | error fault after => rfl

theorem eq_of_matches {x y : EStateM ε σ α} (same : Matches Eq x y) : x = y :=
  funext fun state => eq_of_paired (same state)

theorem matches_of_map_eq {f : α → γ} {g : β → γ} {x : EStateM ε σ α} {y : EStateM ε σ β}
    (same : f <$> x = g <$> y) : Matches (fun a b => f a = g b) x y := by
  intro state
  have here : (f <$> x) state = (g <$> y) state := congrFun same state
  rw [map_eq_pure_bind, map_eq_pure_bind] at here
  cases ran : x state with
  | ok a after =>
      rw [bind_of_ok ran] at here
      cases ran' : y state with
      | ok b after' =>
          rw [bind_of_ok ran'] at here
          injection here with related states
          subst states
          exact .ok after related
      | error fault after' =>
          rw [bind_of_error ran'] at here
          cases here
  | error fault after =>
      rw [bind_of_error ran] at here
      cases ran' : y state with
      | ok b after' =>
          rw [bind_of_ok ran'] at here
          cases here
      | error fault' after' =>
          rw [bind_of_error ran'] at here
          injection here with faults states
          subst faults states
          exact .error fault after

end Matching

end Mustache
