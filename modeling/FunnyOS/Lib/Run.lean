import Mathlib

/-!
# Finite runs

`Runs step s as s'`: the steps labelled `as` lead from `s` to `s'`. An invariant that every step
keeps holds at the end of every run, and so after every step of a run.
-/

namespace FunnyOS

variable {σ α : Type} {step step' : σ → α → σ → Prop} {s s₁ s' : σ} {a : α} {as bs : List α}

/-- A finite sequence of steps. -/
inductive Runs (step : σ → α → σ → Prop) : σ → List α → σ → Prop
  | nil (s : σ) : Runs step s [] s
  | cons {s s₁ s' : σ} {a : α} {as : List α} (first : step s a s₁) (rest : Runs step s₁ as s') :
      Runs step s (a :: as) s'

namespace Runs

/-- What every step keeps, every run keeps. -/
theorem invariant {I : σ → Prop} (hstep : ∀ s a s', I s → step s a s' → I s')
    (h : Runs step s as s') (hs : I s) : I s' := by
  induction h with
  | nil s => exact hs
  | cons first _ ih => exact ih (hstep _ _ _ hs first)

/-- A run of fewer steps allowed is a run of more. -/
theorem mono (hstep : ∀ s a s', step s a s' → step' s a s') (h : Runs step s as s') :
    Runs step' s as s' := by
  induction h with
  | nil s => exact .nil s
  | cons first _ ih => exact .cons (hstep _ _ _ first) ih

/-- The same, where an invariant is needed to see it. -/
theorem mono_of_invariant {I : σ → Prop} (hkeep : ∀ s a s', I s → step s a s' → I s')
    (hstep : ∀ s a s', I s → step s a s' → step' s a s') (h : Runs step s as s') (hs : I s) :
    Runs step' s as s' := by
  induction h with
  | nil s => exact .nil s
  | cons first _ ih => exact .cons (hstep _ _ _ hs first) (ih (hkeep _ _ _ hs first))

theorem trans (h : Runs step s as s₁) (h' : Runs step s₁ bs s') : Runs step s (as ++ bs) s' := by
  induction h with
  | nil s => exact h'
  | cons first _ ih => exact .cons first (ih h')

theorem split (h : Runs step s (as ++ bs) s') : ∃ s₁, Runs step s as s₁ ∧ Runs step s₁ bs s' := by
  induction as generalizing s with
  | nil => exact ⟨s, .nil s, h⟩
  | cons a as ih =>
    cases h with
    | cons first rest =>
      obtain ⟨s₁, has, hbs⟩ := ih rest
      exact ⟨s₁, .cons first has, hbs⟩

end Runs

end FunnyOS
