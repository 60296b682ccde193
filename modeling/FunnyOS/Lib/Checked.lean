import Mathlib

/-!
# Lists read by a machine with a state

A scanner walks along a list, keeping a state. `Checked step ok st l` says that every
element of `l` is acceptable (`ok`) in the state in which the scanner meets it. Lists that
are put together from parts are checked part by part, and a relation between two scanners
that every step keeps carries the checks of one over to the other.
-/

namespace FunnyOS

variable {α σ τ : Type} {step : σ → α → σ} {ok : σ → α → Prop}

/-- Every element is acceptable in the state in which it is met. -/
def Checked (step : σ → α → σ) (ok : σ → α → Prop) : σ → List α → Prop
  | _, [] => True
  | st, a :: l => ok st a ∧ Checked step ok (step st a) l

instance Checked.decidable [∀ st a, Decidable (ok st a)] :
    ∀ (st : σ) (l : List α), Decidable (Checked step ok st l)
  | _, [] => isTrue trivial
  | st, a :: l => @instDecidableAnd _ _ _ (Checked.decidable (step st a) l)

@[simp] theorem checked_nil {st : σ} : Checked step ok st [] := trivial

@[simp] theorem checked_cons {st : σ} {a : α} {l : List α} :
    Checked step ok st (a :: l) ↔ ok st a ∧ Checked step ok (step st a) l := Iff.rfl

/-- The second part is checked from the state behind the first. -/
theorem checked_append {st : σ} {l l' : List α} :
    Checked step ok st (l ++ l') ↔
      Checked step ok st l ∧ Checked step ok (l.foldl step st) l' := by
  induction l generalizing st with
  | nil => simp
  | cons a l ih => simp only [List.cons_append, checked_cons, ih, List.foldl_cons, and_assoc]

/-- What holds of every acceptable element holds of all of them. -/
theorem Checked.forall {st : σ} {l : List α} {p : α → Prop} (h : Checked step ok st l)
    (hp : ∀ st a, ok st a → p a) : ∀ a ∈ l, p a := by
  induction l generalizing st with
  | nil => simp
  | cons a l ih =>
    intro b hb
    rcases List.mem_cons.mp hb with rfl | hb
    · exact hp st b h.1
    · exact ih h.2 b hb

/-- An element may be replaced by one that is checked alike. -/
theorem Checked.set {st : σ} {l : List α} {i : Nat} {a b : α} (h : Checked step ok st l)
    (hi : l[i]? = some a) (hstep : ∀ st, step st b = step st a) (hok : ∀ st, ok st a → ok st b) :
    Checked step ok st (l.set i b) ∧ (l.set i b).foldl step st = l.foldl step st := by
  induction l generalizing st i with
  | nil => simp at hi
  | cons x l ih =>
    obtain ⟨hx, hl⟩ := h
    cases i with
    | zero =>
      obtain rfl : x = a := by simpa using hi
      refine ⟨⟨hok st hx, ?_⟩, ?_⟩
      · rwa [hstep]
      · rw [List.set_cons_zero, List.foldl_cons, List.foldl_cons, hstep]
    | succ i =>
      obtain ⟨hset, hfold⟩ := ih hl (by simpa using hi)
      exact ⟨⟨hx, hset⟩, hfold⟩

/-- A simulation: related states accept the same elements and stay related. -/
theorem Checked.simulate (step' : τ → α → τ) (ok' : τ → α → Prop) (R : σ → τ → Prop)
    (keep : ∀ st st' a, R st st' → ok st a → ok' st' a ∧ R (step st a) (step' st' a))
    {st : σ} {st' : τ} {l : List α} (hR : R st st') (h : Checked step ok st l) :
    Checked step' ok' st' l ∧ R (l.foldl step st) (l.foldl step' st') := by
  induction l generalizing st st' with
  | nil => exact ⟨trivial, hR⟩
  | cons a l ih =>
    obtain ⟨hok, hR'⟩ := keep st st' a hR h.1
    obtain ⟨hl, hlast⟩ := ih hR' h.2
    exact ⟨⟨hok, hl⟩, hlast⟩

end FunnyOS
