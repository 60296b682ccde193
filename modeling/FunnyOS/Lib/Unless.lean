import FunnyOS.Lib.Parts
import FunnyOS.Lib.Ends

/-!
# Programs up to an incident

`Unless B x s Q E` is `Ends x s Q E`, except that the run may come to a state with `B`, after which
it may end in any way. Where every program keeps `B`, it is composed as `Ends` is: what follows an
incident need not be looked at.
-/

namespace FunnyOS.Prog

variable {σ τ ε α β : Type} {B : σ → Prop}

/-- The run of `x` from `s` returns under `Q` or fails under `E`, or comes to a state with `B`. -/
def Unless (B : σ → Prop) (x : Prog σ ε α) (s : σ) (Q : α → σ → Prop) (E : ε → σ → Prop) : Prop :=
  match x s with
  | .ok a s' => Q a s' ∨ B s'
  | .error e s' => E e s' ∨ B s'
  | .fault s' => B s'
  | .timeout s' => B s'

section

variable {x : Prog σ ε α} {s : σ} {Q : α → σ → Prop} {E F : ε → σ → Prop} {R : β → σ → Prop}

theorem Unless.pure {a : α} (h : Q a s) : Unless B (Pure.pure a) s Q E := .inl h

theorem Unless.raise {e : ε} (h : E e s) : Unless B (Prog.raise e) s Q E := .inl h

theorem Unless.modify {f : σ → σ} {Q : Unit → σ → Prop} (h : Q () (f s)) :
    Unless B (Prog.modify f) s Q E := .inl h

theorem Unless.modify_bind {g : σ → σ} {f : Unit → Prog σ ε β} (h : Unless B (f ()) (g s) R E) :
    Unless B (Prog.modify g >>= f) s R E := h

/-- An incident has happened. -/
theorem Unless.of_incident (h : B s) (hx : Maintains B x) : Unless B x s Q E := by
  have hstate := hx s h
  unfold Unless
  cases hr : x s <;> rw [hr] at hstate
  · exact .inr hstate
  · exact .inr hstate
  · exact hstate
  · exact hstate

theorem Unless.of_ends (h : Ends x s Q E) : Unless B x s Q E := by
  unfold Ends at h
  unfold Unless
  cases hr : x s <;> rw [hr] at h
  · exact .inl h
  · exact .inl h
  · exact h.elim
  · exact h.elim

theorem Unless.mono {Q' : α → σ → Prop} {E' : ε → σ → Prop} (h : Unless B x s Q E)
    (hQ : ∀ a s', Q a s' → Q' a s') (hE : ∀ e s', E e s' → E' e s') : Unless B x s Q' E' := by
  unfold Unless at h ⊢
  cases hr : x s <;> rw [hr] at h
  · exact h.imp_left (hQ _ _)
  · exact h.imp_left (hE _ _)
  · exact h
  · exact h

/-- The rule for sequencing: what follows has to keep the incident. -/
theorem Unless.bind {f : α → Prog σ ε β} (hx : Unless B x s Q F) (hB : ∀ a, Maintains B (f a))
    (hE : ∀ e s', F e s' → E e s') (hf : ∀ a s', Q a s' → Unless B (f a) s' R E) :
    Unless B (x >>= f) s R E := by
  change Unless B (Prog.bind x f) s R E
  unfold Unless at hx ⊢
  unfold Prog.bind
  cases hr : x s with
  | ok a s' =>
    rw [hr] at hx
    rcases hx with hQ | hincident
    · exact hf a s' hQ
    · exact Unless.of_incident hincident (hB a)
  | error e s' =>
    rw [hr] at hx
    exact hx.imp_left (hE e s')
  | fault s' => rw [hr] at hx; exact hx
  | timeout s' => rw [hr] at hx; exact hx

theorem Unless.attempt {P : Except ε α → σ → Prop} (hx : Unless B x s Q F)
    (hok : ∀ a s', Q a s' → P (.ok a) s') (herr : ∀ e s', F e s' → P (.error e) s') :
    Unless B (Prog.attempt x) s P E := by
  unfold Unless at hx ⊢
  unfold Prog.attempt
  cases hr : x s with
  | ok a s' => rw [hr] at hx; exact hx.imp_left (hok a s')
  | error e s' => rw [hr] at hx; exact hx.imp_left (herr e s')
  | fault s' => rw [hr] at hx; exact hx
  | timeout s' => rw [hr] at hx; exact hx

theorem Unless.ite {c : Prop} [Decidable c] {y : Prog σ ε α} (hx : c → Unless B x s Q E)
    (hy : ¬ c → Unless B y s Q E) : Unless B (if c then x else y) s Q E := by
  by_cases h : c
  · rw [if_pos h]
    exact hx h
  · rw [if_neg h]
    exact hy h

/-- The state that a run reaches. -/
theorem Unless.state {P : σ → Prop} (h : Unless B x s (fun _ s' => P s') (fun _ s' => P s')) :
    P (x s).state ∨ B (x s).state := by
  unfold Unless at h
  cases hr : x s <;> rw [hr] at h
  · exact h
  · exact h
  · exact .inr h
  · exact .inr h

theorem Ends.onPart {part : σ → τ} {put : σ → τ → σ} {x : Prog τ ε α}
    (h : Ends x (part s) (fun a t => Q a (put s t)) (fun e t => E e (put s t))) :
    Ends (Prog.onPart part put x) s Q E := by
  unfold Ends at h ⊢
  unfold Prog.onPart
  cases hr : x (part s) <;> rw [hr] at h <;> exact h

/-- A program that only changes a part which an invariant says nothing about. -/
theorem Maintains.onPart {part : σ → τ} {put : σ → τ → σ} {x : Prog τ ε α}
    (h : ∀ s t, B s → B (put s t)) : Maintains B (Prog.onPart part put x) := by
  intro s hs
  unfold Prog.onPart
  cases x (part s) <;> exact h _ _ hs

end

end FunnyOS.Prog
