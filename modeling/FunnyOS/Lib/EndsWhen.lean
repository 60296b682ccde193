import FunnyOS.Lib.Unless

/-!
# Programs that end as the language defines, on a condition

`EndsWhen P x s Q E` is `Sat x s Q E` for a run that does not fault if `P`: between `Sat`, where
`P` is false, and `Ends`, where it is true. One proof then serves both.
-/

namespace FunnyOS.Prog

variable {σ τ ε α β : Type} {P : Prop}

/-- The run of `x` from `s` returns under `Q` or fails under `E`, or faults where `P` is false. -/
def EndsWhen (P : Prop) (x : Prog σ ε α) (s : σ) (Q : α → σ → Prop) (E : ε → σ → Prop) : Prop :=
  match x s with
  | .ok a s' => Q a s'
  | .error e s' => E e s'
  | .fault _ => ¬ P
  | .timeout _ => False

section

variable {x : Prog σ ε α} {s : σ} {Q : α → σ → Prop} {E F : ε → σ → Prop} {R : β → σ → Prop}

theorem EndsWhen.pure {a : α} (h : Q a s) : EndsWhen P (Pure.pure a) s Q E := h

theorem EndsWhen.raise {e : ε} (h : E e s) : EndsWhen P (Prog.raise e) s Q E := h

theorem EndsWhen.modify {f : σ → σ} {Q : Unit → σ → Prop} (h : Q () (f s)) :
    EndsWhen P (Prog.modify f) s Q E := h

theorem EndsWhen.get_bind {f : σ → Prog σ ε β} (h : EndsWhen P (f s) s R E) :
    EndsWhen P (Prog.get >>= f) s R E := h

theorem EndsWhen.modify_bind {g : σ → σ} {f : Unit → Prog σ ε β}
    (h : EndsWhen P (f ()) (g s) R E) : EndsWhen P (Prog.modify g >>= f) s R E := h

theorem EndsWhen.of_ends (h : Ends x s Q E) : EndsWhen P x s Q E := by
  unfold Ends at h
  unfold EndsWhen
  cases hx : x s with
  | ok a s' => rw [hx] at h; exact h
  | error e s' => rw [hx] at h; exact h
  | fault s' => rw [hx] at h; exact h.elim
  | timeout s' => rw [hx] at h; exact h

theorem EndsWhen.sat (h : EndsWhen P x s Q E) : Sat x s Q E := by
  unfold EndsWhen at h
  unfold Sat
  cases hx : x s with
  | ok a s' => rw [hx] at h; exact h
  | error e s' => rw [hx] at h; exact h
  | fault s' => trivial
  | timeout s' => rw [hx] at h; exact h

theorem EndsWhen.ends (h : EndsWhen P x s Q E) (hP : P) : Ends x s Q E := by
  unfold EndsWhen at h
  unfold Ends
  cases hx : x s with
  | ok a s' => rw [hx] at h; exact h
  | error e s' => rw [hx] at h; exact h
  | fault s' => rw [hx] at h; exact h hP
  | timeout s' => rw [hx] at h; exact h

/-- The rule for sequencing. -/
theorem EndsWhen.bind {f : α → Prog σ ε β} (hx : EndsWhen P x s Q F)
    (hE : ∀ e s', F e s' → E e s') (hf : ∀ a s', Q a s' → EndsWhen P (f a) s' R E) :
    EndsWhen P (x >>= f) s R E := by
  change EndsWhen P (Prog.bind x f) s R E
  unfold EndsWhen at hx ⊢
  unfold Prog.bind
  cases hr : x s with
  | ok a s' => rw [hr] at hx; exact hf a s' hx
  | error e s' => rw [hr] at hx; exact hE e s' hx
  | fault s' => rw [hr] at hx; exact hx
  | timeout s' => rw [hr] at hx; exact hx

theorem EndsWhen.ite {c : Prop} [Decidable c] {y : Prog σ ε α} (hx : c → EndsWhen P x s Q E)
    (hy : ¬ c → EndsWhen P y s Q E) : EndsWhen P (if c then x else y) s Q E := by
  by_cases h : c
  · rw [if_pos h]
    exact hx h
  · rw [if_neg h]
    exact hy h

theorem EndsWhen.orElse {handler : ε → Prog σ ε α} (hx : EndsWhen P x s Q F)
    (hhandler : ∀ e s', F e s' → EndsWhen P (handler e) s' Q E) :
    EndsWhen P (Prog.orElse x handler) s Q E := by
  unfold EndsWhen at hx
  unfold EndsWhen Prog.orElse
  cases hr : x s with
  | ok a s' => rw [hr] at hx; exact hx
  | error e s' => rw [hr] at hx; exact hhandler e s' hx
  | fault s' => rw [hr] at hx; exact hx
  | timeout s' => rw [hr] at hx; exact hx

/-- What every run keeps, beside what is specified. -/
theorem EndsWhen.maintains {I : σ → Prop} (h : EndsWhen P x s Q E) (hx : Maintains I x) (hs : I s) :
    EndsWhen P x s (fun a s' => Q a s' ∧ I s') (fun e s' => E e s' ∧ I s') := by
  have hstate := hx s hs
  unfold EndsWhen at h ⊢
  cases hr : x s with
  | ok a s' => rw [hr] at h hstate; exact ⟨h, hstate⟩
  | error e s' => rw [hr] at h hstate; exact ⟨h, hstate⟩
  | fault s' => rw [hr] at h; exact h
  | timeout s' => rw [hr] at h; exact h

theorem Ends.orElse {handler : ε → Prog σ ε α} (hx : Ends x s Q F)
    (hhandler : ∀ e s', F e s' → Ends (handler e) s' Q E) :
    Ends (Prog.orElse x handler) s Q E :=
  (EndsWhen.orElse (P := True) (.of_ends hx) fun e s' h => .of_ends (hhandler e s' h)).ends trivial

theorem Ends.and_sat {Q' : α → σ → Prop} {E' : ε → σ → Prop} (h : Ends x s Q E)
    (h' : Sat x s Q' E') : Ends x s (fun a s' => Q a s' ∧ Q' a s') (fun e s' => E e s' ∧ E' e s') := by
  refine Ends.of_sat (h.sat.and h') fun s' hfault => ?_
  unfold Ends at h
  rw [hfault] at h
  exact h

theorem Maintains.orElse {I : σ → Prop} {handler : ε → Prog σ ε α} (hx : Maintains I x)
    (hhandler : ∀ e, Maintains I (handler e)) : Maintains I (Prog.orElse x handler) := by
  intro s hs
  have hs' := hx s hs
  unfold Prog.orElse
  cases hr : x s <;> rw [hr] at hs'
  · exact hs'
  · exact hhandler _ _ hs'
  · exact hs'
  · exact hs'

end

end FunnyOS.Prog
