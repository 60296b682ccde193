import FunnyOS.Lib.Prog

/-!
# Programs that end as the language defines

`Ends x s Q E` is `Sat x s Q E` for a run that does not fault either: a store outside a buffer is
excluded, where `Sat` promises nothing after it. The rules are those of `Sat`.
-/

namespace FunnyOS.Prog

variable {σ ε α β : Type}

/-- The run of `x` from `s` returns under `Q` or fails under `E`. -/
def Ends (x : Prog σ ε α) (s : σ) (Q : α → σ → Prop) (E : ε → σ → Prop) : Prop :=
  match x s with
  | .ok a s' => Q a s'
  | .error e s' => E e s'
  | .fault _ => False
  | .timeout _ => False

section

variable {x : Prog σ ε α} {s : σ} {Q : α → σ → Prop} {E : ε → σ → Prop} {R : β → σ → Prop}

theorem Ends.pure {a : α} (h : Q a s) : Ends (Pure.pure a) s Q E := h

theorem Ends.raise {e : ε} (h : E e s) : Ends (Prog.raise e) s Q E := h

theorem Ends.modify {f : σ → σ} {Q : Unit → σ → Prop} (h : Q () (f s)) :
    Ends (Prog.modify f) s Q E := h

theorem Ends.get_bind {f : σ → Prog σ ε β} (h : Ends (f s) s R E) :
    Ends (Prog.get >>= f) s R E := h

theorem Ends.modify_bind {g : σ → σ} {f : Unit → Prog σ ε β} (h : Ends (f ()) (g s) R E) :
    Ends (Prog.modify g >>= f) s R E := h

theorem Ends.mono {Q' : α → σ → Prop} {E' : ε → σ → Prop} (h : Ends x s Q E)
    (hQ : ∀ a s', Q a s' → Q' a s') (hE : ∀ e s', E e s' → E' e s') : Ends x s Q' E' := by
  unfold Ends at h ⊢
  cases hx : x s with
  | ok a s' => rw [hx] at h; exact hQ a s' h
  | error e s' => rw [hx] at h; exact hE e s' h
  | fault s' => rw [hx] at h; exact h
  | timeout s' => rw [hx] at h; exact h

theorem Ends.bind {f : α → Prog σ ε β} {F : ε → σ → Prop} (hx : Ends x s Q F)
    (hE : ∀ e s', F e s' → E e s') (hf : ∀ a s', Q a s' → Ends (f a) s' R E) :
    Ends (x >>= f) s R E := by
  change Ends (Prog.bind x f) s R E
  unfold Ends at hx ⊢
  unfold Prog.bind
  cases hr : x s with
  | ok a s' => rw [hr] at hx; exact hf a s' hx
  | error e s' => rw [hr] at hx; exact hE e s' hx
  | fault s' => rw [hr] at hx; exact hx
  | timeout s' => rw [hr] at hx; exact hx

/-- The rule for sequencing behind a step whose result is known. -/
theorem Ends.of_bind_ok {f : α → Prog σ ε β} {s' : σ} {a : α} (hx : x s = .ok a s')
    (h : Ends (f a) s' R E) : Ends (x >>= f) s R E := by
  unfold Ends at h ⊢
  rw [bind_of_ok hx]
  exact h

theorem Ends.ite {c : Prop} [Decidable c] {y : Prog σ ε α} (hx : c → Ends x s Q E)
    (hy : ¬ c → Ends y s Q E) : Ends (if c then x else y) s Q E := by
  by_cases h : c
  · rw [if_pos h]
    exact hx h
  · rw [if_neg h]
    exact hy h

theorem Ends.attempt {P : Except ε α → σ → Prop} {F : ε → σ → Prop} (hx : Ends x s Q F)
    (hok : ∀ a s', Q a s' → P (.ok a) s') (herr : ∀ e s', F e s' → P (.error e) s') :
    Ends (Prog.attempt x) s P E := by
  unfold Ends at hx ⊢
  unfold Prog.attempt
  cases hr : x s with
  | ok a s' => rw [hr] at hx; exact hok a s' hx
  | error e s' => rw [hr] at hx; exact herr e s' hx
  | fault s' => rw [hr] at hx; exact hx
  | timeout s' => rw [hr] at hx; exact hx

/-- The invariant rule for loops, as for `Sat`. -/
theorem Ends.loop {body : β → Prog σ ε (LoopStep β α)} (I : Nat → β → σ → Prop)
    (step : ∀ k b s, I k b s → Ends (body b) s
      (fun r s' => match r with
        | .again b' => ∃ k', k' < k ∧ I k' b' s'
        | .done a => Q a s') E) :
    ∀ (fuel k : Nat) (b : β) (s : σ), k < fuel → I k b s →
      Ends (loop body fuel b) s Q E := by
  intro fuel
  induction fuel with
  | zero => intro k b s hk; omega
  | succ fuel ih =>
    intro k b s hk hI
    refine Ends.bind (step k b s hI) (fun _ _ h => h) ?_
    rintro (b' | a) s' hr
    · obtain ⟨k', hlt, hI'⟩ := hr
      exact ih k' b' s' (by omega) hI'
    · exact hr

theorem Ends.sat (h : Ends x s Q E) : Sat x s Q E := by
  unfold Ends at h
  unfold Sat
  cases hx : x s with
  | ok a s' => rw [hx] at h; exact h
  | error e s' => rw [hx] at h; exact h
  | fault s' => trivial
  | timeout s' => rw [hx] at h; exact h

/-- A run that does not fault. -/
theorem Ends.of_sat (h : Sat x s Q E) (hdef : ∀ s', x s ≠ .fault s') : Ends x s Q E := by
  unfold Sat at h
  unfold Ends
  cases hx : x s with
  | ok a s' => rw [hx] at h; exact h
  | error e s' => rw [hx] at h; exact h
  | fault s' => exact absurd hx (hdef s')
  | timeout s' => rw [hx] at h; exact h

/-- A program that cannot fail returns. -/
theorem Ends.exists_ok (h : Ends x s Q (fun _ _ => False)) : ∃ a s', x s = .ok a s' ∧ Q a s' := by
  unfold Ends at h
  cases hx : x s with
  | ok a s' => rw [hx] at h; exact ⟨a, s', rfl, h⟩
  | _ => rw [hx] at h; exact h.elim

/-- The run returns exactly where what its value entails is not what its errors entail. -/
theorem Ends.isOk_iff {P : Prop} (h : Ends x s (fun _ _ => P) (fun _ _ => ¬ P)) :
    (x s).isOk = true ↔ P := by
  unfold Ends at h
  cases hx : x s with
  | ok a s' => rw [hx] at h; exact iff_of_true rfl h
  | error e s' => rw [hx] at h; exact iff_of_false Bool.false_ne_true h
  | fault s' => rw [hx] at h; exact h.elim
  | timeout s' => rw [hx] at h; exact h.elim

/-- The caller sees how the run has ended. -/
theorem Ends.result_isSome (h : Ends x s Q E) : (x s).result.isSome = true := by
  unfold Ends at h
  cases hx : x s with
  | ok a s' => rfl
  | error e s' => rfl
  | fault s' => rw [hx] at h; exact h.elim
  | timeout s' => rw [hx] at h; exact h.elim

/-- What holds wherever the run ends. -/
theorem Ends.state {P : σ → Prop} (h : Ends x s (fun _ => P) (fun _ => P)) : P (x s).state := by
  unfold Ends at h
  cases hx : x s with
  | ok a s' => rw [hx] at h; exact h
  | error e s' => rw [hx] at h; exact h
  | fault s' => rw [hx] at h; exact h.elim
  | timeout s' => rw [hx] at h; exact h.elim

theorem Ends.of_ok {a : α} {s' : σ} (h : Ends x s Q E) (hx : x s = .ok a s') : Q a s' :=
  h.sat.of_ok hx

end

end FunnyOS.Prog
