import FunnyOS.Lib.Prog

/-!
# What holds where a program returns

`Returns x s Q E` says of the run of `x` from `s` that a returned value satisfies `Q` and an error
satisfies `E`, and nothing where the run does not return: `Sat` without the promise to end. It goes
together with `Maintains`, whose invariants it takes up and hands on.
-/

namespace FunnyOS.Prog

variable {σ ε α β : Type}

/-- If the run of `x` from `s` returns, then under `Q`, and if it fails, then under `E`. -/
def Returns (x : Prog σ ε α) (s : σ) (Q : α → σ → Prop) (E : ε → σ → Prop) : Prop :=
  match x s with
  | .ok a s' => Q a s'
  | .error e s' => E e s'
  | .fault _ => True
  | .timeout _ => True

section

variable {x : Prog σ ε α} {f : α → Prog σ ε β} {s s' : σ} {Q Q' : α → σ → Prop}
  {E E' F : ε → σ → Prop} {R : β → σ → Prop} {I : σ → Prop}

theorem Returns.pure {a : α} (h : Q a s) : Returns (Pure.pure a) s Q E := h

theorem Returns.raise {e : ε} (h : E e s) : Returns (Prog.raise e) s Q E := h

theorem Returns.of_sat (h : Sat x s Q E) : Returns x s Q E := by
  unfold Sat at h
  unfold Returns
  cases hx : x s <;> rw [hx] at h <;> first | exact h | trivial

/-- An invariant that holds at the start holds where the run returns. -/
theorem Returns.of_maintains (hx : Maintains I x) (h : I s) :
    Returns x s (fun _ => I) (fun _ => I) := by
  have hstate := hx s h
  unfold Returns
  cases hr : x s <;> rw [hr] at hstate <;> first | exact hstate | trivial

theorem Returns.mono (h : Returns x s Q E) (hQ : ∀ a s', Q a s' → Q' a s')
    (hE : ∀ e s', E e s' → E' e s') : Returns x s Q' E' := by
  unfold Returns at h ⊢
  cases hx : x s with
  | ok a s' => rw [hx] at h; exact hQ a s' h
  | error e s' => rw [hx] at h; exact hE e s' h
  | fault s' => trivial
  | timeout s' => trivial

theorem Returns.bind (hx : Returns x s Q F) (hE : ∀ e s', F e s' → E e s')
    (hf : ∀ a s', Q a s' → Returns (f a) s' R E) : Returns (x >>= f) s R E := by
  change Returns (Prog.bind x f) s R E
  unfold Returns at hx ⊢
  unfold Prog.bind
  cases hr : x s with
  | ok a s' => rw [hr] at hx; exact hf a s' hx
  | error e s' => rw [hr] at hx; exact hE e s' hx
  | fault s' => trivial
  | timeout s' => trivial

/-- Any run is one that may return. -/
theorem Returns.ends : Returns x s (fun _ _ => True) (fun _ _ => True) := by
  unfold Returns
  cases x s <;> trivial

/-- A first part whose result is known. -/
theorem Returns.of_bind_ok {a : α} (hx : x s = .ok a s') (h : Returns (f a) s' R E) :
    Returns (x >>= f) s R E := by
  unfold Returns at h ⊢
  rw [bind_of_ok hx]
  exact h

/-- A first part that keeps an invariant. -/
theorem Returns.maintains_bind (hx : Maintains I x) (h : I s) (hE : ∀ e s', I s' → E e s')
    (hf : ∀ a s', I s' → Returns (f a) s' R E) : Returns (x >>= f) s R E :=
  (Returns.of_maintains hx h).bind hE hf

theorem Returns.get_bind {f : σ → Prog σ ε β} (h : Returns (f s) s R E) :
    Returns (Prog.get >>= f) s R E := h

theorem Returns.modify_bind {g : σ → σ} {f : Unit → Prog σ ε β} (h : Returns (f ()) (g s) R E) :
    Returns (Prog.modify g >>= f) s R E := h

theorem Returns.ite {c : Prop} [Decidable c] {y : Prog σ ε α} (hx : c → Returns x s Q E)
    (hy : ¬ c → Returns y s Q E) : Returns (if c then x else y) s Q E := by
  by_cases h : c
  · rw [if_pos h]
    exact hx h
  · rw [if_neg h]
    exact hy h

/-- What is known of a run that returns. -/
theorem Returns.and (h : Returns x s Q E) (h' : Returns x s Q' E') :
    Returns x s (fun a s' => Q a s' ∧ Q' a s') (fun e s' => E e s' ∧ E' e s') := by
  unfold Returns at h h' ⊢
  cases hx : x s with
  | ok a s' => rw [hx] at h h'; exact ⟨h, h'⟩
  | error e s' => rw [hx] at h h'; exact ⟨h, h'⟩
  | fault s' => trivial
  | timeout s' => trivial

/-- The invariant rule for loops. -/
theorem Returns.loop {body : β → Prog σ ε (LoopStep β α)} (I : β → σ → Prop)
    (step : ∀ b s, I b s → Returns (body b) s
      (fun r s' => match r with
        | .again b' => I b' s'
        | .done a => Q a s') E) :
    ∀ (fuel : Nat) (b : β) (s : σ), I b s → Returns (loop body fuel b) s Q E := by
  intro fuel
  induction fuel with
  | zero => exact fun _ _ _ => trivial
  | succ fuel ih =>
    intro b s hI
    refine (step b s hI).bind (fun _ _ h => h) fun r s' hr => ?_
    cases r with
    | again b' => exact ih b' s' hr
    | done a => exact hr

theorem Returns.of_ok {a : α} (h : Returns x s Q E) (hx : x s = .ok a s') : Q a s' := by
  unfold Returns at h
  rw [hx] at h
  exact h

theorem Returns.of_error {e : ε} (h : Returns x s Q E) (hx : x s = .error e s') : E e s' := by
  unfold Returns at h
  rw [hx] at h
  exact h

end

end FunnyOS.Prog
