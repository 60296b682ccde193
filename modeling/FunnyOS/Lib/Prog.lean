import Mathlib

/-!
# Programs with state, error codes and fuel

`Prog σ ε α` is the shape of the C routines modelled in this development: a
routine reads and writes a state `σ` and either returns a value or stops with an
error code. Two more outcomes are kept apart from both: `fault` (the routine did
something whose effect the language does not define, such as a store outside a
buffer) and `timeout` (a loop was cut off by the fuel that bounds it in Lean).

`Sat x s Q E` is the specification judgement used everywhere: the run of `x` from
`s` does not time out, a returned value satisfies `Q` and an error satisfies `E`.
Nothing is promised after a `fault`.
-/

namespace FunnyOS

/-- How a run of a program ends. -/
inductive Outcome (σ ε α : Type) : Type where
  | ok (value : α) (state : σ)
  | error (code : ε) (state : σ)
  | fault (state : σ)
  | timeout (state : σ)

/-- The run has returned a value. -/
def Outcome.isOk {σ ε α : Type} : Outcome σ ε α → Bool
  | .ok _ _ => true
  | _ => false

/-- The error code that the run has returned. -/
def Outcome.code {σ ε α : Type} : Outcome σ ε α → Option ε
  | .error e _ => some e
  | _ => none

/-- What the caller sees: the value or the error code, if the run ends as the language defines. -/
def Outcome.result {σ ε α : Type} : Outcome σ ε α → Option (Except ε α)
  | .ok a _ => some (.ok a)
  | .error e _ => some (.error e)
  | _ => none

/-- The state in which the run has ended, `d` if it has not. -/
def Outcome.finalState {σ ε α : Type} (d : σ) : Outcome σ ε α → σ
  | .ok _ s => s
  | .error _ s => s
  | _ => d

/-- The state that the run has reached, however it ends. -/
def Outcome.state {σ ε α : Type} : Outcome σ ε α → σ
  | .ok _ s => s
  | .error _ s => s
  | .fault s => s
  | .timeout s => s

/-- A program over the state `σ` that returns an `α` or an error code `ε`. -/
def Prog (σ ε α : Type) : Type := σ → Outcome σ ε α

/-- The result of one round of a loop: go round again, or leave the loop. -/
inductive LoopStep (β α : Type) : Type where
  | again (next : β)
  | done (value : α)

namespace Prog

variable {σ ε α β : Type}

theorem eq_ok_of_isOk {o : Outcome σ ε Unit} {d : σ} (h : o.isOk = true) :
    o = .ok () (o.finalState d) := by
  cases o <;> first | rfl | cases h

theorem exists_ok_of_isOk {o : Outcome σ ε α} (h : o.isOk = true) : ∃ a s, o = .ok a s := by
  cases o with
  | ok a s => exact ⟨a, s, rfl⟩
  | _ => cases h

theorem eq_error_of_code {o : Outcome σ ε α} {d : σ} {e : ε} (h : o.code = some e) :
    o = .error e (o.finalState d) := by
  cases o with
  | error e' s =>
    obtain rfl := Option.some.inj h
    rfl
  | _ => cases h

theorem eq_ok_of_result {o : Outcome σ ε α} {d : σ} {a : α} (h : o.result = some (.ok a)) :
    o = .ok a (o.finalState d) := by
  cases o with
  | ok a' s =>
    obtain rfl := Except.ok.inj (Option.some.inj h)
    rfl
  | _ => cases h

/-- Run `x`, and on success continue with `f`. -/
def bind (x : Prog σ ε α) (f : α → Prog σ ε β) : Prog σ ε β := fun s =>
  match x s with
  | .ok a s' => f a s'
  | .error e s' => .error e s'
  | .fault s' => .fault s'
  | .timeout s' => .timeout s'

instance : Monad (Prog σ ε) where
  pure a := fun s => .ok a s
  bind := bind

/-- What follows a step that has returned. -/
theorem bind_of_ok {x : Prog σ ε α} {f : α → Prog σ ε β} {s s' : σ} {a : α}
    (h : x s = .ok a s') : (x >>= f) s = f a s' := by
  change Prog.bind x f s = f a s'
  rw [Prog.bind, h]

/-- A sequence that has returned has returned from its first step. -/
theorem ok_of_bind {x : Prog σ ε α} {f : α → Prog σ ε β} {s s' : σ} {b : β}
    (h : (x >>= f) s = .ok b s') : ∃ a s₁, x s = .ok a s₁ ∧ f a s₁ = .ok b s' := by
  change Prog.bind x f s = .ok b s' at h
  unfold Prog.bind at h
  cases hx : x s with
  | ok a s₁ => rw [hx] at h; exact ⟨a, s₁, rfl, h⟩
  | _ => rw [hx] at h; cases h

/-- A sequence may be grouped either way. -/
theorem bind_bind {γ : Type} {x : Prog σ ε α} {f : α → Prog σ ε β} {k : β → Prog σ ε γ} :
    x >>= f >>= k = x >>= fun a => f a >>= k := by
  funext s
  change Prog.bind (Prog.bind x f) k s = Prog.bind x (fun a => Prog.bind (f a) k) s
  unfold Prog.bind
  cases x s <;> rfl

/-- Stop with an error code. -/
def raise (e : ε) : Prog σ ε α := fun s => .error e s

/-- Undefined behaviour of the modelled program. -/
def fault : Prog σ ε α := fun s => .fault s

/-- Read the whole state. -/
def get : Prog σ ε σ := fun s => .ok s s

/-- Update the state. -/
def modify (f : σ → σ) : Prog σ ε Unit := fun s => .ok () (f s)

/-- Run `x` and hand its error code, if any, to the caller as a value. -/
def attempt (x : Prog σ ε α) : Prog σ ε (Except ε α) := fun s =>
  match x s with
  | .ok a s' => .ok (.ok a) s'
  | .error e s' => .ok (.error e) s'
  | .fault s' => .fault s'
  | .timeout s' => .timeout s'

/-- A `while` loop over the loop variables `β`, bounded by fuel. -/
def loop (body : β → Prog σ ε (LoopStep β α)) : Nat → β → Prog σ ε α
  | 0, _ => fun s => .timeout s
  | fuel + 1, b => do
      match ← body b with
      | .again b' => loop body fuel b'
      | .done a => pure a

/-- The run of `x` from `s` ends, returning under `Q` or failing under `E`. -/
def Sat (x : Prog σ ε α) (s : σ) (Q : α → σ → Prop) (E : ε → σ → Prop) : Prop :=
  match x s with
  | .ok a s' => Q a s'
  | .error e s' => E e s'
  | .fault _ => True
  | .timeout _ => False

theorem Sat.pure {a : α} {s : σ} {Q : α → σ → Prop} {E : ε → σ → Prop} (h : Q a s) :
    Sat (Pure.pure a : Prog σ ε α) s Q E := h

theorem Sat.raise {e : ε} {s : σ} {Q : α → σ → Prop} {E : ε → σ → Prop} (h : E e s) :
    Sat (raise e : Prog σ ε α) s Q E := h

theorem Sat.fault {s : σ} {Q : α → σ → Prop} {E : ε → σ → Prop} :
    Sat (fault : Prog σ ε α) s Q E := trivial

theorem Sat.modify {f : σ → σ} {s : σ} {Q : Unit → σ → Prop} {E : ε → σ → Prop}
    (h : Q () (f s)) : Sat (modify f : Prog σ ε Unit) s Q E := h

theorem Sat.mono {x : Prog σ ε α} {s : σ} {Q Q' : α → σ → Prop} {E E' : ε → σ → Prop}
    (h : Sat x s Q E) (hQ : ∀ a s', Q a s' → Q' a s') (hE : ∀ e s', E e s' → E' e s') :
    Sat x s Q' E' := by
  unfold Sat at h ⊢
  cases hx : x s with
  | ok a s' => rw [hx] at h; exact hQ a s' h
  | error e s' => rw [hx] at h; exact hE e s' h
  | fault s' => trivial
  | timeout s' => rw [hx] at h; exact h

/-- The rule for sequencing: a specification of `x`, what its errors entail, and a
specification of the rest under each result. -/
theorem Sat.bind {x : Prog σ ε α} {f : α → Prog σ ε β} {s : σ} {Q : α → σ → Prop}
    {F E : ε → σ → Prop} {R : β → σ → Prop} (hx : Sat x s Q F)
    (hE : ∀ e s', F e s' → E e s') (hf : ∀ a s', Q a s' → Sat (f a) s' R E) :
    Sat (x >>= f) s R E := by
  change Sat (Prog.bind x f) s R E
  unfold Sat at hx ⊢
  unfold Prog.bind
  cases hr : x s with
  | ok a s' => rw [hr] at hx; exact hf a s' hx
  | error e s' => rw [hr] at hx; exact hE e s' hx
  | fault s' => trivial
  | timeout s' => rw [hr] at hx; exact hx

/-- The rule for sequencing behind a step whose result is known. -/
theorem Sat.of_bind_ok {x : Prog σ ε α} {f : α → Prog σ ε β} {s s' : σ} {a : α}
    {E : ε → σ → Prop} {R : β → σ → Prop} (hx : x s = .ok a s') (h : Sat (f a) s' R E) :
    Sat (x >>= f) s R E := by
  unfold Sat at h ⊢
  rw [bind_of_ok hx]
  exact h

/-- Reading the state continues with the state that was read. -/
theorem Sat.get_bind {f : σ → Prog σ ε β} {s : σ} {E : ε → σ → Prop} {R : β → σ → Prop}
    (h : Sat (f s) s R E) : Sat (Prog.get >>= f) s R E := h

/-- The steps of a sequence may be grouped. -/
theorem Sat.assoc {γ : Type} {x : Prog σ ε α} {f : α → Prog σ ε β} {k : β → Prog σ ε γ} {s : σ}
    {Q : γ → σ → Prop} {E : ε → σ → Prop} (h : Sat ((x >>= f) >>= k) s Q E) :
    Sat (x >>= fun a => f a >>= k) s Q E := by
  change Sat (Prog.bind (Prog.bind x f) k) s Q E at h
  change Sat (Prog.bind x fun a => Prog.bind (f a) k) s Q E
  unfold Sat Prog.bind at h ⊢
  cases hx : x s <;> simp only [hx] at h ⊢ <;> exact h

/-- An update continues in the updated state. -/
theorem Sat.modify_bind {g : σ → σ} {f : Unit → Prog σ ε β} {s : σ} {E : ε → σ → Prop}
    {R : β → σ → Prop} (h : Sat (f ()) (g s) R E) : Sat (Prog.modify g >>= f) s R E := h

theorem Sat.attempt {x : Prog σ ε α} {s : σ} {Q : α → σ → Prop} {E' E : ε → σ → Prop}
    {R : Except ε α → σ → Prop} (hx : Sat x s Q E') (hok : ∀ a s', Q a s' → R (.ok a) s')
    (herr : ∀ e s', E' e s' → R (.error e) s') : Sat (attempt x) s R E := by
  unfold Sat at hx ⊢
  unfold Prog.attempt
  cases hr : x s with
  | ok a s' => rw [hr] at hx; exact hok a s' hx
  | error e s' => rw [hr] at hx; exact herr e s' hx
  | fault s' => trivial
  | timeout s' => rw [hr] at hx; exact hx

theorem Sat.ite {c : Prop} [Decidable c] {x y : Prog σ ε α} {s : σ} {Q : α → σ → Prop}
    {E : ε → σ → Prop} (hx : c → Sat x s Q E) (hy : ¬ c → Sat y s Q E) :
    Sat (if c then x else y) s Q E := by
  by_cases h : c
  · rw [if_pos h]; exact hx h
  · rw [if_neg h]; exact hy h

/-- Two specifications of the same run may be used together. -/
theorem Sat.and {x : Prog σ ε α} {s : σ} {Q Q' : α → σ → Prop} {E E' : ε → σ → Prop}
    (h : Sat x s Q E) (h' : Sat x s Q' E') :
    Sat x s (fun a s' => Q a s' ∧ Q' a s') (fun e s' => E e s' ∧ E' e s') := by
  unfold Sat at h h' ⊢
  cases hx : x s with
  | ok a s' => rw [hx] at h h'; exact ⟨h, h'⟩
  | error e s' => rw [hx] at h h'; exact ⟨h, h'⟩
  | fault s' => trivial
  | timeout s' => rw [hx] at h; exact h

/-- A condition on a result that has been caught. -/
def caught (Q : α → Prop) (E : ε → Prop) : Except ε α → Prop
  | .ok a => Q a
  | .error e => E e

/-- The invariant rule for loops. `I k b s` holds at the loop head when at most `k`
more rounds follow the next one; every round leaves the loop or lowers `k`. -/
theorem Sat.loop {body : β → Prog σ ε (LoopStep β α)} {Q : α → σ → Prop}
    {E : ε → σ → Prop} (I : Nat → β → σ → Prop)
    (step : ∀ k b s, I k b s → Sat (body b) s
      (fun r s' => match r with
        | .again b' => ∃ k', k' < k ∧ I k' b' s'
        | .done a => Q a s') E) :
    ∀ (fuel k : Nat) (b : β) (s : σ), k < fuel → I k b s →
      Sat (loop body fuel b) s Q E := by
  intro fuel
  induction fuel with
  | zero => intro k b s hk; omega
  | succ fuel ih =>
    intro k b s hk hI
    refine Sat.bind (step k b s hI) (fun _ _ h => h) ?_
    rintro (b' | a) s' hr
    · obtain ⟨k', hlt, hI'⟩ := hr
      exact ih k' b' s' (by omega) hI'
    · exact hr

/-! ## Programs without undefined behaviour -/

/-- No run of the program does something that the language does not define. -/
def Defined (x : Prog σ ε α) : Prop := ∀ s s', x s ≠ .fault s'

theorem Defined.pure {a : α} : Defined (Pure.pure a : Prog σ ε α) := fun _ _ h => by cases h

theorem Defined.raise {e : ε} : Defined (raise e : Prog σ ε α) := fun _ _ h => by cases h

theorem Defined.get : Defined (get : Prog σ ε σ) := fun _ _ h => by cases h

theorem Defined.modify {f : σ → σ} : Defined (modify f : Prog σ ε Unit) := fun _ _ h => by cases h

theorem Defined.bind {x : Prog σ ε α} {f : α → Prog σ ε β} (hx : Defined x)
    (hf : ∀ a, Defined (f a)) : Defined (x >>= f) := by
  intro s s₀
  change Prog.bind x f s ≠ .fault s₀
  unfold Prog.bind
  cases hr : x s with
  | ok a s' => exact hf a s' s₀
  | error e s' => exact fun h => by cases h
  | fault s' => exact absurd hr (hx s s')
  | timeout s' => exact fun h => by cases h

theorem Defined.attempt {x : Prog σ ε α} (hx : Defined x) : Defined (attempt x) := by
  intro s _
  unfold Prog.attempt
  cases hr : x s with
  | fault s' => exact absurd hr (hx s s')
  | _ => exact fun h => by cases h

theorem Defined.ite {c : Prop} [Decidable c] {x y : Prog σ ε α} (hx : Defined x)
    (hy : Defined y) : Defined (if c then x else y) := by
  split
  · exact hx
  · exact hy

theorem Defined.loop {body : β → Prog σ ε (LoopStep β α)} (h : ∀ b, Defined (body b)) :
    ∀ (fuel : Nat) (b : β), Defined (loop body fuel b) := by
  intro fuel
  induction fuel with
  | zero => exact fun _ _ _ h => by cases h
  | succ fuel ih =>
    intro b
    refine Defined.bind (h b) fun r => ?_
    cases r with
    | again b' => exact ih b'
    | done a => exact Defined.pure

/-! ## What holds however a run ends -/

/-- A run that starts in a state with `I` is in such a state wherever it ends, also where it
faults or is cut off. -/
def Maintains (I : σ → Prop) (x : Prog σ ε α) : Prop := ∀ s, I s → I (x s).state

theorem Maintains.pure {I : σ → Prop} {a : α} : Maintains I (Pure.pure a : Prog σ ε α) :=
  fun _ h => h

theorem Maintains.raise {I : σ → Prop} {e : ε} : Maintains I (raise e : Prog σ ε α) :=
  fun _ h => h

theorem Maintains.fault {I : σ → Prop} : Maintains I (fault : Prog σ ε α) := fun _ h => h

theorem Maintains.get {I : σ → Prop} : Maintains I (get : Prog σ ε σ) := fun _ h => h

theorem Maintains.modify {I : σ → Prop} {f : σ → σ} (h : ∀ s, I s → I (f s)) :
    Maintains I (modify f : Prog σ ε Unit) := h

theorem Maintains.bind {I : σ → Prop} {x : Prog σ ε α} {f : α → Prog σ ε β}
    (hx : Maintains I x) (hf : ∀ a, Maintains I (f a)) : Maintains I (x >>= f) := by
  intro s hs
  have hs' := hx s hs
  change I (Prog.bind x f s).state
  unfold Prog.bind
  cases hr : x s with
  | ok a s' =>
    rw [hr] at hs'
    exact hf a s' hs'
  | _ =>
    rw [hr] at hs'
    exact hs'

theorem Maintains.attempt {I : σ → Prop} {x : Prog σ ε α} (hx : Maintains I x) :
    Maintains I (attempt x) := by
  intro s hs
  have hs' := hx s hs
  unfold Prog.attempt
  cases hr : x s <;> rw [hr] at hs' <;> exact hs'

theorem Maintains.ite {I : σ → Prop} {c : Prop} [Decidable c] {x y : Prog σ ε α}
    (hx : c → Maintains I x) (hy : ¬ c → Maintains I y) : Maintains I (if c then x else y) := by
  split
  · next h => exact hx h
  · next h => exact hy h

theorem Maintains.loop {I : σ → Prop} {body : β → Prog σ ε (LoopStep β α)}
    (h : ∀ b, Maintains I (body b)) : ∀ (fuel : Nat) (b : β), Maintains I (loop body fuel b) := by
  intro fuel
  induction fuel with
  | zero => exact fun _ _ hs => hs
  | succ fuel ih =>
    intro b
    apply Maintains.bind (h b)
    intro r
    cases r with
    | again b' => exact ih b'
    | done a => exact Maintains.pure

/-- A specification that leaves one result determines it. -/
theorem Sat.result_eq {x : Prog σ ε α} {s : σ} {r : Except ε α} {P : σ → Prop} (hd : Defined x)
    (h : Sat x s (fun a s' => P s' ∧ r = .ok a) (fun e s' => P s' ∧ r = .error e)) :
    (x s).result = some r := by
  unfold Sat at h
  cases hx : x s with
  | ok a s' => rw [hx] at h; rw [h.2]; rfl
  | error e s' => rw [hx] at h; rw [h.2]; rfl
  | fault s' => exact absurd hx (hd s s')
  | timeout s' => rw [hx] at h; exact h.elim

/-- A program that cannot fail returns. -/
theorem Sat.exists_ok {x : Prog σ ε α} {s : σ} {Q : α → σ → Prop} (hd : Defined x)
    (h : Sat x s Q (fun _ _ => False)) : ∃ a s', x s = .ok a s' ∧ Q a s' := by
  unfold Sat at h
  cases hx : x s with
  | ok a s' => rw [hx] at h; exact ⟨a, s', rfl, h⟩
  | error e s' => rw [hx] at h; exact h.elim
  | fault s' => exact absurd hx (hd s s')
  | timeout s' => rw [hx] at h; exact h.elim

/-- What an error entails. -/
theorem Sat.of_error {x : Prog σ ε α} {s s' : σ} {e : ε} {Q : α → σ → Prop} {E : ε → σ → Prop}
    (h : Sat x s Q E) (hx : x s = .error e s') : E e s' := by
  unfold Sat at h
  rw [hx] at h
  exact h

/-- What a returned value entails. -/
theorem Sat.of_ok {x : Prog σ ε α} {s s' : σ} {a : α} {Q : α → σ → Prop} {E : ε → σ → Prop}
    (h : Sat x s Q E) (hx : x s = .ok a s') : Q a s' := by
  unfold Sat at h
  rw [hx] at h
  exact h

end Prog

end FunnyOS
