import FunnyOS.Lib.Ends

/-!
# Counting loops

`forRange` is a loop whose counter always gets to its bound, and `forWrapping` one whose counter
starts again at a modulus: it ends exactly where the bound is below the modulus.
-/

namespace FunnyOS

/-- `body 0`, then `body 1`, up to `body (n - 1)`. -/
def forRange {σ : Type*} (n : Nat) (body : Nat → σ → σ) (s : σ) : σ :=
  match n with
  | 0 => s
  | n + 1 => body n (forRange n body s)

/-- `body start` up to `body (stop - 1)`. -/
def forFrom {σ : Type*} (start stop : Nat) (body : Nat → σ → σ) (s : σ) : σ :=
  forRange (stop - start) (fun i => body (start + i)) s

section

variable {σ : Type*} {body : Nat → σ → σ} {s : σ} {n : Nat}

/-- The invariant rule: `I i` holds when the counter is `i`. -/
theorem forRange_rule (I : Nat → σ → Prop) (hstart : I 0 s)
    (hstep : ∀ i s', i < n → I i s' → I (i + 1) (body i s')) : I n (forRange n body s) := by
  induction n with
  | zero => exact hstart
  | succ n ih =>
    have hbefore := ih fun i s' hi => hstep i s' (hi.trans n.lt_succ_self)
    exact hstep n _ n.lt_succ_self hbefore

end

namespace Prog

variable {σ ε : Type} {body : Nat → Prog σ ε Unit} {s : σ} {modulus bound : Nat}
  {E : ε → σ → Prop}

/-- A round of such a loop. -/
def wrappingRound (modulus bound : Nat) (body : Nat → Prog σ ε Unit) (i : Nat) :
    Prog σ ε (LoopStep Nat Unit) :=
  if i < bound then do
    body i
    pure (.again ((i + 1) % modulus))
  else pure (.done ())

/-- `for (i = 0; i < bound; ++i)` with a counter that is 0 again at `modulus`. A loop that is still
going on after as many rounds as the counter has values never ends. -/
def forWrapping (modulus bound : Nat) (body : Nat → Prog σ ε Unit) : Prog σ ε Unit :=
  loop (wrappingRound modulus bound body) (modulus + 1) 0

theorem Ends.forWrapping (I : Nat → σ → Prop) (hbound : bound < modulus) (hstart : I 0 s)
    (hstep : ∀ i s', i < bound → I i s' → Ends (body i) s' (fun _ s'' => I (i + 1) s'') E) :
    Ends (forWrapping modulus bound body) s (fun _ s' => I bound s') E := by
  refine Ends.loop (fun k i s' => k = bound - i ∧ i ≤ bound ∧ I i s') ?_ _ bound _ _ (by omega)
    ⟨rfl, Nat.zero_le bound, hstart⟩
  rintro k i s' ⟨rfl, hi, h⟩
  refine Ends.ite (fun hlt => ?_) fun hge => Ends.pure ?_
  · refine Ends.bind (hstep i s' hlt h) (fun _ _ h => h) fun _ s'' h => Ends.pure ?_
    rw [Nat.mod_eq_of_lt (by omega)]
    exact ⟨bound - (i + 1), by omega, rfl, hlt, h⟩
  · obtain rfl : i = bound := by omega
    exact h

/-- A round below the bound runs the body. -/
theorem wrappingRound_ok {i : Nat} {step : LoopStep Nat Unit} {s' : σ} (hi : i < bound)
    (h : wrappingRound modulus bound body i s = .ok step s') :
    step = .again ((i + 1) % modulus) ∧ body i s = .ok () s' := by
  rw [wrappingRound, if_pos hi] at h
  obtain ⟨_, s₁, hbody, hagain⟩ := ok_of_bind h
  cases hagain
  exact ⟨rfl, hbody⟩

theorem loop_wrappingRound (h : modulus ≤ bound) {fuel i : Nat} (hi : i < modulus) {u : Unit}
    {s' : σ} : loop (wrappingRound modulus bound body) fuel i s ≠ .ok u s' := by
  induction fuel generalizing i s with
  | zero => exact fun hrun => by cases hrun
  | succ fuel ih =>
    intro hrun
    obtain ⟨step, s₁, hround, hrest⟩ := ok_of_bind hrun
    obtain ⟨rfl, -⟩ := wrappingRound_ok (hi.trans_le h) hround
    exact ih (Nat.mod_lt (i + 1) (Nat.zero_lt_of_lt hi)) hrest

/-- A counter that never gets to the bound. -/
theorem bound_lt_of_forWrapping {u : Unit} {s' : σ} (hpos : 0 < modulus)
    (h : forWrapping modulus bound body s = .ok u s') : bound < modulus := by
  by_contra hle
  exact loop_wrappingRound (not_lt.mp hle) hpos h

/-- The first round has returned. -/
theorem first_of_forWrapping {u : Unit} {s' : σ} (hpos : 0 < bound)
    (h : forWrapping modulus bound body s = .ok u s') : ∃ s₁, body 0 s = .ok () s₁ := by
  obtain ⟨step, s₁, hround, -⟩ := ok_of_bind h
  exact ⟨s₁, (wrappingRound_ok hpos hround).2⟩

end Prog

end FunnyOS
