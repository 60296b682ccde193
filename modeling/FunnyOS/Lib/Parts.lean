import FunnyOS.Lib.Prog

/-!
# Programs inside programs

`onPart` runs a program on a part of a larger state, and `orElse` goes on with a handler where a
program has failed.
-/

namespace FunnyOS.Prog

variable {σ τ ε α : Type}

/-- The program `x` on the part of the state that `part` reads and `put` writes. -/
def onPart (part : σ → τ) (put : σ → τ → σ) (x : Prog τ ε α) : Prog σ ε α := fun s =>
  match x (part s) with
  | .ok a t => .ok a (put s t)
  | .error e t => .error e (put s t)
  | .fault t => .fault (put s t)
  | .timeout t => .timeout (put s t)

/-- The program `x`, and the handler where it fails. -/
def orElse (x : Prog σ ε α) (handler : ε → Prog σ ε α) : Prog σ ε α := fun s =>
  match x s with
  | .error e s' => handler e s'
  | o => o

section

variable {s : σ} {Q : α → σ → Prop} {E : ε → σ → Prop}

/-- What every run keeps, beside what is specified. -/
theorem Sat.maintains {x : Prog σ ε α} {I : σ → Prop} (h : Sat x s Q E) (hx : Maintains I x)
    (hs : I s) : Sat x s (fun a s' => Q a s' ∧ I s') (fun e s' => E e s' ∧ I s') := by
  have hstate := hx s hs
  unfold Sat at h ⊢
  cases hr : x s with
  | ok a s' => rw [hr] at h hstate; exact ⟨h, hstate⟩
  | error e s' => rw [hr] at h hstate; exact ⟨h, hstate⟩
  | fault s' => trivial
  | timeout s' => rw [hr] at h; exact h

end

end FunnyOS.Prog
