import FunnyOS.Lib.Unless

/-!
# Programs that give a result

`Gives I x` says that every run of `x` from a state with `I` returns a value, in a state with `I`
again: `Maintains` with the promise to return. Where a loop counts down, the rules below and an
induction on the counter are all that it takes.
-/

namespace FunnyOS.Prog

variable {σ τ ε α β : Type} {I : σ → Prop}

/-- Every run of `x` from a state with `I` returns, and keeps it. -/
def Gives (I : σ → Prop) (x : Prog σ ε α) : Prop :=
  ∀ s, I s → Ends x s (fun _ s' => I s') (fun _ _ => False)

section

variable {x : Prog σ ε α} {f : α → Prog σ ε β} {s : σ}

theorem Gives.pure {a : α} : Gives I (Pure.pure a : Prog σ ε α) := fun _ h => h

theorem Gives.get : Gives I (Prog.get : Prog σ ε σ) := fun _ h => h

theorem Gives.modify {g : σ → σ} (h : ∀ s, I s → I (g s)) :
    Gives I (Prog.modify g : Prog σ ε Unit) := h

theorem Gives.bind (hx : Gives I x) (hf : ∀ a, Gives I (f a)) : Gives I (x >>= f) :=
  fun s hs => Ends.bind (hx s hs) (fun _ _ h => h) fun a s' hs' => hf a s' hs'

theorem Gives.ite {c : Prop} [Decidable c] {y : Prog σ ε α} (hx : Gives I x) (hy : Gives I y) :
    Gives I (if c then x else y) :=
  fun s hs => Ends.ite (fun _ => hx s hs) fun _ => hy s hs

/-- A program on a part that gives a result there. -/
theorem Gives.onPart {part : σ → τ} {put : σ → τ → σ} {y : Prog τ ε α}
    (hy : Gives (fun _ => True) y) (h : ∀ s t, I s → I (put s t)) :
    Gives I (Prog.onPart part put y) := fun s hs =>
  Ends.onPart (Ends.mono (hy (part s) trivial) (fun _ t _ => h s t hs) fun _ _ h => h)

/-- The value is known to come, and what comes behind it has a result for each value. -/
theorem Gives.bind_ends {R : β → σ → Prop} (hx : Gives I x) (hs : I s)
    (hf : ∀ a s', I s' → Ends (f a) s' R (fun _ _ => False)) :
    Ends (x >>= f) s R (fun _ _ => False) :=
  Ends.bind (hx s hs) (fun _ _ h => h) hf

end

end FunnyOS.Prog
