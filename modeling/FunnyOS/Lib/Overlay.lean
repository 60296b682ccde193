import Mathlib

/-!
# Overlaid ranges

A memory is a function from addresses to what they hold. `overlay m start count value` is the
memory `m` after `count` addresses from `start` on have been written. When several writers come
one after the other, the last one that covers an address decides what it holds.
-/

namespace FunnyOS

variable {α β : Type*} {m : Nat → β} {start count a : Nat} {value : Nat → β}

/-- The memory `m` with `count` new values from `start` on. -/
def overlay (m : Nat → β) (start count : Nat) (value : Nat → β) : Nat → β := fun a =>
  if start ≤ a ∧ a < start + count then value (a - start) else m a

theorem overlay_inside (h : start ≤ a ∧ a < start + count) :
    overlay m start count value a = value (a - start) := if_pos h

theorem overlay_outside (h : ¬ (start ≤ a ∧ a < start + count)) :
    overlay m start count value a = m a := if_neg h

theorem overlay_congr {value' : Nat → β} (h : ∀ i < count, value i = value' i) :
    overlay m start count value = overlay m start count value' := by
  funext a
  by_cases ha : start ≤ a ∧ a < start + count
  · rw [overlay_inside ha, overlay_inside ha, h _ (by omega)]
  · rw [overlay_outside ha, overlay_outside ha]

/-- A write of nothing. -/
@[simp] theorem overlay_zero : overlay m start 0 value = m := by
  funext a
  exact overlay_outside (by omega)

/-- A write of one value, and of the others behind it. -/
theorem overlay_update : overlay (Function.update m start (value 0)) (start + 1) count
    (fun i => value (i + 1)) = overlay m start (count + 1) value := by
  funext a
  rcases Nat.lt_trichotomy a start with ha | rfl | ha
  · rw [overlay_outside (by omega), overlay_outside (by omega),
      Function.update_of_ne (Nat.ne_of_lt ha)]
  · rw [overlay_outside (by omega), overlay_inside (by omega), Function.update_self, Nat.sub_self]
  · by_cases hlt : a < start + (count + 1)
    · rw [overlay_inside (by omega), overlay_inside (by omega)]
      congr 1
      omega
    · rw [overlay_outside (by omega), overlay_outside (by omega),
        Function.update_of_ne (Nat.ne_of_gt ha)]

/-- A later write at the same place. -/
theorem overlay_overlay {n : Nat} {value' : Nat → β}
    (h : start ≤ a ∧ a < start + count) :
    overlay (overlay m start count value) start n value' a =
      if a < start + n then value' (a - start) else value (a - start) := by
  by_cases hlt : a < start + n
  · rw [if_pos hlt, overlay_inside ⟨h.1, hlt⟩]
  · rw [if_neg hlt, overlay_outside (by omega), overlay_inside h]

/-- Of the writers `l`, the last one that covers an address decides. -/
theorem foldl_last {write : (Nat → β) → α → Nat → β} {covers : α → Nat → Bool}
    {value : α → Nat → β} {l : List α}
    (inside : ∀ w ∈ l, ∀ m, covers w a = true → write m w a = value w a)
    (outside : ∀ w ∈ l, ∀ m, covers w a = false → write m w a = m a) :
    l.foldl write m a =
      match l.reverse.find? (covers · a) with
      | none => m a
      | some w => value w a := by
  induction l using List.reverseRecOn with
  | nil => rfl
  | append_singleton l w ih =>
    rw [List.foldl_append, List.reverse_append]
    simp only [List.foldl_cons, List.foldl_nil, List.reverse_cons, List.reverse_nil,
      List.nil_append, List.cons_append, List.find?_cons]
    cases hw : covers w a with
    | true => exact inside w (by simp) _ hw
    | false =>
      rw [outside w (by simp) _ hw]
      exact ih (fun w' h => inside w' (by simp [h])) fun w' h => outside w' (by simp [h])

/-- Writers that leave an address leave what it holds. -/
theorem foldl_outside {write : (Nat → β) → α → Nat → β} {l : List α}
    (h : ∀ w ∈ l, ∀ m, write m w a = m a) : l.foldl write m a = m a := by
  induction l generalizing m with
  | nil => rfl
  | cons w l ih =>
    rw [List.foldl_cons, ih fun w' hw' => h w' (List.mem_cons_of_mem w hw')]
    exact h w List.mem_cons_self m

end FunnyOS
