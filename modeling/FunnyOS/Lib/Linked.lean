import Mathlib

/-!
# Linked lists in a table of successors

A table `next : α → α` links cells. `Segment next inside a l b` says that walking
from `a` visits exactly the cells `l`, all of them `inside`, and arrives at `b`;
`Linked next inside stop a l` says that the walk visits `l` and then stops at an
end mark. The lemmas determine `l` from `a` and follow it through updates of the
table: cells off the list are irrelevant, and the list can be cut or extended by
one write to a cell on it.
-/

namespace FunnyOS

variable {α : Type}

/-- The walk from `a` visits exactly the cells `l` and arrives at `b`. -/
def Segment (next : α → α) (inside : α → Prop) : α → List α → α → Prop
  | a, [], b => a = b
  | a, x :: l, b => a = x ∧ inside x ∧ Segment next inside (next x) l b

/-- The walk from `a` visits exactly the cells `l` and arrives at an end mark. -/
def Linked (next : α → α) (inside stop : α → Prop) : α → List α → Prop
  | a, [] => stop a
  | a, x :: l => a = x ∧ inside x ∧ Linked next inside stop (next x) l

section Basic

variable {next next' : α → α} {inside stop : α → Prop}

theorem linked_append {a : α} {l l' : List α} :
    Linked next inside stop a (l ++ l') ↔
      ∃ m, Segment next inside a l m ∧ Linked next inside stop m l' := by
  induction l generalizing a with
  | nil => simp [Segment]
  | cons x l ih => simp only [List.cons_append, Segment, Linked, ih]; grind

theorem Segment.congr {a b : α} {l : List α} (h : Segment next inside a l b)
    (same : ∀ x ∈ l, next' x = next x) : Segment next' inside a l b := by
  induction l generalizing a with
  | nil => exact h
  | cons x l ih =>
    refine ⟨h.1, h.2.1, ?_⟩
    rw [same x (by simp)]
    exact ih h.2.2 (fun y hy => same y (List.mem_cons_of_mem _ hy))

/-- Only the cells on the list matter. -/
theorem Linked.congr {a : α} {l : List α} (h : Linked next inside stop a l)
    (same : ∀ x ∈ l, next' x = next x) : Linked next' inside stop a l := by
  induction l generalizing a with
  | nil => exact h
  | cons x l ih =>
    refine ⟨h.1, h.2.1, ?_⟩
    rw [same x (by simp)]
    exact ih h.2.2 (fun y hy => same y (List.mem_cons_of_mem _ hy))

theorem Linked.all_inside {a : α} {l : List α} (h : Linked next inside stop a l) :
    ∀ x ∈ l, inside x := by
  induction l generalizing a with
  | nil => simp
  | cons y l ih =>
    intro x hx
    rcases List.mem_cons.mp hx with rfl | hx
    · exact h.2.1
    · exact ih h.2.2 x hx

theorem Linked.head {a x : α} {l : List α} (h : Linked next inside stop a (x :: l)) : a = x :=
  h.1

theorem Linked.mem_self {a : α} {l : List α} (h : Linked next inside stop a l)
    (hl : l ≠ []) : a ∈ l := by
  cases l with
  | nil => exact absurd rfl hl
  | cons x l => rw [h.1]; exact List.mem_cons_self

/-- Where end marks are not cells, the start determines the list. -/
theorem Linked.unique (disjoint : ∀ x, inside x → ¬ stop x) {a : α} {l l' : List α}
    (h : Linked next inside stop a l) (h' : Linked next inside stop a l') : l = l' := by
  induction l generalizing a l' with
  | nil =>
    cases l' with
    | nil => rfl
    | cons y l' =>
      obtain ⟨rfl, hy, -⟩ := h'
      exact absurd h (disjoint a hy)
  | cons x l ih =>
    obtain ⟨rfl, hx, hl⟩ := h
    cases l' with
    | nil => exact absurd h' (disjoint a hx)
    | cons y l' =>
      obtain ⟨rfl, -, hl'⟩ := h'
      rw [ih hl hl']

/-- The walk from a cell of the list is the rest of the list. -/
theorem Linked.suffix {a x : α} {l l' : List α}
    (h : Linked next inside stop a (l ++ x :: l')) :
    Linked next inside stop x (x :: l') := by
  obtain ⟨m, -, rfl, hx, hl⟩ := linked_append.mp h
  exact ⟨rfl, hx, hl⟩

/-- A finite walk visits no cell twice. -/
theorem Linked.nodup (disjoint : ∀ x, inside x → ¬ stop x) {a : α} {l : List α}
    (h : Linked next inside stop a l) : l.Nodup := by
  induction l generalizing a with
  | nil => exact List.nodup_nil
  | cons x l ih =>
    refine List.nodup_cons.mpr ⟨?_, ih h.2.2⟩
    intro hx
    obtain ⟨l₁, l₂, rfl⟩ := List.append_of_mem hx
    have hrest : Linked next inside stop x (x :: l₂) :=
      Linked.suffix (l := x :: l₁) (by simpa using h)
    obtain rfl := h.1
    have := congrArg List.length (Linked.unique disjoint h hrest)
    simp at this
    omega

/-- Redirecting the last cell of a list to the head of another one joins the two. -/
theorem Linked.join {a x b : α} {l l' : List α} (h : Linked next inside stop a (l ++ [x]))
    (same : ∀ y ∈ l, next' y = next y) (hx : next' x = b)
    (h' : Linked next' inside stop b l') :
    Linked next' inside stop a (l ++ x :: l') := by
  obtain ⟨m, hseg, rfl, hin, -⟩ := linked_append.mp h
  exact linked_append.mpr ⟨_, hseg.congr same, rfl, hin, by rw [hx]; exact h'⟩

/-- Writing an end mark into a cell of the list cuts the list behind it. -/
theorem Linked.cut {a x : α} {l l' : List α} (h : Linked next inside stop a (l ++ x :: l'))
    (same : ∀ y ∈ l, next' y = next y) (hx : stop (next' x)) :
    Linked next' inside stop a (l ++ [x]) := by
  obtain ⟨m, hseg, rfl, hin, -⟩ := linked_append.mp h
  exact linked_append.mpr ⟨_, hseg.congr same, rfl, hin, hx⟩

end Basic

end FunnyOS
