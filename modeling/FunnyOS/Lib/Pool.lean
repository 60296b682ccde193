import Mathlib

/-!
# A pool of cells

What an allocator of blocks is for: a set of free cells and a list of the blocks that are out.
`Pool.Step`: a block made of free cells goes out, a block that is out comes back, or a block
that is out is given up and its cells stay out of use. No two blocks that are out ever share a
cell, and as long as no block is given up the cells of the pool are the same.
-/

namespace FunnyOS

variable {α β : Type}

/-- The free cells and the blocks that are out. -/
structure Pool (α β : Type) where
  free : Set α
  live : List β

namespace Pool

variable {cells : β → Set α} {p p' : Pool α β} {b : β} {live : List β}

/-- No cell is in two of: the free set and the blocks that are out. -/
structure Disjointed (cells : β → Set α) (p : Pool α β) : Prop where
  apart : p.live.Pairwise (fun b c => Disjoint (cells b) (cells c))
  unused : ∀ b ∈ p.live, Disjoint (cells b) p.free

/-- The cells of the blocks that are out. -/
def out (cells : β → Set α) (live : List β) : Set α := {x | ∃ b ∈ live, x ∈ cells b}

/-- Every cell of the pool. -/
def total (cells : β → Set α) (p : Pool α β) : Set α := p.free ∪ out cells p.live

@[simp] theorem out_nil : out cells [] = ∅ := by
  ext x
  simp [out]

@[simp] theorem out_cons : out cells (b :: live) = cells b ∪ out cells live := by
  ext x
  simp [out]

theorem Disjointed.take (h : Disjointed cells p) (hb : cells b ⊆ p.free) :
    Disjointed cells ⟨p.free \ cells b, b :: p.live⟩ := by
  constructor
  · apply List.pairwise_cons.2
    exact ⟨fun c hc => ((h.unused c hc).mono_right hb).symm, h.apart⟩
  · intro c hc
    rcases List.mem_cons.1 hc with rfl | hc
    · exact Set.disjoint_sdiff_right
    · exact (h.unused c hc).mono_right Set.sdiff_subset

theorem total_take (hb : cells b ⊆ p.free) :
    total cells ⟨p.free \ cells b, b :: p.live⟩ = total cells p := by
  simp only [total, out_cons, ← Set.union_assoc, Set.sdiff_union_of_subset hb]

variable [DecidableEq β]

/-- What can happen to the pool, where a block `b` is made of the cells `cells b`. -/
inductive Step (cells : β → Set α) : Pool α β → Pool α β → Prop
  | stay (p : Pool α β) : Step cells p p
  | take (p : Pool α β) (b : β) (h : cells b ⊆ p.free) :
      Step cells p ⟨p.free \ cells b, b :: p.live⟩
  | give (p : Pool α β) (b : β) (h : b ∈ p.live) :
      Step cells p ⟨p.free ∪ cells b, p.live.erase b⟩
  | lose (p : Pool α β) (b : β) (h : b ∈ p.live) : Step cells p ⟨p.free, p.live.erase b⟩

theorem out_erase (h : b ∈ live) : cells b ∪ out cells (live.erase b) = out cells live := by
  have hperm := List.perm_cons_erase h
  ext x
  rw [← out_cons]
  simp only [out, Set.mem_ofPred_eq, hperm.mem_iff]

theorem total_give (hb : b ∈ p.live) :
    total cells ⟨p.free ∪ cells b, p.live.erase b⟩ = total cells p := by
  simp only [total, Set.union_assoc, out_erase hb]

namespace Disjointed

theorem lose (h : Disjointed cells p) : Disjointed cells ⟨p.free, p.live.erase b⟩ :=
  ⟨h.apart.sublist List.erase_sublist, fun c hc => h.unused c (List.mem_of_mem_erase hc)⟩

theorem give (h : Disjointed cells p) (hb : b ∈ p.live) :
    Disjointed cells ⟨p.free ∪ cells b, p.live.erase b⟩ := by
  have hperm := (List.perm_cons_erase hb).pairwise h.apart (fun hd => hd.symm)
  have hapart := List.pairwise_cons.1 hperm
  refine ⟨hapart.2, ?_⟩
  intro c hc
  apply Set.disjoint_union_right.2
  exact ⟨h.unused c (List.mem_of_mem_erase hc), (hapart.1 c hc).symm⟩

/-- Nothing that can happen to a pool makes two blocks share a cell. -/
theorem step (h : Disjointed cells p) (hs : Step cells p p') : Disjointed cells p' := by
  cases hs with
  | stay => exact h
  | take b hb => exact h.take hb
  | give b hb => exact h.give hb
  | lose b hb => exact h.lose

end Disjointed

/-- The pool never gains a cell. -/
theorem Step.total_subset (hs : Step cells p p') : total cells p' ⊆ total cells p := by
  cases hs with
  | stay => exact le_rfl
  | take b hb => exact (total_take hb).le
  | give b hb => exact (total_give hb).le
  | lose b hb =>
      apply Set.union_subset_union_right
      rw [← out_erase hb]
      exact Set.subset_union_right

end Pool

end FunnyOS
