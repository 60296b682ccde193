import FunnyOS.Lib.Ranges

/-!
# Sorted lists of ranges that may touch

As in `Separated` each item stands for the half-open range from `lo a` to `hi a`, but a range may
begin where the one before it ends: the list says how the set it covers is cut into pieces. A
range may be put in, cut in two or joined with the one it touches.
-/

namespace FunnyOS

variable {α β : Type} [LinearOrder β] {lo hi : α → β} {a b c : α} {l l' l₁ l₂ : List α}

/-- Nonempty ranges in order, none of which begins before the one before it has ended. -/
structure Tiled (lo hi : α → β) (l : List α) : Prop where
  nonempty : ∀ a ∈ l, lo a < hi a
  ordered : l.Pairwise (fun a b => hi a ≤ lo b)

namespace Tiled

theorem nil : Tiled lo hi [] := ⟨by simp, .nil⟩

theorem cons_iff : Tiled lo hi (a :: l) ↔
    lo a < hi a ∧ (∀ b ∈ l, hi a ≤ lo b) ∧ Tiled lo hi l := by
  constructor
  · intro h
    have hp := List.pairwise_cons.1 h.ordered
    exact ⟨h.nonempty a (by simp), hp.1, fun b hb => h.nonempty b (by simp [hb]), hp.2⟩
  · intro ⟨hne, hle, hl⟩
    constructor
    · intro b hb
      rcases List.mem_cons.1 hb with rfl | hb
      · exact hne
      · exact hl.nonempty b hb
    · exact List.pairwise_cons.2 ⟨hle, hl.ordered⟩

theorem append_iff : Tiled lo hi (l₁ ++ l₂) ↔
    Tiled lo hi l₁ ∧ Tiled lo hi l₂ ∧ ∀ a ∈ l₁, ∀ b ∈ l₂, hi a ≤ lo b := by
  constructor
  · intro h
    have hp := List.pairwise_append.1 h.ordered
    exact ⟨⟨fun a ha => h.nonempty a (by simp [ha]), hp.1⟩,
      ⟨fun a ha => h.nonempty a (by simp [ha]), hp.2.1⟩, hp.2.2⟩
  · intro ⟨h₁, h₂, hle⟩
    constructor
    · intro a ha
      rcases List.mem_append.1 ha with ha | ha
      · exact h₁.nonempty a ha
      · exact h₂.nonempty a ha
    · exact List.pairwise_append.2 ⟨h₁.ordered, h₂.ordered, hle⟩

/-- The ranges come in the order of their beginnings. -/
theorem sorted (h : Tiled lo hi l) : l.Pairwise (fun a b => lo a < lo b) := by
  apply h.ordered.imp_of_mem
  intro a b ha _ hab
  exact (h.nonempty a ha).trans_le hab

/-- No point is in two ranges. -/
theorem disjoint (h : Tiled lo hi l) :
    l.Pairwise (fun a b => Disjoint (Set.Ico (lo a) (hi a)) (Set.Ico (lo b) (hi b))) := by
  apply h.ordered.imp
  intro a b hab
  rw [Set.disjoint_left]
  intro x hx hxb
  exact absurd (hx.2.trans_le hab) (not_lt.2 hxb.1)

/-- What follows the first range, cut in another way. -/
theorem cons_of_covered (h : Tiled lo hi (a :: l)) (h' : Tiled lo hi l')
    (hcov : covered lo hi l' = covered lo hi l) : Tiled lo hi (a :: l') := by
  obtain ⟨hne, hle, -⟩ := cons_iff.1 h
  apply cons_iff.2
  refine ⟨hne, ?_, h'⟩
  intro b hb
  have hbegin : lo b ∈ covered lo hi l' := ⟨b, hb, le_rfl, h'.nonempty b hb⟩
  rw [hcov] at hbegin
  obtain ⟨c, hc, hcb, -⟩ := hbegin
  exact (hle c hc).trans hcb

/-- Two ranges that touch, made one. -/
theorem join (h : Tiled lo hi (a :: b :: l)) (htouch : hi a = lo b) (hlo : lo c = lo a)
    (hhi : hi c = hi b) :
    Tiled lo hi (c :: l) ∧ covered lo hi (c :: l) = covered lo hi (a :: b :: l) := by
  obtain ⟨hne, -, hrest⟩ := cons_iff.1 h
  obtain ⟨hneb, hle, hl⟩ := cons_iff.1 hrest
  constructor
  · apply cons_iff.2
    rw [hlo, hhi]
    exact ⟨hne.trans (htouch ▸ hneb), hle, hl⟩
  · rw [covered_cons, covered_cons, covered_cons, ← Set.union_assoc, hlo, hhi, ← htouch,
      Set.Ico_union_Ico_eq_Ico hne.le (htouch ▸ hneb.le)]

/-- A range cut in two. -/
theorem split (h : Tiled lo hi (c :: l)) (htouch : hi a = lo b) (hlo : lo a = lo c)
    (hhi : hi b = hi c) (ha : lo a < hi a) (hb : lo b < hi b) :
    Tiled lo hi (a :: b :: l) ∧ covered lo hi (a :: b :: l) = covered lo hi (c :: l) := by
  obtain ⟨-, hle, hl⟩ := cons_iff.1 h
  have htiled : Tiled lo hi (a :: b :: l) := by
    apply cons_iff.2
    constructor
    · exact ha
    · constructor
      · intro d hd
        rcases List.mem_cons.1 hd with rfl | hd
        · exact htouch.le
        · exact (htouch.le.trans hb.le).trans (hhi.le.trans (hle d hd))
      · apply cons_iff.2
        rw [hhi]
        exact ⟨hhi ▸ hb, hle, hl⟩
  exact ⟨htiled, (htiled.join htouch hlo.symm hhi.symm).2.symm⟩

/-- A range that meets none of the others, put in front of the first that does not begin
before it. -/
theorem insert (h : Tiled lo hi (l₁ ++ l₂)) (hne : lo a < hi a)
    (hdisj : Disjoint (Set.Ico (lo a) (hi a)) (covered lo hi (l₁ ++ l₂)))
    (hbefore : ∀ c ∈ l₁, lo c ≤ lo a) (hafter : ∀ c ∈ l₂, lo a ≤ lo c) :
    Tiled lo hi (l₁ ++ a :: l₂) := by
  obtain ⟨h₁, h₂, hle⟩ := append_iff.1 h
  have hend : ∀ c ∈ l₁, hi c ≤ lo a := fun c hc =>
    hi_le_of_disjoint hdisj (List.mem_append_left _ hc) (hbefore c hc) hne
  have hstart : ∀ c ∈ l₂, hi a ≤ lo c := fun c hc =>
    le_lo_of_disjoint hdisj (List.mem_append_right _ hc) (hafter c hc) (h₂.nonempty c hc)
  apply append_iff.2
  refine ⟨h₁, cons_iff.2 ⟨hne, hstart, h₂⟩, ?_⟩
  intro c hc d hd
  rcases List.mem_cons.1 hd with rfl | hd
  · exact hend c hc
  · exact hle c hc d hd

end Tiled

end FunnyOS
