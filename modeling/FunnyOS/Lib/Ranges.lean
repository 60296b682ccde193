import Mathlib

/-!
# Sorted lists of separated ranges

A list of items, each standing for the half-open range from `lo a` to `hi a` of a linear order.
`Separated`: every range is nonempty and ends strictly before the next begins, so that no two of
them touch. Such a list is the normal form of the set it covers.
-/

namespace FunnyOS

variable {α β : Type} [LinearOrder β] {lo hi : α → β} {a b : α} {l l' l₁ l₂ : List α} {x y : β}

/-- The points of the ranges of a list. -/
def covered (lo hi : α → β) (l : List α) : Set β := {x | ∃ a ∈ l, lo a ≤ x ∧ x < hi a}

/-- Nonempty ranges in order, with a gap between each and the next. -/
structure Separated (lo hi : α → β) (l : List α) : Prop where
  nonempty : ∀ a ∈ l, lo a < hi a
  apart : l.Pairwise (fun a b => hi a < lo b)

@[simp] theorem covered_nil : covered lo hi [] = ∅ := by
  ext x
  simp [covered]

@[simp] theorem covered_cons : covered lo hi (a :: l) = Set.Ico (lo a) (hi a) ∪ covered lo hi l := by
  ext x
  simp [covered]

@[simp] theorem covered_append :
    covered lo hi (l₁ ++ l₂) = covered lo hi l₁ ∪ covered lo hi l₂ := by
  induction l₁ with
  | nil => simp
  | cons a l ih => simp [ih, Set.union_assoc]

theorem subset_covered (h : a ∈ l) : Set.Ico (lo a) (hi a) ⊆ covered lo hi l :=
  fun _ hx => ⟨a, h, hx⟩

/-- A range that meets none of `l` and begins no earlier than the range `a` of `l` begins where
`a` has ended. -/
theorem hi_le_of_disjoint (h : Disjoint (Set.Ico x y) (covered lo hi l)) (ha : a ∈ l)
    (hlo : lo a ≤ x) (hxy : x < y) : hi a ≤ x := by
  by_contra hlt
  exact Set.disjoint_left.1 h (Set.mem_Ico.2 ⟨le_rfl, hxy⟩) ⟨a, ha, hlo, lt_of_not_ge hlt⟩

/-- A range that meets none of `l` and begins no later than the range `a` of `l` ends before
`a` begins. -/
theorem le_lo_of_disjoint (h : Disjoint (Set.Ico x y) (covered lo hi l)) (ha : a ∈ l)
    (hlo : x ≤ lo a) (hne : lo a < hi a) : y ≤ lo a := by
  by_contra hlt
  exact Set.disjoint_left.1 h (Set.mem_Ico.2 ⟨hlo, lt_of_not_ge hlt⟩) ⟨a, ha, le_rfl, hne⟩

/-- In a list ordered by `lo` the items that `dropWhile` leaves begin at `x` or later. -/
theorem le_of_mem_dropWhile (h : l.Pairwise (fun a b => lo a < lo b))
    (hb : b ∈ l.dropWhile (fun a => decide (lo a < x))) : x ≤ lo b := by
  induction l with
  | nil => simp at hb
  | cons a l ih =>
      obtain ⟨hlt, hrest⟩ := List.pairwise_cons.1 h
      rw [List.dropWhile_cons] at hb
      split at hb
      · exact ih hrest hb
      · next hstop =>
          have hx : x ≤ lo a := by simpa using hstop
          rcases List.mem_cons.1 hb with rfl | hb
          · exact hx
          · exact hx.trans (hlt b hb).le

namespace Separated

theorem nil : Separated lo hi [] := ⟨by simp, .nil⟩

theorem cons_iff : Separated lo hi (a :: l) ↔
    lo a < hi a ∧ (∀ b ∈ l, hi a < lo b) ∧ Separated lo hi l := by
  constructor
  · intro h
    have hp := List.pairwise_cons.1 h.apart
    exact ⟨h.nonempty a (by simp), hp.1, fun b hb => h.nonempty b (by simp [hb]), hp.2⟩
  · intro ⟨hne, hlt, hl⟩
    constructor
    · intro b hb
      rcases List.mem_cons.1 hb with rfl | hb
      · exact hne
      · exact hl.nonempty b hb
    · exact List.pairwise_cons.2 ⟨hlt, hl.apart⟩

theorem append_iff : Separated lo hi (l₁ ++ l₂) ↔
    Separated lo hi l₁ ∧ Separated lo hi l₂ ∧ ∀ a ∈ l₁, ∀ b ∈ l₂, hi a < lo b := by
  constructor
  · intro h
    have hp := List.pairwise_append.1 h.apart
    exact ⟨⟨fun a ha => h.nonempty a (by simp [ha]), hp.1⟩,
      ⟨fun a ha => h.nonempty a (by simp [ha]), hp.2.1⟩, hp.2.2⟩
  · intro ⟨h₁, h₂, hlt⟩
    constructor
    · intro a ha
      rcases List.mem_append.1 ha with ha | ha
      · exact h₁.nonempty a ha
      · exact h₂.nonempty a ha
    · exact List.pairwise_append.2 ⟨h₁.apart, h₂.apart, hlt⟩

theorem singleton (h : lo a < hi a) : Separated lo hi [a] :=
  cons_iff.2 ⟨h, by simp, nil⟩

/-- A range put between the ranges that end before it and those that begin after it. -/
theorem middle (h₁ : Separated lo hi l₁) (h₂ : Separated lo hi l₂) (hne : lo a < hi a)
    (hbefore : ∀ c ∈ l₁, hi c < lo a) (hafter : ∀ c ∈ l₂, hi a < lo c) :
    Separated lo hi (l₁ ++ a :: l₂) := by
  refine append_iff.2 ⟨h₁, cons_iff.2 ⟨hne, hafter, h₂⟩, ?_⟩
  intro c hc d hd
  rcases List.mem_cons.1 hd with rfl | hd
  · exact hbefore c hc
  · exact ((hbefore c hc).trans hne).trans (hafter d hd)

/-- The ranges come in the order of their beginnings. -/
theorem sorted (h : Separated lo hi l) : l.Pairwise (fun a b => lo a < lo b) := by
  apply h.apart.imp_of_mem
  intro a b ha _ hab
  exact (h.nonempty a ha).trans hab

/-- The points before a gap and the points after it are different. -/
theorem disjoint (h : Separated lo hi (l₁ ++ l₂)) :
    Disjoint (covered lo hi l₁) (covered lo hi l₂) := by
  rw [Set.disjoint_left]
  intro x ⟨a, ha, _, hxa⟩ ⟨b, hb, hbx, _⟩
  exact absurd (hxa.trans ((append_iff.1 h).2.2 a ha b hb)) (not_lt.2 hbx)

/-- The first range of a separated list is where its points begin and the first gap ends it. -/
theorem head_bounds (h : Separated lo hi (a :: l)) :
    lo a ∈ covered lo hi (a :: l) ∧ (∀ x ∈ covered lo hi (a :: l), lo a ≤ x) ∧
      hi a ∉ covered lo hi (a :: l) := by
  obtain ⟨hne, hlt, _⟩ := cons_iff.1 h
  refine ⟨⟨a, by simp, le_rfl, hne⟩, ?_, ?_⟩
  · intro x ⟨b, hb, hbx, _⟩
    rcases List.mem_cons.1 hb with rfl | hb
    · exact hbx
    · exact (hne.le.trans (hlt b hb).le).trans hbx
  · intro ⟨b, hb, hbx, hxb⟩
    rcases List.mem_cons.1 hb with rfl | hb
    · exact absurd hxb (lt_irrefl _)
    · exact absurd (hlt b hb) (not_lt.2 hbx)

/-- The points after the first range. -/
theorem covered_tail (h : Separated lo hi (a :: l)) :
    covered lo hi l = {x ∈ covered lo hi (a :: l) | hi a ≤ x} := by
  obtain ⟨_, hlt, _⟩ := cons_iff.1 h
  ext x
  constructor
  · intro ⟨b, hb, hbx, hxb⟩
    exact ⟨⟨b, by simp [hb], hbx, hxb⟩, (hlt b hb).le.trans hbx⟩
  · intro ⟨⟨b, hb, hbx, hxb⟩, hx⟩
    rcases List.mem_cons.1 hb with rfl | hb
    · exact absurd hxb (not_lt.2 hx)
    · exact ⟨b, hb, hbx, hxb⟩

/-- The end of the first range is determined by the points covered. -/
theorem head_le (h : Separated lo hi (a :: l))
    (hcov : covered lo hi (a :: l) = covered lo hi (b :: l')) (hlo : lo a = lo b) :
    hi b ≤ hi a := by
  by_contra hlt
  have hin : hi a ∈ covered lo hi (b :: l') :=
    ⟨b, by simp, hlo ▸ (h.nonempty a (by simp)).le, lt_of_not_ge hlt⟩
  exact h.head_bounds.2.2 (hcov ▸ hin)

/-- A set has only one separated list of ranges. -/
theorem bounds_unique (h : Separated lo hi l) (h' : Separated lo hi l')
    (hcov : covered lo hi l = covered lo hi l') :
    l.map (fun a => (lo a, hi a)) = l'.map (fun a => (lo a, hi a)) := by
  induction l generalizing l' with
  | nil =>
      cases l' with
      | nil => rfl
      | cons b l' =>
          have hb := h'.head_bounds.1
          rw [← hcov] at hb
          simp at hb
  | cons a l ih =>
      cases l' with
      | nil =>
          have ha := h.head_bounds.1
          rw [hcov] at ha
          simp at ha
      | cons b l' =>
          have hlo : lo a = lo b := le_antisymm
            (h.head_bounds.2.1 _ (hcov ▸ h'.head_bounds.1))
            (h'.head_bounds.2.1 _ (hcov ▸ h.head_bounds.1))
          have hhi : hi a = hi b :=
            le_antisymm (h'.head_le hcov.symm hlo.symm) (h.head_le hcov hlo)
          have htail : covered lo hi l = covered lo hi l' := by
            rw [h.covered_tail, h'.covered_tail, hcov, hhi]
          simp only [List.map_cons, hlo, hhi]
          rw [ih (cons_iff.1 h).2.2 (cons_iff.1 h').2.2 htail]

/-- The lengths of separated ranges of numbers add up to no more than where they end. -/
theorem sum_length_le {lo hi : α → ℕ} {x top : ℕ} (h : Separated lo hi l)
    (htop : ∀ a ∈ l, hi a ≤ top) (hlo : ∀ a ∈ l, x ≤ lo a) (hx : x ≤ top) :
    x + (l.map (fun a => hi a - lo a)).sum ≤ top := by
  induction l generalizing x with
  | nil => simpa using hx
  | cons a l ih =>
      obtain ⟨hne, hlt, hl⟩ := cons_iff.1 h
      have hrest := ih hl (fun b hb => htop b (by simp [hb])) (fun b hb => (hlt b hb).le)
        (htop a (by simp))
      have hax := hlo a (by simp)
      simp only [List.map_cons, List.sum_cons]
      omega

end Separated

end FunnyOS
