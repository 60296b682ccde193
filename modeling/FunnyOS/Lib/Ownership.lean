import Mathlib

/-!
# Disjoint ownership

A map `own : ω → List ρ` says which resources each owner holds. `DisjointOwn own`: no
resource has two owners. It survives a change of one owner's holding that takes only
resources nobody else has, and the transfer of a holding to an owner that has none.
-/

namespace FunnyOS

variable {ω ρ : Type} [DecidableEq ω] {own : ω → List ρ} {o o' : ω} {new : List ρ} {c : ρ}

/-- No resource has two owners. -/
def DisjointOwn (own : ω → List ρ) : Prop := ∀ o o' c, c ∈ own o → c ∈ own o' → o = o'

/-- Everything that `o` holds goes to `o'`. -/
def transfer (own : ω → List ρ) (o o' : ω) : ω → List ρ :=
  Function.update (Function.update own o []) o' (own o)

theorem transfer_to : transfer own o o' o' = own o := Function.update_self ..

theorem transfer_from (h : o ≠ o') : transfer own o o' o = [] := by
  rw [transfer, Function.update_of_ne h, Function.update_self]

theorem transfer_other {p : ω} (h : p ≠ o) (h' : p ≠ o') : transfer own o o' p = own p := by
  rw [transfer, Function.update_of_ne h', Function.update_of_ne h]

/-- A holding changed by resources that nobody holds. -/
theorem DisjointOwn.update (h : DisjointOwn own)
    (hnew : ∀ c ∈ new, c ∈ own o ∨ ∀ p, c ∉ own p) :
    DisjointOwn (Function.update own o new) := by
  have key : ∀ p c, p ≠ o → c ∈ own p → c ∉ new := by
    intro p c hp hc hn
    rcases hnew c hn with ho | hnone
    · exact hp (h p o c hc ho)
    · exact hnone p hc
  intro p q c hp hq
  by_cases hpo : p = o <;> by_cases hqo : q = o
  · rw [hpo, hqo]
  · rw [hpo, Function.update_self] at hp
    rw [Function.update_of_ne hqo] at hq
    exact absurd hp (key q c hqo hq)
  · rw [hqo, Function.update_self] at hq
    rw [Function.update_of_ne hpo] at hp
    exact absurd hq (key p c hpo hp)
  · rw [Function.update_of_ne hpo] at hp
    rw [Function.update_of_ne hqo] at hq
    exact h p q c hp hq

/-- What an owner holds after a transfer. -/
theorem mem_transfer {p : ω} : c ∈ transfer own o o' p ↔
    (p = o' ∧ c ∈ own o) ∨ (p ≠ o' ∧ p ≠ o ∧ c ∈ own p) := by
  by_cases hp' : p = o'
  · rw [hp', transfer_to]
    simp
  · by_cases hp : p = o
    · rw [hp] at hp' ⊢
      rw [transfer_from hp']
      simp [hp']
    · rw [transfer_other hp hp']
      simp [hp, hp']

/-- Somebody holds what somebody held before the transfer. -/
theorem exists_mem_transfer {p : ω} (hempty : own o' = []) (h : c ∈ own p) :
    ∃ q, c ∈ transfer own o o' q := by
  by_cases hp : p = o
  · exact ⟨o', mem_transfer.mpr (.inl ⟨rfl, hp ▸ h⟩)⟩
  · have hp' : p ≠ o' := by
      rintro rfl
      rw [hempty] at h
      simp at h
    exact ⟨p, mem_transfer.mpr (.inr ⟨hp', hp, h⟩)⟩

theorem DisjointOwn.transfer (h : DisjointOwn own) : DisjointOwn (transfer own o o') := by
  intro p q c hp hq
  rcases mem_transfer.mp hp with ⟨hp₁, hp₂⟩ | ⟨-, hp₂, hp₃⟩ <;>
    rcases mem_transfer.mp hq with ⟨hq₁, hq₂⟩ | ⟨-, hq₂, hq₃⟩
  · rw [hp₁, hq₁]
  · exact absurd (h q o c hq₃ hp₂) hq₂
  · exact absurd (h p o c hp₃ hq₂) hp₂
  · exact h p q c hp₃ hq₃

end FunnyOS
