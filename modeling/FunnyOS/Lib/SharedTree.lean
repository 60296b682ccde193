import Mathlib

/-!
# Trees that share what is under their roots

`tables t i` is the entry in slot `i` of the table `t`, and `child e` the table that the entry `e`
points to. A table of rank `n + 1` points to tables of rank `n`. The tables of the rank `top` are
roots: several of them may hold the same entry in the same slot, and so share the tables under it.
Below them every table has one place.
-/

namespace FunnyOS

variable {α ι ε : Type} {child : ε → Option α} {tables tables' : α → ι → ε} {rank : α → ℕ} {top : ℕ}

/-- Tables of one rank point to tables of the next. Where two entries point to one table they are
equal, in the same slot, and below the roots they are one entry. -/
structure SharedTree (child : ε → Option α) (tables : α → ι → ε) (rank : α → ℕ) (top : ℕ) :
    Prop where
  points : ∀ t i c, 2 ≤ rank t → child (tables t i) = some c → rank c + 1 = rank t
  once : ∀ t u i j c, 2 ≤ rank t → 2 ≤ rank u → child (tables t i) = some c →
    child (tables u j) = some c → i = j ∧ tables t i = tables u j ∧ (rank t < top → t = u)

/-- The walk that takes the slot `path n` in a table of rank `n + 1` leads from the table `t` of
rank `n` to the table `p` of rank `m`. -/
inductive Walk (child : ε → Option α) (tables : α → ι → ε) (path : ℕ → ι) :
    ℕ → α → ℕ → α → Prop
  | here (n : ℕ) (t : α) : Walk child tables path n t n t
  | down {n m : ℕ} {t c p : α} (h : child (tables t (path n)) = some c)
      (rest : Walk child tables path n c m p) : Walk child tables path (n + 1) t m p

theorem Walk.le {path : ℕ → ι} {n m : ℕ} {t p : α} (h : Walk child tables path n t m p) :
    m ≤ n := by
  induction h with
  | here n t => exact le_rfl
  | down _ _ ih => exact Nat.le_succ_of_le ih

namespace SharedTree

variable {path path' : ℕ → ι} {n m : ℕ} {t t' p c : α} {i : ι}

/-- Two walks that end at one table have taken the same slots. -/
theorem path_eq (h : SharedTree child tables rank top) (hm : 1 ≤ m) (hn : n ≤ top)
    (hw : Walk child tables path n t m p) (hw' : Walk child tables path' n t' m p)
    (ht : rank t = n) (ht' : rank t' = n) :
    (∀ k, m ≤ k → k < n → path k = path' k) ∧ (n < top → t = t') := by
  induction hw generalizing t' with
  | here n t =>
      cases hw' with
      | here =>
          constructor
          · intro k hk hlt
            omega
          · intro _
            rfl
      | down _ hrest =>
          have hle := hrest.le
          omega
  | @down n m t c p hc hrest ih =>
      cases hw' with
      | here =>
          have hle := hrest.le
          omega
      | @down _ _ _ c' _ hc' hrest' =>
          have hle := hrest.le
          have hrank := h.points t _ c (by omega) hc
          have hrank' := h.points t' _ c' (by omega) hc'
          obtain ⟨hslots, hsame⟩ := ih hm (by omega) hrest' (by omega) (by omega)
          -- the tables below the starts are one table, so one entry points to it
          have hchild := hsame (by omega)
          subst hchild
          obtain ⟨hslot, -, htable⟩ := h.once t t' _ _ c (by omega) (by omega) hc hc'
          constructor
          · intro k hk hlt
            by_cases hkn : k = n
            · subst hkn
              exact hslot
            · exact hslots k hk (by omega)
          · intro hlt
            exact htable (by omega)

/-- A walk comes to a table of each rank. -/
theorem rank_of_walk (h : SharedTree child tables rank top) (hm : 1 ≤ m)
    (hw : Walk child tables path n t m p) (ht : rank t = n) : rank p = m := by
  induction hw with
  | here n t => exact ht
  | @down n m t c p hc hrest ih =>
      have hle := hrest.le
      have hrank := h.points t _ c (by omega) hc
      exact ih hm (by omega)

/-- Entries that point to a table no more. -/
theorem cut (h : SharedTree child tables rank top)
    (hsub : ∀ t i c, 2 ≤ rank t → child (tables' t i) = some c → tables' t i = tables t i) :
    SharedTree child tables' rank top := by
  constructor
  · intro t i c ht hc
    rw [hsub t i c ht hc] at hc
    exact h.points t i c ht hc
  · intro t u i j c ht hu hc hc'
    have hti := hsub t i c ht hc
    have huj := hsub u j c hu hc'
    rw [hti] at hc ⊢
    rw [huj] at hc' ⊢
    exact h.once t u i j c ht hu hc hc'

variable [DecidableEq α]

/-- Where the table `c` is new and only the slot `i` of `p` points to it, an entry that points to
a table does so as before or is in that slot. -/
theorem link_cases (h : SharedTree child tables rank top) (hc : rank c = 0)
    (hsame : ∀ t j, t ≠ c → (t, j) ≠ (p, i) → tables' t j = tables t j)
    (hempty : 2 ≤ n → ∀ j, child (tables' c j) = none) {u d : α} {j : ι}
    (hu : 2 ≤ Function.update rank c n u) (hd : child (tables' u j) = some d) :
    (u, j) = (p, i) ∨ (tables' u j = tables u j ∧ child (tables u j) = some d ∧ 2 ≤ rank u ∧
      u ≠ c ∧ d ≠ c) := by
  by_cases huc : u = c
  · subst huc
    rw [Function.update_self] at hu
    rw [hempty hu j] at hd
    exact absurd hd (by simp)
  · rw [Function.update_of_ne huc] at hu
    by_cases hslot : (u, j) = (p, i)
    · exact .inl hslot
    · have hold := hsame u j huc hslot
      rw [hold] at hd
      have hrank := h.points u j d hu hd
      refine .inr ⟨hold, hd, hu, huc, ?_⟩
      rintro rfl
      omega

/-- A new table of rank `n`, which the slot `i` of `p` points to. -/
theorem link (h : SharedTree child tables rank top) (hp : rank p = n + 1) (hc : rank c = 0)
    (hnew : child (tables' p i) = some c)
    (hsame : ∀ t j, t ≠ c → (t, j) ≠ (p, i) → tables' t j = tables t j)
    (hempty : 2 ≤ n → ∀ j, child (tables' c j) = none) :
    SharedTree child tables' (Function.update rank c n) top := by
  have hpc : p ≠ c := by
    rintro rfl
    omega
  constructor
  · intro t j d ht hd
    rcases h.link_cases hc hsame hempty ht hd with hslot | ⟨-, hold, hrank, htc, hdc⟩
    · obtain ⟨rfl, rfl⟩ := Prod.mk.inj hslot
      obtain rfl := Option.some.inj (hnew.symm.trans hd)
      rw [Function.update_self, Function.update_of_ne hpc, hp]
    · rw [Function.update_of_ne htc, Function.update_of_ne hdc]
      exact h.points t j d hrank hold
  · intro t u j k d ht hu hd hd'
    rcases h.link_cases hc hsame hempty ht hd with hslot | ⟨hti, hold, hrank, htc, hdc⟩
    · rcases h.link_cases hc hsame hempty hu hd' with hslot' | ⟨-, -, -, -, hdc⟩
      · obtain ⟨rfl, rfl⟩ := Prod.mk.inj hslot
        obtain ⟨rfl, rfl⟩ := Prod.mk.inj hslot'
        exact ⟨rfl, rfl, fun _ => rfl⟩
      · obtain ⟨rfl, rfl⟩ := Prod.mk.inj hslot
        exact absurd (Option.some.inj (hnew.symm.trans hd)).symm hdc
    · rcases h.link_cases hc hsame hempty hu hd' with hslot' | ⟨huk, hold', hrank', -, -⟩
      · obtain ⟨rfl, rfl⟩ := Prod.mk.inj hslot'
        exact absurd (Option.some.inj (hnew.symm.trans hd')).symm hdc
      · rw [hti, huk, Function.update_of_ne htc]
        exact h.once t u j k d hrank hrank' hold hold'

/-- A new root, whose entries are those of another root or point to no table. -/
theorem addRoot (h : SharedTree child tables rank top) (hc : rank c = 0)
    (hcopy : ∀ i d, child (tables' c i) = some d → ∃ r, rank r = top ∧ tables' c i = tables r i)
    (hsame : ∀ t, t ≠ c → tables' t = tables t) :
    SharedTree child tables' (Function.update rank c top) top := by
  -- each entry stands in a table of the same rank before
  have hold : ∀ t i d, 2 ≤ Function.update rank c top t → child (tables' t i) = some d →
      ∃ r, rank r = Function.update rank c top t ∧ tables' t i = tables r i ∧
        (Function.update rank c top t < top → r = t) := by
    intro t i d ht hd
    by_cases htc : t = c
    · subst htc
      obtain ⟨r, hr, hentry⟩ := hcopy i d hd
      rw [Function.update_self]
      exact ⟨r, hr, hentry, fun hlt => absurd hlt (lt_irrefl top)⟩
    · rw [Function.update_of_ne htc, hsame t htc]
      exact ⟨t, rfl, rfl, fun _ => rfl⟩
  have hne : ∀ r i d, 2 ≤ rank r → child (tables r i) = some d → d ≠ c := by
    rintro r i d hr hd rfl
    have hrank := h.points r i d hr hd
    omega
  constructor
  · intro t i d ht hd
    obtain ⟨r, hr, hentry, -⟩ := hold t i d ht hd
    rw [hentry] at hd
    rw [← hr] at ht ⊢
    rw [Function.update_of_ne (hne r i d ht hd)]
    exact h.points r i d ht hd
  · intro t u i j d ht hu hd hd'
    obtain ⟨r, hr, hentry, hrt⟩ := hold t i d ht hd
    obtain ⟨r', hr', hentry', hrt'⟩ := hold u j d hu hd'
    rw [hentry] at hd
    rw [hentry'] at hd'
    obtain ⟨hslot, hequal, htable⟩ := h.once r r' i j d (by omega) (by omega) hd hd'
    have hrank := h.points r i d (by omega) hd
    have hrank' := h.points r' j d (by omega) hd'
    refine ⟨hslot, by rw [hentry, hentry', hequal], ?_⟩
    intro hlt
    rw [← hrt hlt, ← hrt' (by omega)]
    exact htable (by omega)

end SharedTree

end FunnyOS
