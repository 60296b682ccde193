import FunnyOS.Memory.Paging

/-!
# The active root

CR3 is written by `paging_init` and by `paging_activate_root`. `paging_map_range` and
`paging_map_user_range` load it with the root that it holds, and no other call writes it.
-/

namespace FunnyOS.Memory

variable {s : Kernel} {root t virt phys n : Nat} {index slot : Fin 512} {e : Entry}
  {writable executable user : Bool}

@[simp] theorem Kernel.allocPages_cr3 : (s.allocPages n).2.cr3 = s.cr3 := by
  simp only [Kernel.allocPages]
  split <;> rfl

@[simp] theorem Kernel.freePages_cr3 : (s.freePages t n).cr3 = s.cr3 := rfl

@[simp] theorem Kernel.setEntry_cr3 : (s.setEntry t index e).cr3 = s.cr3 := rfl

@[simp] theorem Kernel.setTable_cr3 {entries : Fin 512 → Entry} :
    (s.setTable t entries).cr3 = s.cr3 := rfl

@[simp] theorem allocPageTable_cr3 : (allocPageTable s).2.cr3 = s.cr3 := by
  simp only [allocPageTable]
  split
  · exact Kernel.allocPages_cr3
  · exact Kernel.allocPages_cr3

@[simp] theorem getOrCreateTable_cr3 : (getOrCreateTable s t index user).2.cr3 = s.cr3 := by
  simp only [getOrCreateTable]
  split_ifs <;> simp

@[simp] theorem getOrCreatePd_cr3 : (getOrCreatePd s root virt user).2.cr3 = s.cr3 := by
  simp only [getOrCreatePd]
  split <;> simp

@[simp] theorem splitLargePage_cr3 : (splitLargePage s t slot).2.cr3 = s.cr3 := by
  simp only [splitLargePage]
  split_ifs <;> simp

@[simp] theorem preparePt_cr3 : (preparePt s t slot user).2.cr3 = s.cr3 := by
  simp only [preparePt]
  split_ifs <;> simp

@[simp] theorem mapPage4k_cr3 :
    (mapPage4k s root virt phys writable executable user).2.cr3 = s.cr3 := by
  simp only [mapPage4k]
  split_ifs <;> simp

theorem whileOk_cr3 {α : Type} {body : Kernel → α → Bool × Kernel} {l : List α}
    (hbody : ∀ s a, (body s a).2.cr3 = s.cr3) : (whileOk body l s).2.cr3 = s.cr3 := by
  induction l generalizing s with
  | nil => rfl
  | cons a l ih =>
      simp only [whileOk]
      split
      · rw [ih, hbody]
      · exact hbody s a

@[simp] theorem mapRangeInRoot_cr3 {size : Nat} :
    (mapRangeInRoot s root virt phys size writable executable user).2.cr3 = s.cr3 := by
  simp only [mapRangeInRoot]
  split_ifs
  · rfl
  · rfl
  · exact whileOk_cr3 fun _ _ => mapPage4k_cr3

theorem pagingCurrentRoot_congr {s' : Kernel} (h : s'.cr3 = s.cr3) :
    pagingCurrentRoot s' = pagingCurrentRoot s := by
  rw [pagingCurrentRoot, pagingCurrentRoot, h]

/-- The root that is active is a page. -/
theorem alignDownPage_pagingCurrentRoot :
    alignDownPage (pagingCurrentRoot s) pageSize = pagingCurrentRoot s := by
  simp only [pagingCurrentRoot, alignDownPage, alignDownUintptr]
  rw [Nat.mul_div_cancel _ (by decide)]

theorem pagingCurrentRoot_loadCr3 :
    pagingCurrentRoot (loadCr3 s root) = alignDownPage root pageSize := rfl

@[simp] theorem pagingMapUserRange_current {size : Nat} :
    pagingCurrentRoot (pagingMapUserRange s root virt phys size writable executable).2 =
      pagingCurrentRoot s := by
  have hsame : pagingCurrentRoot (mapRangeInRoot s (alignDownPage root pageSize) virt phys size
      writable executable true).2 = pagingCurrentRoot s := pagingCurrentRoot_congr mapRangeInRoot_cr3
  simp only [pagingMapUserRange, andThen]
  split_ifs with hzero hok hcurrent
  · rfl
  · -- the root that is active is loaded again
    rw [pagingCurrentRoot_loadCr3, ← hcurrent, hsame]
    exact alignDownPage_pagingCurrentRoot
  · exact hsame
  · exact hsame

@[simp] theorem pagingCreateAddressSpace_cr3 : (pagingCreateAddressSpace s).2.cr3 = s.cr3 := by
  simp only [pagingCreateAddressSpace]
  split_ifs <;> simp

/-- A loop over the slots of a table, none of which changes CR3. -/
theorem foldl_cr3 {body : Kernel → Fin 512 → Kernel} {slots : List (Fin 512)}
    (hbody : ∀ s i, (body s i).cr3 = s.cr3) : (slots.foldl body s).cr3 = s.cr3 := by
  induction slots generalizing s with
  | nil => rfl
  | cons i slots ih => rw [List.foldl_cons, ih, hbody]

@[simp] theorem destroyTableTree_cr3 {level : Nat} : (destroyTableTree level s t).cr3 = s.cr3 := by
  induction level generalizing s t with
  | zero => rfl
  | succ level ih =>
      simp only [destroyTableTree]
      split
      · rfl
      · apply foldl_cr3
        intro s i
        split_ifs <;> simp [ih]

@[simp] theorem pagingDestroyAddressSpace_cr3 :
    (pagingDestroyAddressSpace s root).cr3 = s.cr3 := by
  simp only [pagingDestroyAddressSpace]
  split
  · rfl
  · rw [Kernel.freePages_cr3]
    apply foldl_cr3
    intro s i
    split_ifs <;> simp

/-- `paging_activate_root` with the root of a table. -/
theorem pagingActivateRoot_current (halign : alignDownPage root pageSize = root) (hne : root ≠ 0) :
    pagingCurrentRoot (pagingActivateRoot s root) = root := by
  simp only [pagingActivateRoot, halign, if_pos hne]
  exact halign

end FunnyOS.Memory
