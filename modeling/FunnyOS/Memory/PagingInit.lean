import FunnyOS.Memory.KernelTables

/-!
# `paging_init` with enough memory

Each function that builds the kernel's tables has a price in pages: where so many are free it
succeeds and takes no more. From the prices of the parts `paging_init` succeeds on every layout
whose sections are not empty, once enough pages are free.
-/

namespace FunnyOS.Memory

variable {s s' s'' : Kernel} {done done' : Prop} {live rest : List FreePageRange} {owned : List Nat} {rank : Nat → Nat}
  {t parent n cost cost' : Nat} {index slot : Fin 512}

/-- The pages that `alloc_pages` can still give. -/
def Kernel.pagesLeft (s : Kernel) : Nat := freePageCount s.pages.freeRanges

/-- What is afforded by a price: where so many pages are free a call does as it should. It never
takes more, and puts no range into the table. -/
structure Affords (cost : Nat) (s : Kernel) (done : Prop) (s' : Kernel) : Prop where
  succeeds : cost ≤ s.pagesLeft → done
  takes : s.pagesLeft ≤ s'.pagesLeft + cost
  ranges : s'.pages.freeRanges.length ≤ s.pages.freeRanges.length

namespace Affords

theorem refl (h : done) : Affords cost s done s := ⟨fun _ => h, Nat.le_add_right _ _, le_rfl⟩

theorem mono (h : Affords cost s done s') (hle : cost ≤ cost') : Affords cost' s done s' :=
  ⟨fun hleft => h.succeeds (hle.trans hleft), h.takes.trans (Nat.add_le_add_left hle _),
    h.ranges⟩

theorem imp (h : Affords cost s done s') (himp : done → done') : Affords cost s done' s' :=
  ⟨fun hleft => himp (h.succeeds hleft), h.takes, h.ranges⟩

/-- A call that has not done as it should was short of pages. -/
theorem fail (h : Affords cost s done s') (hno : ¬ done) : Affords cost s done' s' :=
  h.imp fun hdone => absurd hdone hno

theorem trans (h : Affords cost s done s') (h' : Affords cost' s' done' s'') :
    Affords (cost + cost') s done' s'' := by
  have htakes := h.takes
  have htakes' := h'.takes
  constructor
  · intro hleft
    exact h'.succeeds (by omega)
  · omega
  · exact h'.ranges.trans h.ranges

end Affords

/-- The search of `alloc_pages` puts no range into the table. -/
theorem allocFrom_length {base : Nat} {ranges ranges' : List FreePageRange}
    (h : allocFrom n ranges = some (base, ranges')) : ranges'.length ≤ ranges.length := by
  induction ranges generalizing base ranges' with
  | nil => simp [allocFrom] at h
  | cons r rest ih =>
      simp only [allocFrom] at h
      split_ifs at h with hfits hall
      · obtain ⟨-, rfl⟩ := Prod.mk.inj (Option.some.inj h)
        exact Nat.le_succ _
      · obtain ⟨-, rfl⟩ := Prod.mk.inj (Option.some.inj h)
        exact le_rfl
      · obtain ⟨⟨base', rest'⟩, hsome, hpair⟩ := Option.map_eq_some_iff.1 h
        obtain ⟨-, rfl⟩ := Prod.mk.inj hpair
        exact Nat.succ_le_succ (ih hsome)

theorem allocPages_length (pages : State) (n : Nat) :
    (allocPages pages n).2.freeRanges.length ≤ pages.freeRanges.length := by
  rw [allocPages]
  split
  · exact le_rfl
  · split
    · exact le_rfl
    · next hfrom => exact allocFrom_length hfrom

/-- A page is given as long as one is free. -/
theorem allocPages_one {pages : State} (h : Invariant (pages, live)) :
    (0 < freePageCount pages.freeRanges → (allocPages pages 1).1 ≠ 0) ∧
      freePageCount pages.freeRanges ≤ freePageCount (allocPages pages 1).2.freeRanges + 1 := by
  rcases allocPages_cases h 1 with hnone | ⟨base, ranges, halloc, hbase, -, hgiven⟩
  · constructor
    · intro hleft
      have hready : pages.ready = true := h.ready
      cases hranges : pages.freeRanges with
      | nil =>
          rw [hranges] at hleft
          exact absurd hleft (by decide)
      | cons r ranges =>
          have hok := h.freeRanges_ok
          rw [hranges] at hok
          have hpos : 1 ≤ r.pageCount := (TableOk.cons_iff.1 hok).1.pages
          have hfirst : (allocPages pages 1).1 = r.base := by
            by_cases hall : r.pageCount - 1 = 0
            · simp [allocPages, hready, hranges, allocFrom, hpos, hall]
            · simp [allocPages, hready, hranges, allocFrom, hpos, hall]
          rw [hfirst]
          have hmem : r.base ∈ freeAddresses pages.freeRanges :=
            ⟨r, hranges ▸ List.mem_cons_self, le_rfl, (TableOk.cons_iff.1 hok).1.base_lt⟩
          have hlow : reservedLowEnd ≤ r.base := h.low (Set.mem_union_left _ hmem)
          intro hzero
          rw [hzero] at hlow
          exact absurd hlow (by decide)
    · rw [hnone]
      exact Nat.le_add_right _ _
  · rw [halloc]
    exact ⟨fun _ => hbase, hgiven.pages.ge⟩

theorem allocPageTable_affords (h : Invariant (s.pages, live)) :
    Affords 1 s ((allocPageTable s).1 ≠ 0) (allocPageTable s).2 := by
  obtain ⟨hgives, htakes⟩ := allocPages_one h
  obtain ⟨hpages, hbase, -, -⟩ := Kernel.allocPages_pages (s := s) 1
  rw [allocPageTable]
  rcases halloc : s.allocPages 1 with ⟨table, s₁⟩
  rw [halloc] at hpages hbase
  have hpages : s₁.pages = (allocPages s.pages 1).2 := hpages
  have hbase : table = (allocPages s.pages 1).1 := hbase
  have hranges := allocPages_length s.pages 1
  rw [← hbase] at hgives
  rw [← hpages] at htakes hranges
  simp only
  split
  · next hzero => exact ⟨fun hleft => absurd hzero (hgives hleft), htakes, hranges⟩
  · next hne => exact ⟨fun _ => hne, htakes, hranges⟩

theorem splitLargePage_affords (h : Invariant (s.pages, live)) :
    Affords 1 s ((splitLargePage s t slot).1 = true) (splitLargePage s t slot).2 := by
  have halloc := allocPageTable_affords h
  rw [splitLargePage]
  simp only
  split
  · exact .refl rfl
  · rcases hcall : allocPageTable s with ⟨pt, s₁⟩
    rw [hcall] at halloc
    simp only
    split
    · next hzero => exact halloc.fail (not_not.2 hzero)
    · exact ⟨fun _ => rfl, halloc.takes, halloc.ranges⟩

theorem preparePt_affords (h : Invariant (s.pages, live)) (t : Nat) (slot : Fin 512) :
    Affords 1 s ((preparePt s t slot false).1 = true) (preparePt s t slot false).2 := by
  have halloc := allocPageTable_affords h
  rw [preparePt]
  simp only
  split
  · exact splitLargePage_affords h
  · split
    · rcases hcall : allocPageTable s with ⟨pt, s₁⟩
      rw [hcall] at halloc
      simp only
      split
      · next hzero => exact halloc.fail (not_not.2 hzero)
      · exact ⟨fun _ => rfl, halloc.takes, halloc.ranges⟩
    · simp only [Bool.false_and, Bool.false_eq_true, if_false]
      exact .refl trivial

namespace KernelOk

/-- `get_or_create_table` above level 2, where no entry is for a large page. -/
theorem getOrCreateTable_affords (h : KernelOk s owned rest rank) (hrank : rank parent = n + 1)
    (hn : 2 ≤ n) (index : Fin 512) : Affords 1 s ((Memory.getOrCreateTable s parent index false).1 ≠ 0)
      (Memory.getOrCreateTable s parent index false).2 := by
  have hparent := h.owned_ne_zero (h.ranked parent (by omega))
  have hlarge := h.small parent index (by omega)
  have halloc := allocPageTable_affords h.pages
  rw [Memory.getOrCreateTable, if_neg hparent]
  simp only [hlarge, Bool.false_eq_true, if_false, Bool.false_and]
  split
  · next hpresent =>
      have hchild : (s.tables parent index).child = some (s.tables parent index).table := by
        simp [Entry.child, hpresent, hlarge]
      have hpoints := h.points parent index _ (by omega) hchild
      have hrank' : rank (s.tables parent index).table ≠ 0 := by omega
      exact .refl (h.owned_ne_zero (h.ranked _ hrank'))
  · rcases hcall : allocPageTable s with ⟨table, s₁⟩
    rw [hcall] at halloc
    simp only
    split
    · next hzero => exact halloc.fail (not_not.2 hzero)
    · next hne => exact ⟨fun _ => hne, halloc.takes, halloc.ranges⟩

theorem getOrCreatePd_affords {root : Nat} (h : KernelOk s owned rest rank)
    (hroot : rank root = 4) (virt : Nat) : Affords 2 s ((Memory.getOrCreatePd s root virt false).1 ≠ 0)
      (Memory.getOrCreatePd s root virt false).2 := by
  have hfirst := h.getOrCreateTable_affords hroot (by decide) (pml4Index virt)
  obtain ⟨owned₁, rank₁, hext, hrank₁⟩ :=
    h.getOrCreateTable hroot (by decide) (pml4Index virt)
  rcases hget : Memory.getOrCreateTable s root (pml4Index virt) false with ⟨pdpt, s₁⟩
  rw [hget] at hfirst hext hrank₁
  rw [Memory.getOrCreatePd]
  simp only [hget]
  split
  · next hzero => exact (hfirst.fail (not_not.2 hzero)).mono (by decide)
  · next hne => exact hfirst.trans (hext.ok.getOrCreateTable_affords (hrank₁ hne) (by decide) (pdptIndex virt))

end KernelOk

theorem mapPage4k_affords {root virt phys : Nat} {writable executable : Bool}
    (h : KernelReady s rest) (hroot : s.pml4 = root) (hne : root ≠ 0) :
    Affords 3 s ((mapPage4k s root virt phys writable executable false).1 = true)
      (mapPage4k s root virt phys writable executable false).2 := by
  subst hroot
  obtain ⟨owned, rank, hok⟩ := h
  have hpd := hok.getOrCreatePd_affords (hok.root hne) virt
  obtain ⟨owned₁, rank₁, hext, -⟩ := hok.getOrCreatePd (hok.root hne) virt
  rcases hget : getOrCreatePd s s.pml4 virt false with ⟨pd, s₁⟩
  rw [hget] at hpd hext
  simp only [mapPage4k, hget]
  split
  · next hzero => exact (hpd.fail (not_not.2 hzero)).mono (by decide)
  · have hpt := hpd.trans (preparePt_affords hext.ok.pages pd (pdIndex virt))
    rcases hprepare : preparePt s₁ pd (pdIndex virt) false with ⟨ok, s₂⟩
    rw [hprepare] at hpt
    simp only
    split
    · next hnot => exact hpt.fail (by simpa using hnot)
    · exact ⟨fun _ => rfl, hpt.takes, hpt.ranges⟩

theorem mapPage2m_affords {virt phys : Nat} {writable executable : Bool}
    (h : KernelReady s rest) (hne : s.pml4 ≠ 0) :
    Affords 2 s ((mapPage2m s s.pml4 virt phys writable executable false).1 = true)
      (mapPage2m s s.pml4 virt phys writable executable false).2 := by
  obtain ⟨owned, rank, hok⟩ := h
  have hpd := hok.getOrCreatePd_affords (hok.root hne) virt
  rcases hget : getOrCreatePd s s.pml4 virt false with ⟨pd, s₁⟩
  rw [hget] at hpd
  simp only [mapPage2m, hget]
  split
  · next hzero => exact hpd.fail (not_not.2 hzero)
  · exact ⟨fun _ => rfl, hpd.takes, hpd.ranges⟩

/-- A call that answers whether it has done as it should. -/
def CallAffords (cost : Nat) (s : Kernel) (result : Bool × Kernel) : Prop :=
  Affords cost s (result.1 = true) result.2

/-- A loop takes what its body takes, each time. -/
theorem whileOk_affords {α : Type} {body : Kernel → α → Bool × Kernel} {l : List α} {root : Nat}
    (hbody : ∀ s a, KernelReady s rest → s.pml4 = root → CallKept rest s (body s a))
    (hcost : ∀ s a, KernelReady s rest → s.pml4 = root → CallAffords cost s (body s a))
    (h : KernelReady s rest) (hroot : s.pml4 = root) :
    CallAffords (cost * l.length) s (whileOk body l s) := by
  induction l generalizing s with
  | nil => exact .refl rfl
  | cons a l ih =>
      have hkept := hbody s a h hroot
      have hfirst := hcost s a h hroot
      rcases hstep : body s a with ⟨ok, s₁⟩
      rw [hstep] at hkept hfirst
      rw [List.length_cons, Nat.mul_succ]
      simp only [whileOk, hstep]
      split
      · exact (Affords.trans hfirst (ih hkept.1 (hkept.2.pml4.trans hroot))).mono (by omega)
      · next hno => exact (Affords.fail hfirst hno).mono (by omega)

theorem CallAffords.andThen {first : Bool × Kernel} {next : Kernel → Bool × Kernel}
    (hkept : CallKept rest s first) (h : CallAffords cost s first)
    (hnext : ∀ s₁, KernelReady s₁ rest → s₁.pml4 = s.pml4 → CallAffords cost' s₁ (next s₁)) :
    CallAffords (cost + cost') s (andThen first next) := by
  rw [Memory.andThen]
  split
  · exact Affords.trans h (hnext first.2 hkept.1 hkept.2.pml4)
  · next hno => exact (Affords.fail h hno).mono (by omega)

/-- The pages that `map_range_in_root` maps. -/
def rangePages (start stop : Nat) : List Nat :=
  cursors (alignDownPage start pageSize) (alignUpPage stop pageSize) pageSize

theorem mapRangeInRoot_affords {virtStart physStart size : Nat} (h : KernelReady s rest)
    (hne : s.pml4 ≠ 0) (writable executable : Bool) (hsize : size ≠ 0)
    (hvirt : virtStart ≤ (virtStart + size) % 2 ^ 64)
    (hphys : physStart ≤ (physStart + size) % 2 ^ 64) :
    CallAffords (3 * (rangePages virtStart ((virtStart + size) % 2 ^ 64)).length) s
      (mapRangeInRoot s s.pml4 virtStart physStart size writable executable false) := by
  simp only [mapRangeInRoot]
  rw [if_neg (by simp [hne, hsize]), if_neg (by omega)]
  apply whileOk_affords _ _ h rfl
  · intro s₁ virt h₁ hroot₁
    exact mapPage4k_kept h₁ hroot₁ hne
  · intro s₁ virt h₁ hroot₁
    exact mapPage4k_affords h₁ hroot₁ hne

/-- The price of an identity mapping. -/
def identityCost (start stop : Nat) : Nat := 3 * (rangePages start stop).length

theorem mapRangeIdentityKernel_affords {start stop : Nat} {writable executable : Bool}
    (h : KernelReady s rest) (hne : s.pml4 ≠ 0) (hlt : start < stop) (hstop : stop < 2 ^ 64) :
    CallAffords (identityCost start stop) s
      (mapRangeIdentityKernel s start stop writable executable) := by
  have hsize : sub64 stop start = stop - start := by
    rw [sub64]
    omega
  have hend : (start + (stop - start)) % 2 ^ 64 = stop := by
    rw [Nat.add_sub_cancel' hlt.le, Nat.mod_eq_of_lt hstop]
  have hvirt : start ≤ (start + (stop - start)) % 2 ^ 64 := by omega
  have hrange := mapRangeInRoot_affords h hne writable executable (Nat.sub_ne_zero_of_lt hlt) hvirt
    hvirt
  rw [hend] at hrange
  rw [mapRangeIdentityKernel, hsize]
  exact hrange

theorem mapKernelChunk_affords {cursor : Nat} (h : KernelReady s rest) (hne : s.pml4 ≠ 0) :
    CallAffords 3 s (mapKernelChunk s cursor) := by
  obtain ⟨owned, rank, hok⟩ := h
  have hpd := hok.getOrCreatePd_affords (hok.root hne) cursor
  obtain ⟨owned₁, rank₁, hext, -⟩ := hok.getOrCreatePd (hok.root hne) cursor
  rcases hget : getOrCreatePd s s.pml4 cursor false with ⟨pd, s₁⟩
  rw [hget] at hpd hext
  have hpages : (ensureChunk s₁ pd (pdIndex cursor) cursor).pages = s₁.pages := by
    rw [ensureChunk]
    split <;> rfl
  have hset : Affords 0 s₁ True (ensureChunk s₁ pd (pdIndex cursor) cursor) := by
    constructor
    · exact fun _ => trivial
    · rw [Kernel.pagesLeft, Kernel.pagesLeft, hpages]
      exact le_rfl
    · rw [hpages]
  simp only [mapKernelChunk, hget]
  split
  · next hzero => exact (hpd.fail (not_not.2 hzero)).mono (by decide)
  · have hinv := hext.ok.pages
    rw [← hpages] at hinv
    split
    · exact (hpd.trans hset).trans (splitLargePage_affords hinv)
    · exact ((hpd.trans hset).imp fun _ => rfl).mono (by decide)

/-- A layout as the linker makes it: the sections are not empty. -/
structure KernelLayout.Filled (layout : KernelLayout) : Prop where
  text : layout.textStart.toNat < layout.textEnd.toNat
  rodata : layout.rodataStart.toNat < layout.rodataEnd.toNat

/-- The price of `map_kernel_image`. -/
def KernelLayout.imageCost (layout : KernelLayout) : Nat :=
  3 * (cursors (alignDownPage layout.start.toNat pageSize2m)
      (alignUpPage layout.imageEnd.toNat pageSize2m) pageSize2m).length +
    (identityCost layout.textStart.toNat layout.textEnd.toNat +
      (identityCost layout.rodataStart.toNat layout.rodataEnd.toNat +
        identityCost layout.dataStart.toNat layout.imageEnd.toNat))

theorem mapKernelImage_affords {layout : KernelLayout} (h : KernelReady s rest) (hne : s.pml4 ≠ 0)
    (hlayout : layout.Filled) : CallAffords layout.imageCost s (mapKernelImage layout s) := by
  have hchunk : ∀ (s₁ : Kernel) (cursor : Nat), KernelReady s₁ rest → s₁.pml4 = s.pml4 →
      CallKept rest s₁ (mapKernelChunk s₁ cursor) :=
    fun s₁ cursor h₁ hroot₁ => mapKernelChunk_kept h₁ (hroot₁ ▸ hne)
  rw [mapKernelImage, KernelLayout.imageCost]
  apply CallAffords.andThen
  · exact whileOk_kept hchunk h rfl
  · apply whileOk_affords hchunk _ h rfl
    intro s₁ cursor h₁ hroot₁
    exact mapKernelChunk_affords h₁ (hroot₁ ▸ hne)
  · intro s₁ h₁ hroot₁
    have hne₁ : s₁.pml4 ≠ 0 := hroot₁ ▸ hne
    apply CallAffords.andThen (mapRangeIdentityKernel_kept h₁)
    · exact mapRangeIdentityKernel_affords h₁ hne₁ hlayout.text layout.textEnd.toNat_lt
    · intro s₂ h₂ hroot₂
      have hne₂ : s₂.pml4 ≠ 0 := hroot₂ ▸ hne₁
      apply CallAffords.andThen (mapRangeIdentityKernel_kept h₂)
      · exact mapRangeIdentityKernel_affords h₂ hne₂ hlayout.rodata layout.rodataEnd.toNat_lt
      · intro s₃ h₃ hroot₃
        split
        · next hdata =>
            exact mapRangeIdentityKernel_affords h₃ (hroot₃ ▸ hne₂) (UInt64.lt_iff_toNat_lt.1 hdata)
              layout.imageEnd.toNat_lt
        · exact .refl rfl

/-- The price of what `paging_init` maps. -/
def KernelLayout.mapCost (layout : KernelLayout) : Nat :=
  3 * (rangePages pageSize pageSize2m).length +
    (2 * (cursors pageSize2m lowIdentityLimit pageSize2m).length + layout.imageCost)

theorem fillKernelRoot_affords {layout : KernelLayout} {info : BootInfo} (h : KernelReady s rest)
    (hne : s.pml4 ≠ 0) (hlayout : layout.Filled)
    (hconsole : info.consoleFlags &&& bootinfoConsoleFramebuffer = 0) :
    CallAffords layout.mapCost s (fillKernelRoot layout (some info) s) := by
  have hpage : ∀ (s₁ : Kernel) (cursor : Nat), KernelReady s₁ rest → s₁.pml4 = s.pml4 →
      CallKept rest s₁ (mapPage2m s₁ s₁.pml4 cursor cursor true true false) :=
    fun s₁ cursor h₁ hroot₁ => mapPage2m_kept h₁ (hroot₁ ▸ hne)
  rw [fillKernelRoot, KernelLayout.mapCost]
  apply CallAffords.andThen (mapRangeInRoot_kept h)
  · have hvirt : pageSize ≤ (pageSize + (pageSize2m - pageSize)) % 2 ^ 64 := by decide
    have hrange := mapRangeInRoot_affords h hne true true (by decide) hvirt hvirt
    have hend : (pageSize + (pageSize2m - pageSize)) % 2 ^ 64 = pageSize2m := by decide
    rw [hend] at hrange
    exact hrange
  · intro s₁ h₁ hroot₁
    apply CallAffords.andThen
    · exact whileOk_kept hpage h₁ hroot₁
    · apply whileOk_affords hpage _ h₁ hroot₁
      intro s₂ cursor h₂ hroot₂
      exact mapPage2m_affords h₂ (hroot₂ ▸ hne)
    · intro s₂ h₂ hroot₂
      have hne₂ : s₂.pml4 ≠ 0 := by
        rw [hroot₂, hroot₁]
        exact hne
      rw [← Nat.add_zero layout.imageCost]
      apply CallAffords.andThen (mapKernelImage_kept h₂ hne₂)
      · exact mapKernelImage_affords h₂ hne₂ hlayout
      · intro s₃ h₃ _
        rw [mapFramebuffer, if_pos hconsole]
        exact ⟨fun _ => rfl, Nat.le_refl s₃.pagesLeft, le_rfl⟩

/-- `paging_init` succeeds when its price is free, and takes no more. -/
theorem pagingInit_affords {layout : KernelLayout} (h : KernelReady s rest)
    (hlayout : layout.Filled) (info : BootInfo) (hconsole : info.consoleFlags &&& bootinfoConsoleFramebuffer = 0) :
    CallAffords (1 + layout.mapCost) s (pagingInit layout (some info) s) := by
  obtain ⟨owned, rank, hok⟩ := h
  have halloc := allocPageTable_affords hok.pages
  rw [pagingInit]
  rcases allocPageTable_cases hok.pages with hnone | ⟨c, pages, hfresh, hcall⟩
  · rw [hnone] at halloc ⊢
    simp only [if_true]
    have hnull : CallAffords 1 s (false, { s with pml4 := 0 }) :=
      ⟨fun hleft => absurd rfl (halloc.succeeds hleft), halloc.takes, halloc.ranges⟩
    exact Affords.mono hnull (Nat.le_add_right _ _)
  · rw [hcall] at halloc ⊢
    simp only [if_neg hfresh.nonzero]
    have hroot : Affords 1 s True { s.withTable c pages with pml4 := c } :=
      ⟨fun _ => trivial, halloc.takes, halloc.ranges⟩
    exact Affords.trans hroot
      (fillKernelRoot_affords (hok.newRoot hfresh).1 hfresh.nonzero hlayout hconsole)

/-- After a successful `paging_init` every entry of the kernel's root is empty or leads on. -/
theorem pagingInit_top {layout : KernelLayout} {info : Option BootInfo} (h : KernelReady s rest)
    (hdone : (pagingInit layout info s).1 = true) (i : Fin 512) :
    (pagingInit layout info s).2.tables (pagingInit layout info s).2.pml4 i = 0 ∨
      Entry.Linked ((pagingInit layout info s).2.tables (pagingInit layout info s).2.pml4 i) := by
  obtain ⟨owned, rank, hok⟩ := h
  rw [pagingInit] at hdone ⊢
  rcases allocPageTable_cases hok.pages with hnone | ⟨c, pages, hfresh, hcall⟩
  · rw [hnone] at hdone
    exact absurd hdone (by simp)
  · rw [hcall]
    simp only [if_neg hfresh.nonzero]
    have hkept := fillKernelRoot_kept (hok.newRoot hfresh).1 hfresh.nonzero layout info
    have htop := hkept.2.top hfresh.nonzero i
    rw [hkept.2.pml4]
    have hzero : (s.withTable c pages).tables c i = 0 := by
      simp only [Kernel.withTable, Function.update_self]
    rw [hzero] at htop
    exact htop

theorem andThen_succeeds {first : Bool × Kernel} {next : Kernel → Bool × Kernel}
    (h : (andThen first next).1 = true) : andThen first next = next first.2 := by
  rw [andThen] at h ⊢
  split
  · rfl
  · next hno =>
      rw [if_neg hno] at h
      exact absurd h (by simp)

/-- Where `paging_init` succeeds the last thing it does is to load the root. -/
theorem fillKernelRoot_loads {layout : KernelLayout} {info : Option BootInfo}
    (h : (fillKernelRoot layout info s).1 = true) :
    ∃ s₁, fillKernelRoot layout info s = (true, loadCr3 s₁ s₁.pml4) := by
  rw [fillKernelRoot] at h ⊢
  have hfirst := andThen_succeeds h
  rw [hfirst] at h ⊢
  have hsecond := andThen_succeeds h
  rw [hsecond] at h ⊢
  have hthird := andThen_succeeds h
  rw [hthird] at h ⊢
  have hfourth := andThen_succeeds h
  rw [hfourth]
  exact ⟨_, rfl⟩

theorem KernelOk.pml4_aligned (h : KernelOk s owned rest rank) (hne : s.pml4 ≠ 0) :
    s.pml4 % pageSize = 0 := by
  have hfour := h.root hne
  have hmem : s.pml4 ∈ owned := h.ranked _ (by omega)
  exact (h.pages.blocks _ (List.mem_append_left _ (List.mem_map_of_mem hmem))).aligned

theorem pagingInit_active {layout : KernelLayout} {info : Option BootInfo} (h : KernelReady s rest)
    (hdone : (pagingInit layout info s).1 = true) :
    (pagingInit layout info s).2.pml4 ≠ 0 ∧
      pagingCurrentRoot (pagingInit layout info s).2 = (pagingInit layout info s).2.pml4 := by
  obtain ⟨owned, rank, hready⟩ := (pagingInit_ready h layout info).1
  obtain ⟨owned₀, rank₀, hok⟩ := h
  rw [pagingInit] at hdone hready ⊢
  rcases allocPageTable_cases hok.pages with hnone | ⟨c, pages, hfresh, hcall⟩
  · rw [hnone] at hdone
    exact absurd hdone (by simp)
  · rw [hcall] at hdone hready ⊢
    simp only [if_neg hfresh.nonzero] at hdone hready ⊢
    have hkept := fillKernelRoot_kept (hok.newRoot hfresh).1 hfresh.nonzero layout info
    have hpml4 : (fillKernelRoot layout info { s.withTable c pages with pml4 := c }).2.pml4 = c :=
      hkept.2.pml4
    have hne := hfresh.nonzero
    rw [← hpml4] at hne
    have haligned := hready.pml4_aligned hne
    refine ⟨hne, ?_⟩
    obtain ⟨s₁, hloads⟩ := fillKernelRoot_loads hdone
    rw [hloads] at haligned ⊢
    exact Nat.div_mul_cancel (Nat.dvd_of_mod_eq_zero haligned)

/-- Where `get_or_create_table` has found a table or made one, it finds it again. -/
theorem getOrCreateTable_again (h : Invariant (s.pages, live)) (hparent : parent ≠ 0)
    (index : Fin 512) (hne : (getOrCreateTable s parent index false).1 ≠ 0) :
    ((getOrCreateTable s parent index false).2.tables parent index).present = true ∧
      getOrCreateTable (getOrCreateTable s parent index false).2 parent index false =
        getOrCreateTable s parent index false := by
  rcases getOrCreateTable_cases h hparent index false with
    hnone | ⟨c, hchild, -, hget⟩ | ⟨-, c, pages, hfresh, hget⟩
  · rw [hnone] at hne
    exact absurd rfl hne
  · rw [hget]
    exact ⟨(Entry.child_eq_some hchild).1, hget⟩
  · rw [hget]
    have hchild : Entry.child (BitVec.ofNat 64 c ||| tableFlags false) = some c :=
      tableEntry_child hfresh.aligned hfresh.lt
    obtain ⟨hpresent, hlarge, htable⟩ := Entry.child_eq_some hchild
    set s₁ := (s.withTable c pages).setEntry parent index (BitVec.ofNat 64 c ||| tableFlags false)
      with hs₁
    have hentry : s₁.tables parent index = BitVec.ofNat 64 c ||| tableFlags false := by
      simp only [hs₁, Kernel.setEntry, Kernel.setTable, Function.update_self]
    constructor
    · show (s₁.tables parent index).present = true
      rw [hentry]
      exact hpresent
    · show getOrCreateTable s₁ parent index false = (c, s₁)
      simp [getOrCreateTable, hparent, hentry, hpresent, hlarge, htable]

/-- A page mapped under the kernel's root has an entry in the root. -/
theorem mapPage4k_present {virt phys : Nat} {writable executable : Bool} (h : KernelReady s rest)
    (hne : s.pml4 ≠ 0)
    (hdone : (mapPage4k s s.pml4 virt phys writable executable false).1 = true) :
    ((mapPage4k s s.pml4 virt phys writable executable false).2.tables s.pml4
      (pml4Index virt)).present = true := by
  obtain ⟨owned, rank, hok⟩ := h
  have hagain := getOrCreateTable_again hok.pages hne (pml4Index virt)
  obtain ⟨owned₁, rank₁, hext, -⟩ :=
    hok.getOrCreateTable (hok.root hne) (by decide) (pml4Index virt)
  rcases hget : getOrCreateTable s s.pml4 (pml4Index virt) false with ⟨pdpt, s₁⟩
  rw [hget] at hagain hext
  have hpdpt : pdpt ≠ 0 := by
    rintro rfl
    simp [mapPage4k, getOrCreatePd, hget] at hdone
  obtain ⟨hpresent, hsecond⟩ := hagain hpdpt
  -- from there on the call does what it does when the table is there already
  have hsame : mapPage4k s s.pml4 virt phys writable executable false =
      mapPage4k s₁ s.pml4 virt phys writable executable false := by
    have hpd : getOrCreatePd s s.pml4 virt false = getOrCreatePd s₁ s.pml4 virt false := by
      rw [getOrCreatePd, getOrCreatePd, hget, hsecond]
    rw [mapPage4k, mapPage4k, hpd]
  have hpml4 : s₁.pml4 = s.pml4 := hext.tree.pml4
  have hkept : CallKept rest s₁ (mapPage4k s₁ s.pml4 virt phys writable executable false) :=
    mapPage4k_kept ⟨owned₁, rank₁, hext.ok⟩ hpml4 hne
  rw [hsame]
  have htop := hkept.2.top (hpml4.symm ▸ hne) (pml4Index virt)
  rw [hpml4] at htop
  rcases htop with hold | hlinked
  · rw [hold]
    exact hpresent
  · exact hlinked.present

/-- A layout for a kernel image just above 1 MiB. -/
def sampleLayout : KernelLayout :=
  { sampleImage with
    textStart := 0x100000, textEnd := 0x140000, rodataStart := 0x140000, rodataEnd := 0x150000,
    dataStart := 0x150000 }

/-- 64 MiB from 2 MiB on. -/
def roomyMap : List EfiMemoryDescriptor := [⟨7, 0x200000, 16384⟩]

theorem roomyMap_init : memoryInit sampleImage (some (sampleInfo roomyMap)) startState =
    (true, sampleState roomyMap) :=
  memoryInit_sample (by decide +kernel)

theorem roomyMap_disjoint : DisjointConventional (sampleInfo roomyMap).memoryMap.entries := by
  have hentries : (sampleInfo roomyMap).memoryMap.entries = roomyMap := by decide +kernel
  rw [hentries]
  exact List.pairwise_singleton _ _

/-- A kernel that has switched to its own root, and every entry of it is empty or leads on. -/
structure Started (s : Kernel) : Prop where
  booted : Booted s []
  root : s.pml4 ≠ 0
  active : pagingCurrentRoot s = s.pml4
  top : ∀ i, s.tables s.pml4 i = 0 ∨ Entry.Linked (s.tables s.pml4 i)

/-- `memory_init` and `paging_init` in 64 MiB. -/
theorem exists_started : ∃ s, Started s ∧ 1000 ≤ s.pagesLeft ∧ s.pages.freeRanges.length ≤ 1 := by
  have hstart := Kernel.initial_ready
    (memoryInit_initialised roomyMap_disjoint roomyMap_init).invariant (fun _ _ => 0) 0x5000
  have hfilled : sampleLayout.Filled := ⟨by decide, by decide⟩
  have hprice := pagingInit_affords hstart hfilled (sampleInfo roomyMap) (by decide)
  have hcost : 1 + sampleLayout.mapCost ≤ 15000 := by decide +kernel
  have hleft : (Kernel.initial (sampleState roomyMap) (fun _ _ => 0) 0x5000).pagesLeft = 16384 := by
    have hcount : freePageCount (sampleState roomyMap).freeRanges = 16384 := by decide +kernel
    exact hcount
  have htakes := hprice.takes
  have hdone := hprice.succeeds (by omega)
  obtain ⟨hroot, hactive⟩ := pagingInit_active hstart hdone
  have hbooted : Booted (pagingInit sampleLayout (some (sampleInfo roomyMap))
      (Kernel.initial (sampleState roomyMap) (fun _ _ => 0) 0x5000)).2 [] :=
    ⟨sampleImage, sampleInfo roomyMap, startState, sampleState roomyMap, fun _ _ => 0, 0x5000,
      [.init sampleLayout (some (sampleInfo roomyMap))], roomyMap_disjoint, roomyMap_init,
      .cons (.init _ _ _ _) (.nil _)⟩
  have hranges : (sampleState roomyMap).freeRanges.length ≤ 1 := by decide +kernel
  exact ⟨_, ⟨hbooted, hroot, hactive, pagingInit_top hstart hdone⟩, by omega,
    hprice.ranges.trans hranges⟩

end FunnyOS.Memory
