import FunnyOS.Memory.HeapBlocks

/-!
# The sizes that `kmalloc` is asked for

`kmalloc` rounds the size up to 16 bytes, `heap_grow` adds a header and rounds up to whole pages,
all in 64 bits. Up to 2^64 - 32 bytes `kmalloc` gives a block that is long enough or changes
nothing, and calls itself at most once. Above, the header addition or the first rounding wraps.
-/

namespace FunnyOS.Memory

variable {s s' : HeapState} {heap rest : List HeapBlock} {b block : HeapBlock}
  {blocks : List FreePageRange} {ranges : List FreePageRange} {n size count : Nat}

/-- How many pages `heap_grow` asks for. -/
def heapGrowCount (minimumSize : Nat) : Nat :=
  alignUpSize ((heapBlockHeaderSize + minimumSize) % 2 ^ 64) pageSize / pageSize

/-- No free block is as long as `n`. -/
def LacksBlock (heap : List HeapBlock) (n : Nat) : Prop := ∀ b ∈ heap, b.free = true → b.size < n

/-- `alloc_pages` has nothing to give for `count` pages. -/
def LacksPages (ranges : List FreePageRange) (count : Nat) : Prop :=
  count = 0 ∨ ∀ r ∈ ranges, r.pageCount < count

/-- How often `kmalloc` calls itself. -/
def kmallocCalls (s : HeapState) (size : Nat) : Nat :=
  if !s.pages.ready || size == 0 then 0
  else
    let alignedSize := alignUpSize size memoryHeapAlignment
    let (allocation, heap) := heapAllocFromList alignedSize s.heap
    let s := { s with heap := heap }
    if allocation ≠ 0 then 0
    else if (heapGrow s alignedSize).1 = 0 then 0
    else kmallocCalls (heapGrow s alignedSize).2 size + 1
termination_by s.freePages
decreasing_by exact heapGrow_freePages ‹_›

theorem allocFrom_eq_none_iff :
    allocFrom count ranges = none ↔ ∀ r ∈ ranges, r.pageCount < count := by
  induction ranges with
  | nil => simp [allocFrom]
  | cons r rest ih =>
      rw [List.forall_mem_cons, ← ih, allocFrom]
      split
      · next hfits =>
          have hnone : ¬ r.pageCount < count := not_lt.2 hfits
          split <;> simp [hnone]
      · next hlong => simp [not_le.1 hlong]

theorem allocPages_eq_zero_iff {live : List FreePageRange} {s : State} (h : Invariant (s, live)) :
    (allocPages s count).1 = 0 ↔ LacksPages s.freeRanges count := by
  have hready : s.ready = true := h.ready
  by_cases hcount : count = 0
  · simp [allocPages, LacksPages, hcount]
  · rw [LacksPages, or_iff_right hcount, ← allocFrom_eq_none_iff]
    constructor
    · intro hzero
      by_contra hsome
      obtain ⟨found, hfound⟩ := Option.ne_none_iff_exists'.1 hsome
      rcases allocPages_cases h count with hnone | ⟨base, _, halloc, hbase, _⟩
      · simp [allocPages, hfound, hready, hcount] at hnone
        have hranges := allocFrom_sum (Nat.pos_of_ne_zero hcount) hfound
        rw [← hnone.2] at hranges
        exact absurd hranges (lt_irrefl _)
      · rw [halloc] at hzero
        exact hbase hzero
    · intro hnone
      simp [allocPages, hnone]

theorem heapGrow_eq_zero_iff (h : HeapInvariant s blocks) :
    (heapGrow s n).1 = 0 ↔ LacksPages s.pages.freeRanges (heapGrowCount n) := by
  have hcount : alignUpSize ((heapBlockHeaderSize + n) % 2 ^ 64) pageSize / pageSize =
      heapGrowCount n := rfl
  rw [← allocPages_eq_zero_iff h.pages]
  simp only [heapGrow, hcount]
  split
  · next hzero => simp [hzero]
  · next hne => simp [hne]

/-- A `heap_grow` that fails changes nothing. -/
theorem heapGrow_fail (h : HeapInvariant s blocks) (hzero : (heapGrow s n).1 = 0) :
    heapGrow s n = (0, s) := by
  rcases heapGrow_cases h n with hfail | ⟨base, s', hgrow, hbase, -⟩
  · exact hfail
  · rw [hgrow] at hzero
    exact absurd hzero hbase

theorem LacksBlock.cons_iff :
    LacksBlock (block :: heap) n ↔ (block.free = true → block.size < n) ∧ LacksBlock heap n :=
  List.forall_mem_cons

theorem heapAllocFromList_lacks (h : LacksBlock heap n) : heapAllocFromList n heap = (0, heap) := by
  induction heap with
  | nil => rfl
  | cons block rest ih =>
      obtain ⟨hblock, hrest⟩ := LacksBlock.cons_iff.1 h
      have hfits : ¬ ((block.free && decide (n ≤ block.size)) = true) := by
        simp only [Bool.and_eq_true, decide_eq_true_eq, not_and, not_le]
        exact hblock
      rw [heapAllocFromList, if_neg hfits, ih hrest]

/-- What `heap_alloc_from_list` gives out: a block with the address of a free one that was long
enough, and that is long enough itself. -/
theorem heapAllocFromList_found (h : ¬ LacksBlock heap n) :
    ∃ b ∈ heap, ∃ c ∈ (heapAllocFromList n heap).2, (heapAllocFromList n heap).1 = c.data ∧
      c.addr = b.addr ∧ b.free = true ∧ n ≤ b.size ∧ c.free = false ∧ n ≤ c.size := by
  induction heap with
  | nil => simp [LacksBlock] at h
  | cons block rest ih =>
      simp only [heapAllocFromList]
      split
      · next hfits =>
          simp only [Bool.and_eq_true, decide_eq_true_eq] at hfits
          obtain ⟨hfree, hle⟩ := hfits
          split
          · exact ⟨block, by simp, _, List.mem_cons_self, rfl, rfl, hfree, hle, rfl, le_rfl⟩
          · exact ⟨block, by simp, _, List.mem_cons_self, rfl, rfl, hfree, hle, rfl, hle⟩
      · next hfits =>
          have hrest : ¬ LacksBlock rest n := by
            intro hlacks
            refine h (LacksBlock.cons_iff.2 ⟨fun hfree => ?_, hlacks⟩)
            by_contra hle
            exact hfits (by simp [hfree, not_lt.1 hle])
          obtain ⟨b, hb, c, hc, hfound⟩ := ih hrest
          exact ⟨b, by simp [hb], c, by simp [hc], hfound⟩

/-- A free block is still there after the merge, joined with what it touched. -/
theorem heapMergeFrom_free (hok : HeapOk (block :: rest)) (hb : b ∈ block :: rest)
    (hfree : b.free = true) :
    ∃ c ∈ heapMergeFrom block rest, c.free = true ∧ b.size ≤ c.size := by
  induction rest generalizing block b with
  | nil =>
      rw [List.mem_singleton] at hb
      exact ⟨block, by simp [heapMergeFrom], hb ▸ hfree, hb ▸ le_rfl⟩
  | cons next rest ih =>
      simp only [heapMergeFrom]
      split
      · next hjoin =>
          simp only [Bool.and_eq_true, beq_iff_eq] at hjoin
          have hmerge := Recut.merge hok hjoin.2
          have hbytes := hmerge.bytes
          simp only [heapBytes_cons] at hbytes
          rcases List.mem_cons.1 hb with rfl | hb
          · obtain ⟨c, hc, hcfree, hle⟩ := ih hmerge.ok List.mem_cons_self hfree
            refine ⟨c, hc, hcfree, le_trans ?_ hle⟩
            simp only
            omega
          · rcases List.mem_cons.1 hb with rfl | hb
            · obtain ⟨c, hc, hcfree, hle⟩ := ih hmerge.ok List.mem_cons_self hjoin.1.1
              refine ⟨c, hc, hcfree, le_trans ?_ hle⟩
              simp only
              omega
            · exact ih hmerge.ok (List.mem_cons_of_mem _ hb) hfree
      · rcases List.mem_cons.1 hb with rfl | hb
        · exact ⟨b, by simp, hfree, le_rfl⟩
        · obtain ⟨c, hc, hcfree, hle⟩ := ih hok.tail hb hfree
          exact ⟨c, by simp [hc], hcfree, hle⟩

/-- A `heap_grow` that succeeds leaves a free block of the pages that it got. -/
theorem heapGrow_free (h : HeapInvariant s blocks) (hgrow : (heapGrow s n).1 ≠ 0) :
    ∃ b ∈ (heapGrow s n).2.heap, b.free = true ∧
      heapGrowCount n * pageSize ≤ heapBlockHeaderSize + b.size := by
  have hcount : alignUpSize ((heapBlockHeaderSize + n) % 2 ^ 64) pageSize / pageSize =
      heapGrowCount n := rfl
  have hmerged : ∀ (heap : List HeapBlock), HeapOk heap → ∀ b ∈ heap, b.free = true →
      ∃ c ∈ heapMergeAdjacent heap, c.free = true ∧ b.size ≤ c.size := by
    intro heap hok b hb hfree
    cases heap with
    | nil => simp at hb
    | cons block rest => exact heapMergeFrom_free hok hb hfree
  simp only [heapGrow, hcount] at hgrow ⊢
  rcases allocPages_cases h.pages (heapGrowCount n) with
    hnone | ⟨base, ranges, halloc, hbase, hpos, hgiven⟩
  · rw [hnone] at hgrow
    exact absurd rfl hgrow
  · obtain ⟨-, hsize, hok, -⟩ := heapGrow_insert h halloc hbase
    have hmem : grownBlock base (heapGrowCount n) ∈
        heapInsertBlock (grownBlock base (heapGrowCount n)) s.heap := by
      simp [heapInsertBlock_eq]
    obtain ⟨c, hc, hfree, hle⟩ := hmerged _ hok _ hmem rfl
    rw [halloc]
    simp only [if_neg hbase]
    exact ⟨c, hc, hfree, by omega⟩

theorem kmalloc_zero : kmalloc s 0 = (0, s) ∧ kmallocCalls s 0 = 0 := by
  rw [kmalloc, kmallocCalls]
  simp

theorem HeapInvariant.calls (h : HeapInvariant s blocks) (hsize : size ≠ 0) :
    ¬ (!s.pages.ready || size == 0) = true := by
  have hready : s.pages.ready = true := h.pages.ready
  simp [hready, hsize]

/-- A free block of the list is long enough. -/
theorem kmalloc_found (h : HeapInvariant s blocks) (hsize : size ≠ 0)
    (hfound : ¬ LacksBlock s.heap (alignUpSize size memoryHeapAlignment)) :
    kmalloc s size = ((heapAllocFromList (alignUpSize size memoryHeapAlignment) s.heap).1,
        { s with heap := (heapAllocFromList (alignUpSize size memoryHeapAlignment) s.heap).2 }) ∧
      kmallocCalls s size = 0 ∧ (kmalloc s size).1 ≠ 0 := by
  obtain ⟨b, hb, -, -, -, -, hfree, hle, -⟩ := heapAllocFromList_found hfound
  have hnonnull : (heapAllocFromList (alignUpSize size memoryHeapAlignment) s.heap).1 ≠ 0 := by
    rcases heapAllocFromList_cases h.ok h.merged with hnone | ⟨ptr, heap', hsome, halloc⟩
    · have hgone := heapAllocFromList_found hfound
      obtain ⟨-, -, c, hc, hptr, -, -, -, hused, -⟩ := hgone
      rw [hnone] at hc hptr
      rw [hnone]
      intro _
      exact HeapBlock.data_ne_zero (h.ok.bounded c hc) hptr.symm
    · rw [hsome]
      exact halloc.nonnull
  have hcall := kmalloc_some (h.calls hsize) rfl hnonnull
  refine ⟨hcall, ?_, ?_⟩
  · rw [kmallocCalls, if_neg (h.calls hsize)]
    simp only [if_pos hnonnull]
  · rw [hcall]
    exact hnonnull

/-- Neither a block nor the pages for one. -/
theorem kmalloc_fails (h : HeapInvariant s blocks)
    (hlacks : LacksBlock s.heap (alignUpSize size memoryHeapAlignment))
    (hpages : LacksPages s.pages.freeRanges
      (heapGrowCount (alignUpSize size memoryHeapAlignment))) :
    kmalloc s size = (0, s) ∧ kmallocCalls s size = 0 := by
  rcases eq_or_ne size 0 with rfl | hsize
  · exact kmalloc_zero
  · have hnone := heapAllocFromList_lacks hlacks
    have hgrow := (heapGrow_eq_zero_iff h).2 hpages
    constructor
    · rw [kmalloc_none (h.calls hsize) hnone, if_pos hgrow, heapGrow_fail h hgrow]
    · rw [kmallocCalls, if_neg (h.calls hsize)]
      simp only [hnone, ne_eq, not_true_eq_false, if_false, hgrow, if_true]

/-- The heap has grown, and `kmalloc` calls itself. -/
theorem kmalloc_again (h : HeapInvariant s blocks) (hsize : size ≠ 0)
    (hlacks : LacksBlock s.heap (alignUpSize size memoryHeapAlignment))
    (hpages : ¬ LacksPages s.pages.freeRanges
      (heapGrowCount (alignUpSize size memoryHeapAlignment))) :
    ∃ base s', heapGrow s (alignUpSize size memoryHeapAlignment) = (base, s') ∧ base ≠ 0 ∧
      HeapInvariant s' blocks ∧ s'.freePages < s.freePages ∧
      kmalloc s size = kmalloc s' size ∧ kmallocCalls s size = kmallocCalls s' size + 1 := by
  have hnone := heapAllocFromList_lacks hlacks
  have hgrow : (heapGrow s (alignUpSize size memoryHeapAlignment)).1 ≠ 0 :=
    fun hzero => hpages ((heapGrow_eq_zero_iff h).1 hzero)
  have hless := heapGrow_freePages hgrow
  have hcall := kmalloc_none (h.calls hsize) hnone
  have hcalls : kmallocCalls s size =
      kmallocCalls (heapGrow s (alignUpSize size memoryHeapAlignment)).2 size + 1 := by
    rw [kmallocCalls, if_neg (h.calls hsize)]
    simp only [hnone, ne_eq, not_true_eq_false, if_false, hgrow]
  rw [if_neg hgrow] at hcall
  rcases heapGrow_cases h (alignUpSize size memoryHeapAlignment) with
    hfail | ⟨base, s', heq, hbase, hs', -⟩
  · rw [hfail] at hgrow
    exact absurd rfl hgrow
  · rw [heq] at hless hcall hcalls
    exact ⟨base, s', heq, hbase, hs', hless, hcall, hcalls⟩

/-- The pages that `heap_grow` asks for hold the block and its header, unless the sum wraps. -/
theorem heapGrowCount_fits (h : n + heapBlockHeaderSize < 2 ^ 64) (hcount : heapGrowCount n ≠ 0) :
    heapBlockHeaderSize + n ≤ heapGrowCount n * pageSize := by
  simp only [heapGrowCount, alignUpSize, heapBlockHeaderSize, pageSize] at *
  omega

/-- No block is as long as a size that has no room for a header below 2^64. -/
theorem HeapOk.lacksBlock (hok : HeapOk heap) (h : maxPhysAddr ≤ n) : LacksBlock heap n := by
  intro b hb _
  have hbound := hok.bounded b hb
  simp only [HeapBlock.stop, heapBlockHeaderSize] at hbound
  omega

/-- When the header addition does not wrap, `kmalloc` is settled after one growth. -/
theorem kmalloc_grown (h : HeapInvariant s blocks) (hsize : size ≠ 0)
    (hwrap : alignUpSize size memoryHeapAlignment + heapBlockHeaderSize < 2 ^ 64)
    (hlacks : LacksBlock s.heap (alignUpSize size memoryHeapAlignment))
    (hpages : ¬ LacksPages s.pages.freeRanges
      (heapGrowCount (alignUpSize size memoryHeapAlignment))) :
    ∃ s', HeapInvariant s' blocks ∧ ¬ LacksBlock s'.heap (alignUpSize size memoryHeapAlignment) ∧
      kmalloc s size = kmalloc s' size ∧ kmallocCalls s size = 1 := by
  obtain ⟨base, s', hgrow, hbase, hs', -, hsame, hcalls⟩ := kmalloc_again h hsize hlacks hpages
  have hcount : heapGrowCount (alignUpSize size memoryHeapAlignment) ≠ 0 :=
    fun hzero => hpages (.inl hzero)
  have hfits := heapGrowCount_fits hwrap hcount
  obtain ⟨b, hb, hfree, hle⟩ := heapGrow_free h (n := alignUpSize size memoryHeapAlignment)
    (by rw [hgrow]; exact hbase)
  rw [hgrow] at hb
  have hfound : ¬ LacksBlock s'.heap (alignUpSize size memoryHeapAlignment) := by
    intro hlacks'
    have hlt := hlacks' b hb hfree
    omega
  refine ⟨s', hs', hfound, hsame, ?_⟩
  rw [hcalls, (kmalloc_found hs' hsize hfound).2.1]

/-- When it wraps, `kmalloc` grows the heap by a page at a time, as long as there are pages. -/
theorem kmalloc_wrapped (h : HeapInvariant s blocks)
    (hwrap : 2 ^ 64 ≤ alignUpSize size memoryHeapAlignment + heapBlockHeaderSize) :
    (kmalloc s size).1 = 0 ∧ (kmalloc s size).2.freePages ≤ s.freePages := by
  induction hfree : s.freePages using Nat.strong_induction_on generalizing s with
  | h free ih =>
      rcases eq_or_ne size 0 with rfl | hsize
      · rw [kmalloc_zero.1]
        exact ⟨rfl, hfree.le⟩
      · have hlacks : LacksBlock s.heap (alignUpSize size memoryHeapAlignment) := by
          apply h.ok.lacksBlock
          simp only [heapBlockHeaderSize, maxPhysAddr] at hwrap ⊢
          omega
        by_cases hpages : LacksPages s.pages.freeRanges
            (heapGrowCount (alignUpSize size memoryHeapAlignment))
        · rw [(kmalloc_fails h hlacks hpages).1]
          exact ⟨rfl, hfree.le⟩
        · obtain ⟨-, s', -, -, hs', hless, hsame, -⟩ := kmalloc_again h hsize hlacks hpages
          obtain ⟨hnull, hle⟩ := ih s'.freePages (hfree ▸ hless) hs' rfl
          rw [hsame]
          exact ⟨hnull, hle.trans (hfree ▸ hless.le)⟩

/-- When `kmalloc` returns `NULL`. -/
theorem kmalloc_eq_zero_iff (h : HeapInvariant s blocks) :
    (kmalloc s size).1 = 0 ↔ size = 0 ∨
      2 ^ 64 ≤ alignUpSize size memoryHeapAlignment + heapBlockHeaderSize ∨
      LacksBlock s.heap (alignUpSize size memoryHeapAlignment) ∧
        LacksPages s.pages.freeRanges
          (heapGrowCount (alignUpSize size memoryHeapAlignment)) := by
  constructor
  · intro hnull
    by_contra hne
    obtain ⟨hsize, hwrap, hboth⟩ : size ≠ 0 ∧ _ ∧ _ := by simpa only [not_or] using hne
    by_cases hlacks : LacksBlock s.heap (alignUpSize size memoryHeapAlignment)
    · obtain ⟨s', hs', hfound, hsame, -⟩ :=
        kmalloc_grown h hsize (not_le.1 hwrap) hlacks fun hpages => hboth ⟨hlacks, hpages⟩
      rw [hsame] at hnull
      exact (kmalloc_found hs' hsize hfound).2.2 hnull
    · exact (kmalloc_found h hsize hlacks).2.2 hnull
  · intro hnull
    rcases hnull with rfl | hwrap | ⟨hlacks, hpages⟩
    · rw [kmalloc_zero.1]
    · exact (kmalloc_wrapped h hwrap).1
    · rw [(kmalloc_fails h hlacks hpages).1]

/-- `kmalloc` gives a block that is long enough or changes nothing, and calls itself at most
once. -/
structure KmallocSound (s : HeapState) (size : Nat) : Prop where
  outcome :
    ((kmalloc s size).1 ≠ 0 ∧ ∃ b ∈ (kmalloc s size).2.heap, b.data = (kmalloc s size).1 ∧
      b.free = false ∧ size ≤ b.size) ∨
    ((kmalloc s size).1 = 0 ∧ (kmalloc s size).2.heap = s.heap ∧
      freeAddresses (kmalloc s size).2.pages.freeRanges = freeAddresses s.pages.freeRanges)
  once : kmallocCalls s size ≤ 1

/-- No rounding and no addition gives something smaller than what goes in. -/
structure SizesExact (size : Nat) : Prop where
  aligned : size ≤ alignUpSize size memoryHeapAlignment
  header : alignUpSize size memoryHeapAlignment ≤
    (heapBlockHeaderSize + alignUpSize size memoryHeapAlignment) % 2 ^ 64
  pages : (heapBlockHeaderSize + alignUpSize size memoryHeapAlignment) % 2 ^ 64 ≤
    alignUpSize ((heapBlockHeaderSize + alignUpSize size memoryHeapAlignment) % 2 ^ 64) pageSize

theorem sizesExact_iff (h : size < 2 ^ 64) : SizesExact size ↔ size ≤ 2 ^ 64 - 4128 := by
  constructor
  · intro ⟨haligned, hheader, hpages⟩
    simp only [alignUpSize, heapBlockHeaderSize, memoryHeapAlignment, pageSize] at *
    omega
  · intro hle
    constructor <;>
    · simp only [alignUpSize, heapBlockHeaderSize, memoryHeapAlignment, pageSize]
      omega

theorem KmallocSound.of_unchanged (h : kmalloc s size = (0, s)) (hcalls : kmallocCalls s size ≤ 1) :
    KmallocSound s size := by
  constructor
  · right
    rw [h]
    exact ⟨rfl, rfl, rfl⟩
  · exact hcalls

/-- The rounding to 16 bytes does not wrap, and the block is long enough. -/
theorem KmallocSound.of_found (h : HeapInvariant s' blocks) (hsize : size ≠ 0)
    (hle : size ≤ 2 ^ 64 - 32)
    (hfound : ¬ LacksBlock s'.heap (alignUpSize size memoryHeapAlignment))
    (hsame : kmalloc s size = kmalloc s' size) (hcalls : kmallocCalls s size ≤ 1) :
    KmallocSound s size := by
  obtain ⟨hcall, -, hnonnull⟩ := kmalloc_found h hsize hfound
  obtain ⟨-, -, c, hc, hptr, -, -, -, hused, hlong⟩ := heapAllocFromList_found hfound
  have haligned : size ≤ alignUpSize size memoryHeapAlignment := by
    simp only [alignUpSize, memoryHeapAlignment]
    omega
  constructor
  · left
    rw [hsame]
    refine ⟨hnonnull, ?_⟩
    rw [hcall]
    exact ⟨c, hc, hptr.symm, hused, haligned.trans hlong⟩
  · exact hcalls

theorem kmalloc_sound (h : HeapInvariant s blocks) (hle : size ≤ 2 ^ 64 - 32) :
    KmallocSound s size := by
  rcases eq_or_ne size 0 with rfl | hsize
  · exact .of_unchanged kmalloc_zero.1 (by rw [kmalloc_zero.2]; exact Nat.zero_le _)
  · by_cases hlacks : LacksBlock s.heap (alignUpSize size memoryHeapAlignment)
    · by_cases hpages : LacksPages s.pages.freeRanges
          (heapGrowCount (alignUpSize size memoryHeapAlignment))
      · obtain ⟨hcall, hcalls⟩ := kmalloc_fails h hlacks hpages
        exact .of_unchanged hcall (by rw [hcalls]; exact Nat.zero_le _)
      · have hwrap : alignUpSize size memoryHeapAlignment + heapBlockHeaderSize < 2 ^ 64 := by
          simp only [alignUpSize, memoryHeapAlignment, heapBlockHeaderSize]
          omega
        obtain ⟨s', hs', hfound, hsame, hcalls⟩ := kmalloc_grown h hsize hwrap hlacks hpages
        exact .of_found hs' hsize hle hfound hsame hcalls.le
    · have hcalls := (kmalloc_found h hsize hlacks).2.1
      exact .of_found h hsize hle hlacks rfl (by rw [hcalls]; exact Nat.zero_le _)

theorem lacksPages_one_iff (h : TableOk ranges) : LacksPages ranges 1 ↔ ranges = [] := by
  constructor
  · intro hlacks
    apply List.eq_nil_iff_forall_not_mem.2
    intro r hr
    have hpos := (h.ranges_ok r hr).pages
    rcases hlacks with hone | hlacks
    · exact absurd hone one_ne_zero
    · have hlt := hlacks r hr
      omega
  · intro hnil
    rw [hnil]
    exact .inr (by simp)

theorem lacksBlock_zero_iff : LacksBlock heap 0 ↔ ∀ b ∈ heap, b.free = false := by
  simp [LacksBlock]

/-- Above 2^64 - 32 the sum or the rounding wraps, and all is well only when there is nothing to
give. -/
theorem kmalloc_sound_large (h : HeapInvariant s blocks) (hlarge : 2 ^ 64 - 32 < size)
    (hlt : size < 2 ^ 64) :
    KmallocSound s size ↔ s.pages.freeRanges = [] ∧
      (size ≤ 2 ^ 64 - 16 ∨ ∀ b ∈ s.heap, b.free = false) := by
  have hkept := (kmalloc_spec h size).1
  -- no block below 4 GiB is long enough
  have hnull : KmallocSound s size → (kmalloc s size).1 = 0 := by
    intro hsound
    rcases hsound.outcome with ⟨-, b, hb, -, -, hle⟩ | ⟨hnull, -⟩
    · have hbound := hkept.ok.bounded b hb
      simp only [HeapBlock.stop, heapBlockHeaderSize, maxPhysAddr] at hbound
      omega
    · exact hnull
  have hsize : size ≠ 0 := by omega
  rcases le_or_gt size (2 ^ 64 - 16) with hle | hgt
  · have haligned : alignUpSize size memoryHeapAlignment = 2 ^ 64 - 16 := by
      simp only [alignUpSize, memoryHeapAlignment]
      omega
    have hcount : heapGrowCount (alignUpSize size memoryHeapAlignment) = 1 := by
      rw [haligned]
      decide
    have hlacks : LacksBlock s.heap (alignUpSize size memoryHeapAlignment) := by
      apply h.ok.lacksBlock
      rw [haligned]
      decide
    have hpages := lacksPages_one_iff h.pages.table
    rw [← hcount] at hpages
    rw [or_iff_left_of_imp (fun _ => hle), and_iff_left hle, ← hpages]
    constructor
    · intro hsound
      by_contra hsome
      obtain ⟨-, s', -, -, hs', hless, hsame, -⟩ := kmalloc_again h hsize hlacks hsome
      have hwrapped : (kmalloc s' size).1 = 0 ∧ (kmalloc s' size).2.freePages ≤ s'.freePages :=
        kmalloc_wrapped hs' (by rw [haligned]; decide)
      rcases hsound.outcome with ⟨hnonnull, -⟩ | ⟨-, -, haddresses⟩
      · exact hnonnull (hnull hsound)
      · have hsame' := hkept.pages.table.eq_of_addresses h.pages.table haddresses
        have hfree : (kmalloc s size).2.freePages = s.freePages := by
          rw [HeapState.freePages, hsame', HeapState.freePages]
        rw [hsame] at hfree
        omega
    · intro hnone
      obtain ⟨hcall, hcalls⟩ := kmalloc_fails h hlacks hnone
      exact .of_unchanged hcall (by rw [hcalls]; exact Nat.zero_le _)
  · have haligned : alignUpSize size memoryHeapAlignment = 0 := by
      simp only [alignUpSize, memoryHeapAlignment]
      omega
    have hcount : heapGrowCount (alignUpSize size memoryHeapAlignment) = 1 := by
      rw [haligned]
      decide
    have hblocks : LacksBlock s.heap 0 ↔ ∀ b ∈ s.heap, b.free = false := lacksBlock_zero_iff
    have hpages := lacksPages_one_iff h.pages.table
    rw [← haligned] at hblocks
    rw [← hcount] at hpages
    rw [or_iff_right (not_le.2 hgt), ← hpages, ← hblocks]
    constructor
    · intro hsound
      rcases (kmalloc_eq_zero_iff h).1 (hnull hsound) with hzero | hwrap | ⟨hlacks, hnone⟩
      · exact absurd hzero hsize
      · rw [haligned] at hwrap
        exact absurd hwrap (by decide)
      · exact ⟨hnone, hlacks⟩
    · intro hfail
      obtain ⟨hcall, hcalls⟩ := kmalloc_fails h hfail.2 hfail.1
      exact .of_unchanged hcall (by rw [hcalls]; exact Nat.zero_le _)

/-- In every state that the heap reaches: up to 2^64 - 4128 bytes all is well. Up to 2^64 - 32 the
rounding to whole pages may wrap, which only makes `heap_grow` fail; above, `kmalloc` is right
only when it has neither pages nor a block to give. -/
theorem kmalloc_sound_iff {image : KernelImage} {info : BootInfo} {s₀ m₀ : State}
    {calls : List HeapCall} {x : HeapRun} (hmap : DisjointConventional info.memoryMap.entries)
    (hinit : memoryInit image (some info) s₀ = (true, m₀))
    (hrun : Runs HeapStep (.initial m₀) calls x) (hsize : size < 2 ^ 64) :
    (KmallocSound x.state size ∧ SizesExact size ↔ size ≤ 2 ^ 64 - 4128) ∧
      (KmallocSound x.state size ↔ size ≤ 2 ^ 64 - 32 ∨
        x.state.pages.freeRanges = [] ∧
          (size ≤ 2 ^ 64 - 16 ∨ ∀ b ∈ x.state.heap, b.free = false)) := by
  have hstart := HeapRun.initial_ok (memoryInit_initialised hmap hinit).invariant
  have hok := (hrun.invariant (fun _ _ _ hx hstep => hstep.ok hx) hstart).heap
  constructor
  · rw [sizesExact_iff hsize]
    constructor
    · exact And.right
    · intro hle
      exact ⟨kmalloc_sound hok (by omega), hle⟩
  · rcases le_or_gt size (2 ^ 64 - 32) with hle | hgt
    · exact ⟨fun _ => .inl hle, fun _ => kmalloc_sound hok hle⟩
    · rw [or_iff_right (not_le.2 hgt)]
      exact kmalloc_sound_large hok hgt hsize

theorem sampleMap_kmalloc_sound :
    KmallocSound (HeapRun.initial (sampleState sampleMap)).state 100 ∧ SizesExact 100 :=
  (kmalloc_sound_iff sampleMap_disjoint sampleMap_init (.nil _) (by decide)).1.2 (by decide)

/-- A request for 2^64 - 1 bytes is rounded to none, and the heap has a page to give. -/
theorem sampleMap_kmalloc_unsound :
    Runs HeapStep (.initial (sampleState sampleMap)) []
        (HeapRun.initial (sampleState sampleMap)) ∧
      ¬ KmallocSound (HeapRun.initial (sampleState sampleMap)).state (2 ^ 64 - 1) := by
  refine ⟨.nil _, fun hsound => ?_⟩
  have hok := (HeapRun.initial_ok
    (memoryInit_initialised sampleMap_disjoint sampleMap_init).invariant).heap
  have hfree := ((kmalloc_sound_large hok (by decide) (by decide)).1 hsound).1
  exact absurd hfree (by decide +kernel)

end FunnyOS.Memory
