import FunnyOS.Memory.HeapSizes

/-!
# Where the blocks of the heap begin

Sizes are rounded to 16 bytes, but a header has 24, and the first block of a growth has its header
at a page boundary. So the first block that `kmalloc` gives out in a run begins 8 bytes after a
multiple of 16, and all the pointers of a run are multiples of 16 just when `kmalloc` has nothing
to give in any of its calls.
-/

namespace FunnyOS.Memory

variable {s : HeapState} {heap rest : List HeapBlock} {b c block : HeapBlock}
  {blocks : List FreePageRange} {size n : Nat} {x y : HeapRun} {call : HeapCall}

/-- Nothing of the heap has been given out: every block is free and begins with a page. -/
def Pristine (heap : List HeapBlock) : Prop := ∀ b ∈ heap, b.free = true ∧ b.addr % pageSize = 0

/-- The blocks that the merge leaves begin where blocks began. -/
theorem heapMergeFrom_mem (hc : c ∈ heapMergeFrom block rest) :
    ∃ b ∈ block :: rest, c.addr = b.addr ∧ c.free = b.free := by
  induction rest generalizing block with
  | nil => exact ⟨block, by simp, by simp_all [heapMergeFrom]⟩
  | cons next rest ih =>
      simp only [heapMergeFrom] at hc
      split at hc
      · obtain ⟨b, hb, hsame⟩ := ih hc
        rcases List.mem_cons.1 hb with rfl | hb
        · exact ⟨block, by simp, hsame⟩
        · exact ⟨b, by simp [hb], hsame⟩
      · rcases List.mem_cons.1 hc with rfl | hc
        · exact ⟨c, by simp, rfl, rfl⟩
        · obtain ⟨b, hb, hsame⟩ := ih hc
          exact ⟨b, List.mem_cons_of_mem _ hb, hsame⟩

theorem Pristine.merge (h : Pristine heap) : Pristine (heapMergeAdjacent heap) := by
  cases heap with
  | nil => exact h
  | cons block rest =>
      intro c hc
      obtain ⟨b, hb, haddr, hfree⟩ := heapMergeFrom_mem hc
      rw [haddr, hfree]
      exact h b hb

theorem Pristine.insert (h : Pristine heap) (hfree : block.free = true)
    (haddr : block.addr % pageSize = 0) : Pristine (heapInsertBlock block heap) := by
  intro c hc
  rw [heapInsertBlock_eq] at hc
  have hmem : c = block ∨ c ∈ heap := by
    rcases List.mem_append.1 hc with hc | hc
    · exact .inr ((List.takeWhile_subset _) hc)
    · rcases List.mem_cons.1 hc with rfl | hc
      · exact .inl rfl
      · exact .inr ((List.dropWhile_subset _) hc)
  rcases hmem with rfl | hmem
  · exact ⟨hfree, haddr⟩
  · exact h c hmem

/-- What `heap_grow` puts in begins with a page. -/
theorem Pristine.grow (hf : Pristine s.heap) (h : HeapInvariant s blocks) :
    Pristine (heapGrow s n).2.heap := by
  have hcount : alignUpSize ((heapBlockHeaderSize + n) % 2 ^ 64) pageSize / pageSize =
      heapGrowCount n := rfl
  simp only [heapGrow, hcount]
  rcases allocPages_cases h.pages (heapGrowCount n) with
    hnone | ⟨base, ranges, halloc, hbase, -⟩
  · rw [hnone]
    exact hf
  · obtain ⟨hpages, -⟩ := heapGrow_insert h halloc hbase
    have hok : FreePageRange.Ok ⟨base, heapGrowCount n⟩ := hpages.blocks _ (by simp)
    rw [halloc]
    simp only [if_neg hbase]
    have hinsert : Pristine (heapInsertBlock (grownBlock base (heapGrowCount n)) s.heap) :=
      hf.insert rfl hok.aligned
    exact hinsert.merge

variable (size) in
/-- `kmalloc` on such a heap: nothing is given out, or a pointer 24 bytes into a page. -/
theorem Pristine.kmalloc (hf : Pristine s.heap) (h : HeapInvariant s blocks) :
    ((kmalloc s size).1 = 0 ∧ Pristine (kmalloc s size).2.heap) ∨
      (kmalloc s size).1 % memoryHeapAlignment = 8 := by
  induction hfree : s.freePages using Nat.strong_induction_on generalizing s with
  | h free ih =>
      rcases eq_or_ne size 0 with rfl | hsize
      · left
        rw [kmalloc_zero.1]
        exact ⟨rfl, hf⟩
      · by_cases hlacks : LacksBlock s.heap (alignUpSize size memoryHeapAlignment)
        · by_cases hpages : LacksPages s.pages.freeRanges
              (heapGrowCount (alignUpSize size memoryHeapAlignment))
          · left
            rw [(kmalloc_fails h hlacks hpages).1]
            exact ⟨rfl, hf⟩
          · obtain ⟨base, s', hgrow, -, hs', hless, hsame, -⟩ :=
              kmalloc_again h hsize hlacks hpages
            have hf' := hf.grow h (n := alignUpSize size memoryHeapAlignment)
            rw [hgrow] at hf'
            rw [hsame]
            exact ih s'.freePages (hfree ▸ hless) hf' hs' rfl
        · right
          obtain ⟨b, hb, c, hc, hptr, haddr, -⟩ := heapAllocFromList_found hlacks
          have haligned := (hf b hb).2
          have hdata : c.data = b.addr + heapBlockHeaderSize := by
            rw [HeapBlock.data, haddr, ← HeapBlock.data, HeapBlock.data_eq (h.ok.bounded b hb)]
          rw [(kmalloc_found h hsize hlacks).1, hptr, hdata]
          simp only [pageSize, heapBlockHeaderSize, memoryHeapAlignment] at haligned ⊢
          omega

/-- A step in which `kmalloc`, when it is called, returns `NULL` or a multiple of 16. -/
def AlignedStep (x : HeapRun) (call : HeapCall) (y : HeapRun) : Prop :=
  HeapStep x call y ∧
    ∀ size, call = .kmalloc size → (kmalloc x.state size).1 % memoryHeapAlignment = 0

/-- A step in which `kmalloc`, when it is called, has nothing to give: it is asked for nothing, or
for so much that the sum with the header wraps, or finds neither a block nor the pages for one. -/
def EmptyHandedStep (x : HeapRun) (call : HeapCall) (y : HeapRun) : Prop :=
  HeapStep x call y ∧ ∀ size, call = .kmalloc size → size = 0 ∨
    2 ^ 64 ≤ alignUpSize size memoryHeapAlignment + heapBlockHeaderSize ∨
    LacksBlock x.state.heap (alignUpSize size memoryHeapAlignment) ∧
      LacksPages x.state.pages.freeRanges
        (heapGrowCount (alignUpSize size memoryHeapAlignment))

/-- What holds of a run as long as `kmalloc` has given nothing out. -/
structure HeapRun.Untouched (x : HeapRun) : Prop where
  ok : x.Ok
  fresh : Pristine x.state.heap

theorem HeapRun.Untouched.live (hx : x.Untouched) : x.live = [] := by
  have hnone : usedPointers x.state.heap = [] := by
    apply List.map_eq_nil_iff.2
    apply List.filter_eq_nil_iff.2
    intro b hb
    simp [(hx.fresh b hb).1]
  have hlive := hx.ok.live
  rw [hnone] at hlive
  exact hlive.eq_nil

/-- A step in which `kmalloc` gives nothing out leaves the heap untouched. -/
theorem HeapRun.Untouched.step (hx : x.Untouched) (h : HeapStep x call y)
    (hnull : ∀ size, call = .kmalloc size → (Memory.kmalloc x.state size).1 = 0) :
    y.Untouched := by
  constructor
  · exact h.ok hx.ok
  · cases h with
    | kmalloc size =>
        rcases hx.fresh.kmalloc size hx.ok.heap with ⟨-, hfresh⟩ | hptr
        · exact hfresh
        · rw [hnull size rfl] at hptr
          exact absurd hptr (by decide)
    | kfreeNull => exact hx.fresh
    | kfree ptr hptr =>
        rw [hx.live] at hptr
        simp at hptr
    | pages call pages blocks hstep => exact hx.fresh

theorem HeapRun.Untouched.null_iff (hx : x.Untouched) :
    (Memory.kmalloc x.state size).1 % memoryHeapAlignment = 0 ↔
      (Memory.kmalloc x.state size).1 = 0 := by
  constructor
  · intro haligned
    rcases hx.fresh.kmalloc size hx.ok.heap with ⟨hnull, -⟩ | hptr
    · exact hnull
    · rw [haligned] at hptr
      exact absurd hptr (by decide)
  · intro hnull
    simp [hnull]

/-- In a run every pointer that `kmalloc` returns is a multiple of 16 just when it returns none. -/
theorem aligned_of_run_iff {image : KernelImage} {info : BootInfo} {s₀ m₀ : State}
    {calls : List HeapCall} (hmap : DisjointConventional info.memoryMap.entries)
    (hinit : memoryInit image (some info) s₀ = (true, m₀)) :
    Runs AlignedStep (.initial m₀) calls y ↔ Runs EmptyHandedStep (.initial m₀) calls y := by
  have hstart : (HeapRun.initial m₀).Untouched :=
    ⟨HeapRun.initial_ok (memoryInit_initialised hmap hinit).invariant, by simp [Pristine, HeapRun.initial]⟩
  have hnull : ∀ (x : HeapRun) (call : HeapCall) (y : HeapRun), x.Untouched →
      (AlignedStep x call y ↔ EmptyHandedStep x call y) := by
    intro x call y hx
    apply and_congr_right
    intro _
    apply forall₂_congr
    intro size _
    rw [hx.null_iff, kmalloc_eq_zero_iff hx.ok.heap]
  have hkeep : ∀ (x : HeapRun) (call : HeapCall) (y : HeapRun), x.Untouched →
      AlignedStep x call y → y.Untouched := by
    intro x call y hx hstep
    exact hx.step hstep.1 fun size hcall => hx.null_iff.1 (hstep.2 size hcall)
  constructor
  · intro hrun
    exact hrun.mono_of_invariant hkeep (fun x call y hx => (hnull x call y hx).1) hstart
  · intro hrun
    exact hrun.mono_of_invariant (fun x call y hx h => hkeep x call y hx ((hnull x call y hx).2 h))
      (fun x call y hx => (hnull x call y hx).2) hstart

/-- More than the memory has. -/
theorem aligned_of_run_sample : ∃ y,
    Runs AlignedStep (.initial (sampleState sampleMap)) [.kmalloc 0x100000] y := by
  have hstep := HeapStep.kmalloc (.initial (sampleState sampleMap)) 0x100000
  refine ⟨_, (aligned_of_run_iff sampleMap_disjoint sampleMap_init).2 (.cons ⟨hstep, ?_⟩ (.nil _))⟩
  intro size hcall
  obtain rfl := HeapCall.kmalloc.inj hcall
  right
  right
  constructor
  · simp [LacksBlock, HeapRun.initial]
  · right
    decide +kernel

/-- The first allocation of a run. -/
theorem kmalloc_unaligned : ∃ y,
    Runs HeapStep (.initial (sampleState sampleMap)) [.kmalloc 100] y ∧ y.live = [0x200018] ∧
      0x200018 % memoryHeapAlignment ≠ 0 := by
  have hstep := HeapStep.kmalloc (.initial (sampleState sampleMap)) 100
  rw [sampleMap_kmalloc, if_neg (by decide)] at hstep
  exact ⟨_, .cons hstep (.nil _), rfl, by decide⟩

end FunnyOS.Memory
