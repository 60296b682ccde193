import FunnyOS.Memory.Heap
import FunnyOS.Memory.Blocks
import FunnyOS.Lib.Tiles

/-!
# The blocks of the heap

Calls of `kmalloc` and `kfree` in any order, between calls of the page allocator for other
blocks. The blocks of the heap cut the pages that `heap_grow` has obtained into pieces; `kmalloc`
and `kfree` only cut and join, so that no byte is lost, and no two free blocks are left that
touch.
-/

namespace FunnyOS.Memory

variable {s s' : HeapState} {heap heap' rest : List HeapBlock} {a b block : HeapBlock}
  {blocks : List FreePageRange} {ptr n : Nat}

/-- Where a block ends. -/
def HeapBlock.stop (b : HeapBlock) : Nat := b.addr + heapBlockHeaderSize + b.size

/-- The bytes of a block, with its header. -/
def HeapBlock.addresses (b : HeapBlock) : Set Nat := Set.Ico b.addr b.stop

/-- The bytes of a block after its header. -/
def HeapBlock.payload (b : HeapBlock) : Set Nat := Set.Ico b.data (b.data + b.size)

/-- The bytes of the headers and of what follows them. -/
def heapBytes (heap : List HeapBlock) : Nat := (heap.map fun b => heapBlockHeaderSize + b.size).sum

/-- The pointers to the blocks that are not free. -/
def usedPointers (heap : List HeapBlock) : List Nat :=
  (heap.filter fun b => !b.free).map HeapBlock.data

/-- No block that is free ends where another begins that is free. -/
def Merged (heap : List HeapBlock) : Prop :=
  heap.Pairwise fun a b => a.free = true → b.free = true → a.stop ≠ b.addr

/-- Blocks in order below the end of the memory the kernel uses. -/
structure HeapOk (heap : List HeapBlock) : Prop where
  tiled : Tiled HeapBlock.addr HeapBlock.stop heap
  bounded : ∀ b ∈ heap, b.stop ≤ maxPhysAddr

/-- The same bytes, cut in another way. -/
structure Recut (heap heap' : List HeapBlock) : Prop where
  ok : HeapOk heap'
  addresses : covered HeapBlock.addr HeapBlock.stop heap' =
    covered HeapBlock.addr HeapBlock.stop heap
  bytes : heapBytes heap' = heapBytes heap

theorem HeapBlock.addr_lt_stop (b : HeapBlock) : b.addr < b.stop := by
  simp only [HeapBlock.stop, heapBlockHeaderSize]
  omega

theorem HeapBlock.data_eq (h : b.stop ≤ maxPhysAddr) : b.data = b.addr + heapBlockHeaderSize := by
  simp only [HeapBlock.stop, HeapBlock.data, heapBlockHeaderSize, maxPhysAddr] at *
  omega

theorem HeapBlock.blockEnd_eq (h : b.stop ≤ maxPhysAddr) : b.blockEnd = b.stop := by
  simp only [HeapBlock.blockEnd, HeapBlock.data_eq h]
  simp only [HeapBlock.stop, heapBlockHeaderSize, maxPhysAddr] at *
  omega

@[simp] theorem heapBytes_nil : heapBytes [] = 0 := rfl

@[simp] theorem heapBytes_cons :
    heapBytes (b :: heap) = heapBlockHeaderSize + b.size + heapBytes heap := by
  simp [heapBytes]

@[simp] theorem heapBytes_append : heapBytes (heap ++ heap') = heapBytes heap + heapBytes heap' := by
  simp [heapBytes]

@[simp] theorem usedPointers_nil : usedPointers [] = [] := rfl

@[simp] theorem usedPointers_append :
    usedPointers (heap ++ heap') = usedPointers heap ++ usedPointers heap' := by
  simp [usedPointers]

theorem usedPointers_cons_free (h : b.free = true) : usedPointers (b :: heap) = usedPointers heap := by
  simp [usedPointers, h]

theorem usedPointers_cons_used (h : b.free = false) :
    usedPointers (b :: heap) = b.data :: usedPointers heap := by
  simp [usedPointers, h]

namespace HeapOk

theorem nil : HeapOk [] := ⟨.nil, by simp⟩

theorem tail (h : HeapOk (b :: heap)) : HeapOk heap :=
  ⟨(Tiled.cons_iff.1 h.tiled).2.2, fun c hc => h.bounded c (by simp [hc])⟩

end HeapOk

namespace Recut

theorem refl (h : HeapOk heap) : Recut heap heap := ⟨h, rfl, rfl⟩

theorem trans {heap'' : List HeapBlock} (h : Recut heap heap') (h' : Recut heap' heap'') :
    Recut heap heap'' :=
  ⟨h'.ok, h'.addresses.trans h.addresses, h'.bytes.trans h.bytes⟩

theorem cons (hok : HeapOk (b :: heap)) (h : Recut heap heap') :
    Recut (b :: heap) (b :: heap') := by
  constructor
  · constructor
    · exact hok.tiled.cons_of_covered h.ok.tiled h.addresses
    · intro c hc
      rcases List.mem_cons.1 hc with rfl | hc
      · exact hok.bounded c (by simp)
      · exact h.ok.bounded c hc
  · rw [covered_cons, covered_cons, h.addresses]
  · rw [heapBytes_cons, heapBytes_cons, h.bytes]

theorem append {before : List HeapBlock} (hok : HeapOk (before ++ heap)) (h : Recut heap heap') :
    Recut (before ++ heap) (before ++ heap') := by
  induction before with
  | nil => exact h
  | cons c before ih => exact cons hok (ih hok.tail)

/-- Two blocks that touch, made one. -/
theorem join {c : HeapBlock} (hok : HeapOk (a :: b :: heap)) (htouch : a.stop = b.addr)
    (haddr : c.addr = a.addr) (hsize : c.size = a.size + (heapBlockHeaderSize + b.size)) :
    Recut (a :: b :: heap) (c :: heap) := by
  have hstop : c.stop = b.stop := by
    simp only [HeapBlock.stop] at *
    omega
  obtain ⟨htiled, hcov⟩ := hok.tiled.join htouch haddr hstop
  constructor
  · constructor
    · exact htiled
    · intro d hd
      rcases List.mem_cons.1 hd with rfl | hd
      · rw [hstop]
        exact hok.bounded b (by simp)
      · exact hok.bounded d (by simp [hd])
  · exact hcov
  · simp only [heapBytes_cons, hsize]
    omega

/-- A block cut in two. -/
theorem split {c : HeapBlock} (hok : HeapOk (c :: heap)) (htouch : a.stop = b.addr)
    (haddr : a.addr = c.addr) (hsize : c.size = a.size + (heapBlockHeaderSize + b.size)) :
    Recut (c :: heap) (a :: b :: heap) := by
  have hstop : b.stop = c.stop := by
    simp only [HeapBlock.stop] at *
    omega
  obtain ⟨htiled, hcov⟩ :=
    hok.tiled.split htouch haddr hstop a.addr_lt_stop b.addr_lt_stop
  constructor
  · constructor
    · exact htiled
    · have hc := hok.bounded c (by simp)
      intro d hd
      rcases List.mem_cons.1 hd with rfl | hd
      · exact htouch.le.trans (b.addr_lt_stop.le.trans (hstop.le.trans hc))
      · rcases List.mem_cons.1 hd with rfl | hd
        · exact hstop.le.trans hc
        · exact hok.bounded d (by simp [hd])
  · exact hcov
  · simp only [heapBytes_cons, hsize]
    omega

/-- A block marked free or not free. -/
theorem mark (hok : HeapOk (b :: heap)) (haddr : a.addr = b.addr) (hsize : a.size = b.size) :
    Recut (b :: heap) (a :: heap) := by
  have hstop : a.stop = b.stop := by
    simp only [HeapBlock.stop, haddr, hsize]
  obtain ⟨-, hle, hl⟩ := Tiled.cons_iff.1 hok.tiled
  constructor
  · constructor
    · apply Tiled.cons_iff.2
      rw [hstop]
      exact ⟨hstop ▸ a.addr_lt_stop, hle, hl⟩
    · intro d hd
      rcases List.mem_cons.1 hd with rfl | hd
      · exact hstop.le.trans (hok.bounded b (by simp))
      · exact hok.bounded d (by simp [hd])
  · rw [covered_cons, covered_cons, haddr, hstop]
  · rw [heapBytes_cons, heapBytes_cons, hsize]

end Recut

/-- `block` joined with the free block after it, as `heap_merge_adjacent` writes it. -/
theorem Recut.merge (hok : HeapOk (a :: b :: heap)) (htouch : a.blockEnd = b.addr) :
    Recut (a :: b :: heap) ({ a with
      size := (a.size + (heapBlockHeaderSize + b.size) % 2 ^ 64) % 2 ^ 64 } :: heap) := by
  have ha := hok.bounded a (by simp)
  have hb := hok.bounded b (by simp)
  rw [HeapBlock.blockEnd_eq ha] at htouch
  have hlt : a.size + (heapBlockHeaderSize + b.size) < 2 ^ 64 := by
    simp only [HeapBlock.stop, heapBlockHeaderSize, maxPhysAddr] at *
    omega
  have hsize : (a.size + (heapBlockHeaderSize + b.size) % 2 ^ 64) % 2 ^ 64 =
      a.size + (heapBlockHeaderSize + b.size) := by
    rw [Nat.add_mod_mod, Nat.mod_eq_of_lt hlt]
  rw [hsize]
  exact Recut.join hok htouch rfl rfl

/-- The loop of `heap_merge_adjacent` only joins blocks. -/
theorem heapMergeFrom_recut (hok : HeapOk (block :: rest)) :
    Recut (block :: rest) (heapMergeFrom block rest) := by
  induction rest generalizing block with
  | nil => exact .refl hok
  | cons next rest ih =>
      simp only [heapMergeFrom]
      split
      · next hjoin =>
          simp only [Bool.and_eq_true, beq_iff_eq] at hjoin
          have hmerge := Recut.merge hok hjoin.2
          exact hmerge.trans (ih hmerge.ok)
      · exact .cons hok (ih hok.tail)

/-- Only free blocks are joined. -/
theorem heapMergeFrom_used :
    usedPointers (heapMergeFrom block rest) = usedPointers (block :: rest) := by
  induction rest generalizing block with
  | nil => rfl
  | cons next rest ih =>
      simp only [heapMergeFrom]
      split
      · next hjoin =>
          simp only [Bool.and_eq_true, beq_iff_eq] at hjoin
          obtain ⟨⟨hfree, hnext⟩, -⟩ := hjoin
          rw [ih, usedPointers_cons_free (by exact hfree), usedPointers_cons_free hfree,
            usedPointers_cons_free hnext]
      · cases hfree : block.free with
        | true => rw [usedPointers_cons_free hfree, usedPointers_cons_free hfree, ih]
        | false => rw [usedPointers_cons_used hfree, usedPointers_cons_used hfree, ih]

/-- The first block stays where it is. -/
theorem heapMergeFrom_head (block : HeapBlock) (rest : List HeapBlock) : ∃ first after, heapMergeFrom block rest = first :: after ∧
    first.addr = block.addr ∧ first.free = block.free := by
  induction rest generalizing block with
  | nil => exact ⟨block, [], rfl, rfl, rfl⟩
  | cons next rest ih =>
      simp only [heapMergeFrom]
      split
      · exact ih _
      · exact ⟨block, _, rfl, rfl, rfl⟩

/-- The loop of `heap_merge_adjacent` leaves nothing to join. -/
theorem heapMergeFrom_merged (hok : HeapOk (block :: rest)) : Merged (heapMergeFrom block rest) := by
  induction rest generalizing block with
  | nil => exact List.pairwise_singleton _ _
  | cons next rest ih =>
      simp only [heapMergeFrom]
      split
      · next hjoin =>
          simp only [Bool.and_eq_true, beq_iff_eq] at hjoin
          exact ih (Recut.merge hok hjoin.2).ok
      · next hjoin =>
          apply List.pairwise_cons.2
          refine ⟨?_, ih hok.tail⟩
          intro c hc hfree hcfree htouch
          obtain ⟨first, after, heq, haddr, hfirst⟩ :=
            heapMergeFrom_head next rest
          have hnext : block.stop ≤ next.addr := (Tiled.cons_iff.1 hok.tiled).2.1 next (by simp)
          have hsorted := (heapMergeFrom_recut hok.tail).ok.tiled.sorted
          rw [heq] at hc hsorted
          rcases List.mem_cons.1 hc with rfl | hc
          · -- the block after it is still the one it was not joined with
            apply hjoin
            rw [HeapBlock.blockEnd_eq (hok.bounded block (by simp)), htouch, haddr, ← hfirst,
              hfree, hcfree]
            simp
          · have hlt := (List.pairwise_cons.1 hsorted).1 c hc
            omega

theorem heapMergeAdjacent_recut (hok : HeapOk heap) : Recut heap (heapMergeAdjacent heap) := by
  cases heap with
  | nil => exact .refl hok
  | cons block rest => exact heapMergeFrom_recut hok

theorem heapMergeAdjacent_used : usedPointers (heapMergeAdjacent heap) = usedPointers heap := by
  cases heap with
  | nil => rfl
  | cons block rest => exact heapMergeFrom_used

theorem heapMergeAdjacent_merged (hok : HeapOk heap) : Merged (heapMergeAdjacent heap) := by
  cases heap with
  | nil => exact .nil
  | cons block rest => exact heapMergeFrom_merged hok

/-- A block that was free, given out: cut off the front of it or whole. -/
structure Allocated (heap : List HeapBlock) (ptr : Nat) (heap' : List HeapBlock) : Prop where
  recut : Recut heap heap'
  nonnull : ptr ≠ 0
  used : (usedPointers heap').Perm (ptr :: usedPointers heap)
  merged : Merged heap'
  within : ∀ c ∈ heap', c.free = true → ∃ d ∈ heap, d.free = true ∧ d.addr ≤ c.addr

/-- A block before the one given out. -/
theorem Allocated.cons (hok : HeapOk (b :: heap)) (hm : Merged (b :: heap))
    (h : Allocated heap ptr heap') : Allocated (b :: heap) ptr (b :: heap') := by
  constructor
  · exact h.recut.cons hok
  · exact h.nonnull
  · cases hfree : b.free with
    | true =>
        rw [usedPointers_cons_free hfree, usedPointers_cons_free hfree]
        exact h.used
    | false =>
        rw [usedPointers_cons_used hfree, usedPointers_cons_used hfree]
        exact (h.used.cons _).trans (.swap _ _ _)
  · apply List.pairwise_cons.2
    refine ⟨?_, h.merged⟩
    intro c hc hfree hcfree htouch
    obtain ⟨d, hd, hdfree, hdc⟩ := h.within c hc hcfree
    have hle : b.stop ≤ d.addr := (Tiled.cons_iff.1 hok.tiled).2.1 d hd
    have hne := (List.pairwise_cons.1 hm).1 d hd hfree hdfree
    omega
  · intro c hc hfree
    rcases List.mem_cons.1 hc with rfl | hc
    · exact ⟨c, by simp, hfree, le_rfl⟩
    · obtain ⟨d, hd, hd'⟩ := h.within c hc hfree
      exact ⟨d, by simp [hd], hd'⟩

theorem HeapBlock.data_ne_zero (h : b.stop ≤ maxPhysAddr) : b.data ≠ 0 := by
  rw [HeapBlock.data_eq h]
  simp only [heapBlockHeaderSize]
  omega

/-- The whole block given out. -/
theorem Allocated.whole (hok : HeapOk (b :: heap)) (hm : Merged (b :: heap)) (hfree : b.free = true) :
    Allocated (b :: heap) b.data ({ b with free := false } :: heap) := by
  constructor
  · exact .mark hok rfl rfl
  · exact HeapBlock.data_ne_zero (hok.bounded b (by simp))
  · rw [usedPointers_cons_used rfl, usedPointers_cons_free hfree]
    rfl
  · apply List.pairwise_cons.2
    refine ⟨?_, (List.pairwise_cons.1 hm).2⟩
    intro c hc hused
    exact absurd hused (by simp)
  · intro c hc hcfree
    rcases List.mem_cons.1 hc with rfl | hc
    · exact absurd hcfree (by simp)
    · exact ⟨c, by simp [hc], hcfree, le_rfl⟩

/-- The front of the block given out; the rest stays free. -/
theorem Allocated.front {c : HeapBlock} (hok : HeapOk (c :: heap)) (hm : Merged (c :: heap))
    (hfree : c.free = true) (htouch : a.stop = b.addr) (haddr : a.addr = c.addr)
    (hsize : c.size = a.size + (heapBlockHeaderSize + b.size)) (ha : a.free = false)
    (hb : b.free = true) : Allocated (c :: heap) c.data (a :: b :: heap) := by
  have hstop : b.stop = c.stop := by
    simp only [HeapBlock.stop] at *
    omega
  have hle : c.addr ≤ b.addr := by
    rw [← haddr, ← htouch]
    exact a.addr_lt_stop.le
  constructor
  · exact .split hok htouch haddr hsize
  · exact HeapBlock.data_ne_zero (hok.bounded c (by simp))
  · rw [usedPointers_cons_used ha, usedPointers_cons_free hb, usedPointers_cons_free hfree,
      HeapBlock.data, haddr]
    rfl
  · obtain ⟨hfirst, hrest⟩ := List.pairwise_cons.1 hm
    apply List.pairwise_cons.2
    constructor
    · intro d hd hused
      exact absurd (ha.symm.trans hused) (by simp)
    · apply List.pairwise_cons.2
      refine ⟨?_, hrest⟩
      intro d hd _ hdfree
      rw [hstop]
      exact hfirst d hd hfree hdfree
  · intro d hd hdfree
    rcases List.mem_cons.1 hd with rfl | hd
    · exact absurd (ha.symm.trans hdfree) (by simp)
    · rcases List.mem_cons.1 hd with rfl | hd
      · exact ⟨c, by simp, hfree, hle⟩
      · exact ⟨d, by simp [hd], hdfree, le_rfl⟩

/-- `heap_alloc_from_list`: nothing, or a free block is given out. -/
theorem heapAllocFromList_cases (hok : HeapOk heap) (hm : Merged heap) :
    heapAllocFromList n heap = (0, heap) ∨
    ∃ ptr heap', heapAllocFromList n heap = (ptr, heap') ∧ Allocated heap ptr heap' := by
  induction heap with
  | nil =>
      left
      rfl
  | cons block rest ih =>
      simp only [heapAllocFromList]
      split
      · next hfits =>
          right
          simp only [Bool.and_eq_true, decide_eq_true_eq] at hfits
          obtain ⟨hfree, hle⟩ := hfits
          split
          · next hroom =>
              refine ⟨_, _, rfl, ?_⟩
              have hstop := hok.bounded block (by simp)
              have hdata := HeapBlock.data_eq hstop
              -- nothing wraps: the size asked for is no longer than a block below 4 GiB
              simp only [HeapBlock.stop, heapBlockHeaderSize, memoryHeapAlignment, maxPhysAddr]
                at hstop hroom hdata
              have haddr : (block.data + n) % 2 ^ 64 = block.addr + 24 + n := by
                rw [hdata]
                omega
              have hsize : sub64 (sub64 block.size n) heapBlockHeaderSize =
                  block.size - n - 24 := by
                simp only [sub64, heapBlockHeaderSize]
                omega
              rw [haddr, hsize]
              apply Allocated.front hok hm hfree
              · simp only [HeapBlock.stop, heapBlockHeaderSize]
              · rfl
              · simp only [heapBlockHeaderSize]
                omega
              · rfl
              · rfl
          · exact ⟨_, _, rfl, .whole hok hm hfree⟩
      · rcases ih hok.tail (List.pairwise_cons.1 hm).2 with hnone | ⟨ptr, heap', hsome, halloc⟩
        · left
          rw [hnone]
        · right
          rw [hsome]
          exact ⟨ptr, block :: heap', rfl, halloc.cons hok hm⟩

/-- The block at an address marked free. -/
theorem setFree_eq {before after : List HeapBlock} (hok : HeapOk (before ++ b :: after)) :
    setFree b.addr (before ++ b :: after) = before ++ { b with free := true } :: after := by
  have hsorted := hok.tiled.sorted
  obtain ⟨-, hlater, hbefore⟩ := List.pairwise_append.1 hsorted
  have hsame : ∀ l : List HeapBlock, (∀ c ∈ l, c.addr ≠ b.addr) →
      l.map (fun c => if c.addr = b.addr then { c with free := true } else c) = l := by
    intro l hne
    conv_rhs => rw [← List.map_id l]
    apply List.map_congr_left
    intro c hc
    exact if_neg (hne c hc)
  rw [setFree, List.map_append, List.map_cons, if_pos rfl, hsame before, hsame after]
  · intro c hc
    exact ((List.pairwise_cons.1 hlater).1 c hc).ne'
  · intro c hc
    exact (hbefore c hc b (by simp)).ne

/-- `heap_free_to_list` for a block that is not free. -/
theorem heapFreeToList_spec (hok : HeapOk heap) (hptr : ptr ∈ usedPointers heap) :
    Recut heap (heapFreeToList heap ptr) ∧ Merged (heapFreeToList heap ptr) ∧
      (usedPointers heap).Perm (ptr :: usedPointers (heapFreeToList heap ptr)) := by
  obtain ⟨b, hb, rfl⟩ := List.mem_map.1 hptr
  obtain ⟨hmem, hused⟩ := List.mem_filter.1 hb
  have hused : b.free = false := by simpa using hused
  have hstop := hok.bounded b hmem
  have haddr : sub64 b.data heapBlockHeaderSize = b.addr := by
    rw [HeapBlock.data_eq hstop]
    simp only [HeapBlock.stop, sub64, heapBlockHeaderSize, maxPhysAddr] at *
    omega
  obtain ⟨before, after, rfl⟩ := List.append_of_mem hmem
  have hmark : Recut (before ++ b :: after) (before ++ { b with free := true } :: after) := by
    apply Recut.append hok
    have htail : HeapOk (b :: after) :=
      ⟨(Tiled.append_iff.1 hok.tiled).2.1, fun c hc => hok.bounded c (by simp_all)⟩
    exact .mark htail rfl rfl
  rw [heapFreeToList, if_neg (HeapBlock.data_ne_zero hstop), haddr, setFree_eq hok]
  refine ⟨hmark.trans (heapMergeAdjacent_recut hmark.ok), heapMergeAdjacent_merged hmark.ok, ?_⟩
  rw [heapMergeAdjacent_used, usedPointers_append, usedPointers_append,
    usedPointers_cons_used hused, usedPointers_cons_free rfl]
  exact List.perm_middle

theorem heapInsertBlock_eq : heapInsertBlock block heap =
    heap.takeWhile (fun c => decide (c.addr < block.addr)) ++
      block :: heap.dropWhile (fun c => decide (c.addr < block.addr)) := by
  induction heap with
  | nil => rfl
  | cons cursor rest ih =>
      by_cases hlt : cursor.addr < block.addr
      · simp [heapInsertBlock, hlt, ih]
      · simp [heapInsertBlock, hlt]

/-- `heap_insert_block`, for a free block that meets no other. -/
theorem heapInsertBlock_spec (hok : HeapOk heap) (hbound : block.stop ≤ maxPhysAddr)
    (hdisj : Disjoint block.addresses (covered HeapBlock.addr HeapBlock.stop heap))
    (hfree : block.free = true) :
    HeapOk (heapInsertBlock block heap) ∧
      covered HeapBlock.addr HeapBlock.stop (heapInsertBlock block heap) =
        block.addresses ∪ covered HeapBlock.addr HeapBlock.stop heap ∧
      heapBytes (heapInsertBlock block heap) =
        heapBlockHeaderSize + block.size + heapBytes heap ∧
      usedPointers (heapInsertBlock block heap) = usedPointers heap := by
  rw [heapInsertBlock_eq]
  set before := heap.takeWhile (fun c => decide (c.addr < block.addr)) with hbefore
  set after := heap.dropWhile (fun c => decide (c.addr < block.addr)) with hafter
  have hsplit : before ++ after = heap := List.takeWhile_append_dropWhile
  have hlt : ∀ c ∈ before, c.addr ≤ block.addr := by
    intro c hc
    have hlt : c.addr < block.addr := by simpa using List.mem_takeWhile_imp hc
    exact hlt.le
  have hge : ∀ c ∈ after, block.addr ≤ c.addr := fun c hc => le_of_mem_dropWhile hok.tiled.sorted hc
  rw [← hsplit] at hok hdisj ⊢
  refine ⟨⟨hok.tiled.insert block.addr_lt_stop hdisj hlt hge, ?_⟩, ?_, ?_, ?_⟩
  · intro c hc
    rcases List.mem_append.1 hc with hc | hc
    · exact hok.bounded c (List.mem_append_left _ hc)
    · rcases List.mem_cons.1 hc with rfl | hc
      · exact hbound
      · exact hok.bounded c (List.mem_append_right _ hc)
  · rw [covered_append, covered_cons, covered_append, Set.union_left_comm]
    rfl
  · rw [heapBytes_append, heapBytes_cons, heapBytes_append, Nat.add_left_comm]
  · rw [usedPointers_append, usedPointers_append, usedPointers_cons_free hfree]

/-- What holds of the heap between the calls. `blocks` are the other blocks of pages that are
out. -/
structure HeapInvariant (s : HeapState) (blocks : List FreePageRange) : Prop where
  pages : Invariant (s.pages, s.grown ++ blocks)
  ok : HeapOk s.heap
  addresses : covered HeapBlock.addr HeapBlock.stop s.heap =
    Pool.out FreePageRange.addresses s.grown
  bytes : heapBytes s.heap = freePageCount s.grown * pageSize
  merged : Merged s.heap

theorem HeapInvariant.recut (h : HeapInvariant s blocks) (hcut : Recut s.heap heap)
    (hm : Merged heap) : HeapInvariant { s with heap := heap } blocks :=
  ⟨h.pages, hcut.ok, hcut.addresses.trans h.addresses, hcut.bytes.trans h.bytes, hm⟩

/-- The block that `heap_grow` makes of the pages it gets. -/
def grownBlock (base count : Nat) : HeapBlock :=
  ⟨base, sub64 (count * pageSize % 2 ^ 64) heapBlockHeaderSize, true⟩

/-- The list with that block put in, before the merge. -/
theorem heapGrow_insert {pages : State} {base count : Nat} (h : HeapInvariant s blocks)
    (halloc : allocPages s.pages count = (base, pages)) (hbase : base ≠ 0) :
    Invariant (pages, ⟨base, count⟩ :: (s.grown ++ blocks)) ∧
      heapBlockHeaderSize + (grownBlock base count).size = count * pageSize ∧
      HeapOk (heapInsertBlock (grownBlock base count) s.heap) ∧
      covered HeapBlock.addr HeapBlock.stop (heapInsertBlock (grownBlock base count) s.heap) =
        FreePageRange.addresses ⟨base, count⟩ ∪ Pool.out FreePageRange.addresses s.grown ∧
      heapBytes (heapInsertBlock (grownBlock base count) s.heap) =
        (count + freePageCount s.grown) * pageSize ∧
      usedPointers (heapInsertBlock (grownBlock base count) s.heap) = usedPointers s.heap := by
  have hstep : CallStep (s.pages, s.grown ++ blocks) (.alloc count)
      ((allocPages s.pages count).2, ⟨base, count⟩ :: (s.grown ++ blocks)) :=
    .alloc_of (by rw [halloc]) hbase
  have hpages := hstep.invariant h.pages
  have hok : FreePageRange.Ok ⟨base, count⟩ := hpages.blocks _ (by simp)
  have hpos := hok.pages
  have hbound := hok.bounded
  rw [halloc] at hpages
  set block := grownBlock base count with hblock
  have hsize : heapBlockHeaderSize + block.size = count * pageSize := by
    simp only [FreePageRange.limit, maxPhysAddr, pageSize] at hbound hpos
    simp only [hblock, grownBlock, sub64, heapBlockHeaderSize, pageSize]
    omega
  have hstop : block.stop = base + count * pageSize := by
    rw [HeapBlock.stop, Nat.add_assoc, hsize]
    rfl
  have haddresses : block.addresses = FreePageRange.addresses ⟨base, count⟩ := by
    rw [HeapBlock.addresses, hstop]
    rfl
  have hdisj : Disjoint block.addresses (covered HeapBlock.addr HeapBlock.stop s.heap) := by
    rw [haddresses, h.addresses, Set.disjoint_left]
    intro x hx hout
    obtain ⟨c, hc, hxc⟩ := hout
    have hapart := (List.pairwise_cons.1 hpages.disjointed.apart).1 c (by simp [hc])
    exact Set.disjoint_left.1 hapart hx hxc
  obtain ⟨hok', hcov, hbytes, hused⟩ :=
    heapInsertBlock_spec h.ok (hstop.le.trans hbound) hdisj rfl
  rw [h.addresses, haddresses] at hcov
  rw [hsize, h.bytes, ← Nat.add_mul] at hbytes
  exact ⟨hpages, hsize, hok', hcov, hbytes, hused⟩

/-- `heap_grow`: nothing, or whole pages become one free block, joined with what it touches. -/
theorem heapGrow_cases (h : HeapInvariant s blocks) (n : Nat) :
    heapGrow s n = (0, s) ∨
    ∃ base s', heapGrow s n = (base, s') ∧ base ≠ 0 ∧ HeapInvariant s' blocks ∧
      usedPointers s'.heap = usedPointers s.heap := by
  simp only [heapGrow]
  set count := alignUpSize ((heapBlockHeaderSize + n) % 2 ^ 64) pageSize / pageSize
  rcases allocPages_cases h.pages count with hnone | ⟨base, ranges, halloc, hbase, hpos, hgiven⟩
  · left
    rw [hnone]
    rfl
  · right
    obtain ⟨hpages, -, hok, hcov, hbytes, hused⟩ := heapGrow_insert h halloc hbase
    rw [halloc]
    simp only [if_neg hbase]
    have hmerge := heapMergeAdjacent_recut hok
    refine ⟨base, _, rfl, hbase, ⟨hpages, hmerge.ok, ?_, ?_, heapMergeAdjacent_merged hok⟩, ?_⟩
    · rw [Pool.out_cons]
      exact hmerge.addresses.trans hcov
    · rw [freePageCount_cons]
      exact hmerge.bytes.trans hbytes
    · exact heapMergeAdjacent_used.trans hused

theorem kmalloc_some {size : Nat} (hready : ¬ (!s.pages.ready || size == 0) = true)
    (heq : heapAllocFromList (alignUpSize size memoryHeapAlignment) s.heap = (ptr, heap))
    (hne : ptr ≠ 0) : kmalloc s size = (ptr, { s with heap := heap }) := by
  rw [kmalloc, if_neg hready]
  simp only [heq, if_pos hne]

theorem kmalloc_none {size : Nat} (hready : ¬ (!s.pages.ready || size == 0) = true)
    (heq : heapAllocFromList (alignUpSize size memoryHeapAlignment) s.heap = (0, s.heap)) :
    kmalloc s size =
      if (heapGrow s (alignUpSize size memoryHeapAlignment)).1 = 0 then
        (0, (heapGrow s (alignUpSize size memoryHeapAlignment)).2)
      else kmalloc (heapGrow s (alignUpSize size memoryHeapAlignment)).2 size := by
  rw [kmalloc, if_neg hready]
  simp only [heq, ne_eq, not_true_eq_false, if_false]

/-- `kmalloc` keeps the invariant and gives out at most one block. -/
theorem kmalloc_spec (h : HeapInvariant s blocks) (size : Nat) :
    HeapInvariant (kmalloc s size).2 blocks ∧
      (usedPointers (kmalloc s size).2.heap).Perm
        (if (kmalloc s size).1 = 0 then usedPointers s.heap
          else (kmalloc s size).1 :: usedPointers s.heap) := by
  -- every call of itself that `kmalloc` makes follows a call of `heap_grow` that got pages
  induction hpages : s.freePages using Nat.strong_induction_on generalizing s with
  | h free ih =>
      by_cases hready : (!s.pages.ready || size == 0) = true
      · rw [kmalloc, if_pos hready]
        exact ⟨h, by rw [if_pos rfl]⟩
      · rcases heapAllocFromList_cases h.ok h.merged with hnone | ⟨ptr, heap', hsome, halloc⟩
        · rw [kmalloc_none hready hnone]
          rcases heapGrow_cases h (alignUpSize size memoryHeapAlignment) with
            hfail | ⟨base, s', hgrow, hbase, hs', hused⟩
          · rw [hfail, if_pos rfl]
            exact ⟨h, by rw [if_pos rfl]⟩
          · have hless := heapGrow_freePages (s := s) (n := alignUpSize size memoryHeapAlignment)
            rw [hgrow] at hless ⊢
            rw [if_neg hbase, ← hused]
            exact ih s'.freePages (hpages ▸ hless hbase) hs' rfl
        · rw [kmalloc_some hready hsome halloc.nonnull, if_neg halloc.nonnull]
          exact ⟨h.recut halloc.recut halloc.merged, halloc.used⟩

/-- `kfree` of a pointer to a block that is not free. -/
theorem kfree_spec (h : HeapInvariant s blocks) (hptr : ptr ∈ usedPointers s.heap) :
    HeapInvariant (kfree s ptr) blocks ∧
      (usedPointers s.heap).Perm (ptr :: usedPointers (kfree s ptr).heap) := by
  obtain ⟨hcut, hm, hused⟩ := heapFreeToList_spec h.ok hptr
  exact ⟨h.recut hcut hm, hused⟩

/-- A call of the heap or, for a block of its own, of the page allocator. -/
inductive HeapCall
  | kmalloc (size : Nat)
  | kfree (ptr : Nat)
  | pages (call : Call)
deriving DecidableEq, Repr

/-- The heap, the pointers that `kmalloc` has returned and `kfree` has not taken back, and the
blocks of pages that others than the heap have. -/
structure HeapRun where
  state : HeapState
  live : List Nat
  blocks : List FreePageRange

/-- One call. `kfree` takes `NULL` or a live pointer. -/
inductive HeapStep : HeapRun → HeapCall → HeapRun → Prop
  | kmalloc (x : HeapRun) (size : Nat) :
      HeapStep x (.kmalloc size)
        { x with
          state := (kmalloc x.state size).2
          live := if (kmalloc x.state size).1 = 0 then x.live
            else (kmalloc x.state size).1 :: x.live }
  | kfreeNull (x : HeapRun) : HeapStep x (.kfree 0) { x with state := kfree x.state 0 }
  | kfree (x : HeapRun) (ptr : Nat) (h : ptr ∈ x.live) :
      HeapStep x (.kfree ptr) { x with state := kfree x.state ptr, live := x.live.erase ptr }
  | pages (x : HeapRun) (call : Call) (pages : State) (blocks : List FreePageRange)
      (h : CallStep (x.state.pages, x.blocks) call (pages, blocks)) :
      HeapStep x (.pages call)
        { x with state := { x.state with pages := pages }, blocks := blocks }

/-- What holds between the calls: the live pointers are those of the blocks that are not free. -/
structure HeapRun.Ok (x : HeapRun) : Prop where
  heap : HeapInvariant x.state x.blocks
  live : x.live.Perm (usedPointers x.state.heap)

theorem HeapStep.ok {x y : HeapRun} {call : HeapCall} (hx : x.Ok) (h : HeapStep x call y) :
    y.Ok := by
  cases h with
  | kmalloc size =>
      obtain ⟨hheap, hused⟩ := kmalloc_spec hx.heap size
      refine ⟨hheap, .trans ?_ hused.symm⟩
      show List.Perm (if _ then _ else _) _
      split
      · exact hx.live
      · exact hx.live.cons _
  | kfreeNull => exact hx
  | kfree ptr hptr =>
      obtain ⟨hheap, hused⟩ := kfree_spec hx.heap (hx.live.mem_iff.1 hptr)
      refine ⟨hheap, List.Perm.cons_inv (a := ptr) ?_⟩
      exact (List.perm_cons_erase hptr).symm.trans (hx.live.trans hused)
  | pages call pages blocks hstep =>
      exact ⟨⟨hstep.invariant_append hx.heap.pages, hx.heap.ok, hx.heap.addresses, hx.heap.bytes,
        hx.heap.merged⟩, hx.live⟩

/-- What is promised of the heap after every call. -/
structure HeapSound (x : HeapRun) : Prop where
  increasing : x.state.heap.Pairwise fun a b => a.addr < b.addr
  disjoint : x.state.heap.Pairwise fun a b => Disjoint a.addresses b.addresses
  within : ∀ b ∈ x.state.heap, b.addresses ⊆ Pool.out FreePageRange.addresses x.state.grown
  grown : (x.state.grown ++ x.blocks).Pairwise fun a b => Disjoint a.addresses b.addresses
  live : ∀ p ∈ x.live, ∃ b ∈ x.state.heap, b.data = p ∧ b.free = false
  live_nodup : x.live.Nodup
  payloads : ∀ a ∈ x.state.heap, ∀ b ∈ x.state.heap, a.data ∈ x.live → b.data ∈ x.live →
    a.data ≠ b.data → Disjoint a.payload b.payload
  unmerged : ∀ a ∈ x.state.heap, ∀ b ∈ x.state.heap, a.free = true → b.free = true →
    a.stop ≠ b.addr
  bytes : heapBytes x.state.heap = freePageCount x.state.grown * pageSize

/-- The start of the heap, as `memory_init` leaves it. -/
def HeapRun.initial (pages : State) : HeapRun := ⟨⟨pages, [], []⟩, [], []⟩

theorem HeapBlock.payload_subset (h : b.stop ≤ maxPhysAddr) : b.payload ⊆ b.addresses := by
  rw [HeapBlock.payload, HeapBlock.data_eq h]
  exact Set.Ico_subset_Ico_left (Nat.le_add_right _ _)

theorem HeapOk.usedPointers_nodup (h : HeapOk heap) : (usedPointers heap).Nodup := by
  have hsorted : (heap.filter fun b => !b.free).Pairwise fun a b => a.data ≠ b.data := by
    apply (h.tiled.sorted.filter _).imp_of_mem
    intro a b ha hb hlt
    rw [HeapBlock.data_eq (h.bounded a (List.mem_filter.1 ha).1),
      HeapBlock.data_eq (h.bounded b (List.mem_filter.1 hb).1)]
    exact (Nat.add_lt_add_right hlt _).ne
  exact List.pairwise_map.2 hsorted

theorem HeapOk.unmerged (hok : HeapOk heap) (hm : Merged heap) (ha : a ∈ heap) (hb : b ∈ heap)
    (hafree : a.free = true) (hbfree : b.free = true) : a.stop ≠ b.addr := by
  have hboth : heap.Pairwise fun a b => (a.free = true → b.free = true → a.stop ≠ b.addr) ∧
      (b.free = true → a.free = true → b.stop ≠ a.addr) := by
    apply (hm.and hok.tiled.sorted).imp
    intro a b ⟨hne, hlt⟩
    refine ⟨hne, fun _ _ htouch => ?_⟩
    have := b.addr_lt_stop
    omega
  have hsymm : Std.Symm fun a b : HeapBlock => (a.free = true → b.free = true → a.stop ≠ b.addr) ∧
      (b.free = true → a.free = true → b.stop ≠ a.addr) := ⟨fun _ _ h => ⟨h.2, h.1⟩⟩
  by_cases heq : a = b
  · rw [heq]
    exact b.addr_lt_stop.ne'
  · exact (hboth.forall ha hb heq).1 hafree hbfree

theorem HeapRun.Ok.sound {x : HeapRun} (hx : x.Ok) : HeapSound x := by
  obtain ⟨⟨hpages, hok, haddresses, hbytes, hm⟩, hlive⟩ := hx
  have hdisjoint : x.state.heap.Pairwise fun a b => Disjoint a.addresses b.addresses :=
    hok.tiled.disjoint
  constructor
  · exact hok.tiled.sorted
  · exact hdisjoint
  · intro b hb
    rw [← haddresses]
    exact subset_covered hb
  · exact hpages.disjointed.apart
  · intro p hp
    obtain ⟨b, hb, rfl⟩ := List.mem_map.1 (hlive.mem_iff.1 hp)
    obtain ⟨hmem, hused⟩ := List.mem_filter.1 hb
    exact ⟨b, hmem, rfl, by simpa using hused⟩
  · exact hlive.nodup_iff.2 hok.usedPointers_nodup
  · intro a ha b hb _ _ hne
    have hsymm : Std.Symm fun a b : HeapBlock => Disjoint a.addresses b.addresses :=
      ⟨fun _ _ h => h.symm⟩
    have hab : a ≠ b := fun heq => hne (by rw [heq])
    exact (hdisjoint.forall ha hb hab).mono (HeapBlock.payload_subset (hok.bounded a ha))
      (HeapBlock.payload_subset (hok.bounded b hb))
  · intro a ha b hb
    exact hok.unmerged hm ha hb
  · exact hbytes

theorem HeapRun.initial_ok {s : State} (h : Invariant (s, [])) : (HeapRun.initial s).Ok := by
  constructor
  · constructor
    · exact h
    · exact .nil
    · rw [HeapRun.initial, covered_nil, Pool.out_nil]
    · simp [HeapRun.initial]
    · exact .nil
  · exact .nil

/-- After any calls of `kmalloc` and `kfree`, and of the page allocator for other blocks, the heap
is what it should be. -/
theorem heap_of_run {image : KernelImage} {info : BootInfo} {s₀ m₀ : State} {calls : List HeapCall}
    {x : HeapRun} (hmap : DisjointConventional info.memoryMap.entries)
    (hinit : memoryInit image (some info) s₀ = (true, m₀))
    (hrun : Runs HeapStep (.initial m₀) calls x) : HeapSound x := by
  have hstart := HeapRun.initial_ok (memoryInit_initialised hmap hinit).invariant
  exact (hrun.invariant (fun _ _ _ hx hstep => hstep.ok hx) hstart).sound

/-- The first allocation in the sample map: the heap grows by a page and is cut in two. -/
theorem sampleMap_kmalloc :
    (kmalloc (HeapRun.initial (sampleState sampleMap)).state 100).1 = 0x200018 := by
  have hnone : heapAllocFromList (alignUpSize 100 memoryHeapAlignment)
      (HeapRun.initial (sampleState sampleMap)).state.heap = (0, []) := by decide
  have hgrow : (heapGrow (HeapRun.initial (sampleState sampleMap)).state
      (alignUpSize 100 memoryHeapAlignment)).1 ≠ 0 := by decide +kernel
  have hsome : (heapAllocFromList (alignUpSize 100 memoryHeapAlignment)
      (heapGrow (HeapRun.initial (sampleState sampleMap)).state
        (alignUpSize 100 memoryHeapAlignment)).2.heap).1 = 0x200018 := by decide +kernel
  have hready : ¬ (!(HeapRun.initial (sampleState sampleMap)).state.pages.ready || 100 == 0) =
      true := by decide +kernel
  have hready' : ¬ (!(heapGrow (HeapRun.initial (sampleState sampleMap)).state
      (alignUpSize 100 memoryHeapAlignment)).2.pages.ready || 100 == 0) = true := by decide +kernel
  rw [kmalloc_none hready hnone, if_neg hgrow, kmalloc_some hready' (Prod.ext hsome rfl) (by decide)]

theorem heap_of_run_sample : ∃ x,
    Runs HeapStep (.initial (sampleState sampleMap)) [.kmalloc 100, .kfree 0x200018] x ∧
      HeapSound x := by
  have hfirst := HeapStep.kmalloc (.initial (sampleState sampleMap)) 100
  rw [sampleMap_kmalloc, if_neg (by decide)] at hfirst
  have hrun := Runs.cons hfirst (.cons (.kfree _ 0x200018 List.mem_cons_self) (.nil _))
  exact ⟨_, hrun, heap_of_run sampleMap_disjoint sampleMap_init hrun⟩

end FunnyOS.Memory
