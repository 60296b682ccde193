import FunnyOS.Memory.Pages

/-!
# The kernel heap

`src/kernel/memory.c`: `kmalloc` and `kfree` over one list of blocks. Every block begins with a
header, and the headers are linked in the order of their addresses; the list here holds what the
headers say, in the order of the links. When no free block is long enough, whole pages are taken
from the page allocator and put into the list, and they are never given back.
-/

namespace FunnyOS.Memory

/-- `sizeof(HeapBlock)`. -/
abbrev heapBlockHeaderSize : Nat := 24

/-- `MEMORY_HEAP_ALIGNMENT`. -/
abbrev memoryHeapAlignment : Nat := 16

/-- `HeapBlock`, with the address of the header. Its place in the list stands for `next`. -/
structure HeapBlock where
  addr : Nat
  size : Nat
  free : Bool
deriving DecidableEq, Repr

/-- `block + 1`: where the bytes after the header begin. -/
def HeapBlock.data (b : HeapBlock) : Nat := (b.addr + heapBlockHeaderSize) % 2 ^ 64

/-- `(uintptr_t)(block + 1) + block->size`. -/
def HeapBlock.blockEnd (b : HeapBlock) : Nat := (b.data + b.size) % 2 ^ 64

/-- `a - b` for two numbers of 64 bits. -/
def sub64 (a b : Nat) : Nat := (a + (2 ^ 64 - b)) % 2 ^ 64

/-- The page allocator with `g_heap_head`. `grown` is no variable of the source: it lists the
pages that `heap_grow` has obtained. -/
structure HeapState where
  pages : State
  heap : List HeapBlock
  grown : List FreePageRange
deriving DecidableEq, Repr

/-- `align_up_size`. -/
def alignUpSize (value alignment : Nat) : Nat :=
  (value + alignment - 1) % 2 ^ 64 / alignment * alignment

/-- `heap_insert_block`. -/
def heapInsertBlock (block : HeapBlock) : List HeapBlock → List HeapBlock
  | [] => [block]
  | cursor :: rest =>
      if cursor.addr < block.addr then cursor :: heapInsertBlock block rest
      else block :: cursor :: rest

/-- The loop of `heap_merge_adjacent`: `block` is where it stands, with the blocks after it. -/
def heapMergeFrom (block : HeapBlock) : List HeapBlock → List HeapBlock
  | [] => [block]
  | next :: rest =>
      if block.free && next.free && block.blockEnd == next.addr then
        heapMergeFrom
          { block with size := (block.size + (heapBlockHeaderSize + next.size) % 2 ^ 64) % 2 ^ 64 }
          rest
      else block :: heapMergeFrom next rest

/-- `heap_merge_adjacent`. -/
def heapMergeAdjacent : List HeapBlock → List HeapBlock
  | [] => []
  | block :: rest => heapMergeFrom block rest

/-- `heap_alloc_from_list`; 0 is `NULL`. -/
def heapAllocFromList (alignedSize : Nat) : List HeapBlock → Nat × List HeapBlock
  | [] => (0, [])
  | block :: rest =>
      if block.free && decide (alignedSize ≤ block.size) then
        if (alignedSize + heapBlockHeaderSize + memoryHeapAlignment) % 2 ^ 64 ≤ block.size then
          let split : HeapBlock :=
            { addr := (block.data + alignedSize) % 2 ^ 64
              size := sub64 (sub64 block.size alignedSize) heapBlockHeaderSize
              free := true }
          (block.data, { block with size := alignedSize, free := false } :: split :: rest)
        else (block.data, { block with free := false } :: rest)
      else
        let (allocation, rest') := heapAllocFromList alignedSize rest
        (allocation, block :: rest')

/-- `block->free = true` for the block at an address. -/
def setFree (addr : Nat) (heap : List HeapBlock) : List HeapBlock :=
  heap.map fun b => if b.addr = addr then { b with free := true } else b

/-- `heap_free_to_list`. -/
def heapFreeToList (heap : List HeapBlock) (ptr : Nat) : List HeapBlock :=
  if ptr = 0 then heap
  else heapMergeAdjacent (setFree (sub64 ptr heapBlockHeaderSize) heap)

/-- `heap_grow`. -/
def heapGrow (s : HeapState) (minimumSize : Nat) : Nat × HeapState :=
  let required := alignUpSize ((heapBlockHeaderSize + minimumSize) % 2 ^ 64) pageSize
  let count := required / pageSize
  let (block, pages) := allocPages s.pages count
  if block = 0 then (0, { s with pages := pages })
  else
    let grown : HeapBlock :=
      ⟨block, sub64 (count * pageSize % 2 ^ 64) heapBlockHeaderSize, true⟩
    (block, { pages := pages
              heap := heapMergeAdjacent (heapInsertBlock grown s.heap)
              grown := ⟨block, count⟩ :: s.grown })

/-- The pages in the table, which `kmalloc` has fewer of each time it calls itself. -/
def HeapState.freePages (s : HeapState) : Nat :=
  (s.pages.freeRanges.map FreePageRange.pageCount).sum

theorem allocFrom_sum {n base : Nat} {ranges ranges' : List FreePageRange} (hpos : 0 < n)
    (h : allocFrom n ranges = some (base, ranges')) :
    (ranges'.map FreePageRange.pageCount).sum < (ranges.map FreePageRange.pageCount).sum := by
  induction ranges generalizing base ranges' with
  | nil => simp [allocFrom] at h
  | cons r rest ih =>
      simp only [allocFrom] at h
      split_ifs at h with hfits hall
      · obtain ⟨-, rfl⟩ := Prod.mk.inj (Option.some.inj h)
        simp only [List.map_cons, List.sum_cons]
        omega
      · obtain ⟨-, rfl⟩ := Prod.mk.inj (Option.some.inj h)
        simp only [List.map_cons, List.sum_cons]
        omega
      · obtain ⟨⟨base', rest'⟩, hsome, hpair⟩ := Option.map_eq_some_iff.1 h
        obtain ⟨-, rfl⟩ := Prod.mk.inj hpair
        have hlt := ih hsome
        simp only [List.map_cons, List.sum_cons]
        omega

theorem allocPages_sum {s : State} {n : Nat} (h : (allocPages s n).1 ≠ 0) :
    ((allocPages s n).2.freeRanges.map FreePageRange.pageCount).sum <
      (s.freeRanges.map FreePageRange.pageCount).sum := by
  by_cases hready : !s.ready || n == 0
  · rw [allocPages, if_pos hready] at h
    exact absurd rfl h
  · have hpos : 0 < n := by
      simp only [Bool.or_eq_true, beq_iff_eq, not_or] at hready
      exact Nat.pos_of_ne_zero hready.2
    rw [allocPages, if_neg hready] at h ⊢
    cases hfrom : allocFrom n s.freeRanges with
    | none =>
        rw [hfrom] at h
        exact absurd rfl h
    | some found => exact allocFrom_sum hpos hfrom

theorem heapGrow_freePages {s : HeapState} {n : Nat} (h : (heapGrow s n).1 ≠ 0) :
    (heapGrow s n).2.freePages < s.freePages := by
  simp only [heapGrow] at h ⊢
  split at h
  · exact absurd rfl h
  · next hne =>
      rw [if_neg hne]
      exact allocPages_sum hne

/-- `kmalloc`; 0 is `NULL`. -/
def kmalloc (s : HeapState) (size : Nat) : Nat × HeapState :=
  if !s.pages.ready || size == 0 then (0, s)
  else
    let alignedSize := alignUpSize size memoryHeapAlignment
    let (allocation, heap) := heapAllocFromList alignedSize s.heap
    let s := { s with heap := heap }
    if allocation ≠ 0 then (allocation, s)
    else if (heapGrow s alignedSize).1 = 0 then (0, (heapGrow s alignedSize).2)
    else kmalloc (heapGrow s alignedSize).2 size
termination_by s.freePages
decreasing_by exact heapGrow_freePages ‹_›

/-- `kfree`. -/
def kfree (s : HeapState) (ptr : Nat) : HeapState :=
  { s with heap := heapFreeToList s.heap ptr }

end FunnyOS.Memory
