import Mathlib

/-!
# The page allocator

`src/kernel/memory.c`: the table of free page ranges that `memory_init` builds from the
firmware's memory map and that `alloc_pages` and `free_pages` edit. Addresses are numbers below
2^64, and sums of addresses wrap there.
-/

namespace FunnyOS.Memory

/-- `PAGE_SIZE`. -/
abbrev pageSize : Nat := 4096

/-- `MEMORY_MAX_FREE_RANGES`. -/
abbrev maxFreeRanges : Nat := 256

/-- `MEMORY_MAX_PHYS_ADDR`. -/
abbrev maxPhysAddr : Nat := 0x100000000

/-- `MEMORY_RESERVED_LOW_END`. -/
abbrev reservedLowEnd : Nat := 0x100000

/-- `EFI_MEMORY_TYPE_CONVENTIONAL`. -/
abbrev efiMemoryTypeConventional : UInt32 := 7

/-- `PROCESS_ABI_REGION_START`. -/
abbrev processAbiRegionStart : Nat := 0x8000000000

/-- `PROCESS_ABI_REGION_END`. -/
abbrev processAbiRegionEnd : Nat := 0x8000100000

/-- `BOOTINFO_CONSOLE_FRAMEBUFFER`. -/
abbrev bootinfoConsoleFramebuffer : UInt16 := 0x0004

/-- `sizeof(EfiMemoryDescriptor)`. -/
abbrev efiMemoryDescriptorSize : Nat := 40

/-- `EfiMemoryDescriptor`, the fields that `memory_init` reads. -/
structure EfiMemoryDescriptor where
  type : UInt32
  physicalStart : UInt64
  numberOfPages : UInt64
deriving DecidableEq, Repr

/-- `BootMemoryMap`. `descriptors` is what memory holds: the descriptor at each address. -/
structure BootMemoryMap where
  base : Nat
  size : Nat
  descriptorSize : Nat
  descriptors : Nat → EfiMemoryDescriptor

/-- `BootInfo`, the fields that `memory_init` reads. -/
structure BootInfo where
  memoryMap : BootMemoryMap
  consoleFlags : UInt16
  framebufferBase : UInt64
  framebufferPixelsPerScanline : UInt32
  framebufferHeight : UInt32

/-- `_start` and `__kernel_image_end`, which the linker sets. -/
structure KernelImage where
  start : UInt64
  imageEnd : UInt64

/-- `FreePageRange`. -/
structure FreePageRange where
  base : Nat
  pageCount : Nat
deriving DecidableEq, Repr

/-- `base + page_count * PAGE_SIZE`, as the code computes it. -/
def rangeEnd (base pageCount : Nat) : Nat := (base + pageCount * pageSize) % 2 ^ 64

/-- `g_free_ranges` up to `g_free_range_count`, `g_total_pages` and `g_memory_ready`. -/
structure State where
  freeRanges : List FreePageRange
  totalPages : Nat
  ready : Bool
deriving DecidableEq, Repr

/-- `align_up_uintptr`. -/
def alignUpUintptr (value alignment : Nat) : Nat :=
  (value + alignment - 1) % 2 ^ 64 / alignment * alignment

/-- `align_down_uintptr`. -/
def alignDownUintptr (value alignment : Nat) : Nat := value / alignment * alignment

/-- The last part of `append_free_range`: the range merged with the one before it and with the
one after it where they touch, or put between them. -/
def mergeFreeRange (before after : List FreePageRange) (base pageCount : Nat) :
    List FreePageRange :=
  match before.getLast? with
  | some prev =>
      if rangeEnd prev.base prev.pageCount = base then
        let merged := ⟨prev.base, (prev.pageCount + pageCount) % 2 ^ 64⟩
        match after with
        | next :: rest =>
            if rangeEnd merged.base merged.pageCount = next.base then
              before.dropLast ++
                ⟨merged.base, (merged.pageCount + next.pageCount) % 2 ^ 64⟩ :: rest
            else before.dropLast ++ merged :: after
        | [] => before.dropLast ++ merged :: after
      else mergeNext before after base pageCount
  | none => mergeNext before after base pageCount
where
  /-- No range before it touches. -/
  mergeNext (before after : List FreePageRange) (base pageCount : Nat) : List FreePageRange :=
    match after with
    | next :: rest =>
        if rangeEnd base pageCount = next.base then
          before ++ ⟨base, (next.pageCount + pageCount) % 2 ^ 64⟩ :: rest
        else before ++ ⟨base, pageCount⟩ :: after
    | [] => before ++ ⟨base, pageCount⟩ :: after

/-- `append_free_range`. The table's capacity is tested before a merge is tried. -/
def appendFreeRange (ranges : List FreePageRange) (base pageCount : Nat) :
    Bool × List FreePageRange :=
  if pageCount = 0 then (true, ranges)
  else if maxFreeRanges ≤ ranges.length then (false, ranges)
  else
    let before := ranges.takeWhile (fun r => decide (r.base < base))
    let after := ranges.dropWhile (fun r => decide (r.base < base))
    if after.head?.any (fun next => decide (next.base < rangeEnd base pageCount)) then
      (false, ranges)
    else (true, mergeFreeRange before after base pageCount)

/-- The loop of `reserve_range` over the ranges from `index` on; `count` is the number of ranges
in the whole table. -/
def reserveFrom (reserveStart reserveEnd : Nat) : Nat → List FreePageRange →
    Bool × List FreePageRange
  | _, [] => (true, [])
  | count, r :: rest =>
      let rangeStart := r.base
      let rangeStop := rangeEnd r.base r.pageCount
      if reserveEnd ≤ rangeStart ∨ rangeStop ≤ reserveStart then
        let (ok, rest') := reserveFrom reserveStart reserveEnd count rest
        (ok, r :: rest')
      else if reserveStart ≤ rangeStart ∧ rangeStop ≤ reserveEnd then
        reserveFrom reserveStart reserveEnd (count - 1) rest
      else if reserveStart ≤ rangeStart then
        let (ok, rest') := reserveFrom reserveStart reserveEnd count rest
        (ok, ⟨reserveEnd, (rangeStop - reserveEnd) / pageSize⟩ :: rest')
      else if rangeStop ≤ reserveEnd then
        let (ok, rest') := reserveFrom reserveStart reserveEnd count rest
        (ok, ⟨rangeStart, (reserveStart - rangeStart) / pageSize⟩ :: rest')
      else if maxFreeRanges ≤ count then (false, r :: rest)
      else
        let (ok, rest') := reserveFrom reserveStart reserveEnd (count + 1) rest
        (ok, ⟨rangeStart, (reserveStart - rangeStart) / pageSize⟩ ::
          ⟨reserveEnd, (rangeStop - reserveEnd) / pageSize⟩ :: rest')

/-- `reserve_range`. -/
def reserveRange (ranges : List FreePageRange) (reserveStart reserveEnd : Nat) :
    Bool × List FreePageRange :=
  let reserveStart := alignDownUintptr reserveStart pageSize
  let reserveEnd := alignUpUintptr reserveEnd pageSize
  if reserveEnd ≤ reserveStart then (true, ranges)
  else reserveFrom reserveStart reserveEnd ranges.length ranges

/-- `add_descriptor_range`. -/
def addDescriptorRange (s : State) (start stop : Nat) : Bool × State :=
  if maxPhysAddr ≤ start then (true, s)
  else
    let clippedStart := alignUpUintptr start pageSize
    let clippedEnd :=
      alignDownUintptr (if maxPhysAddr < stop then maxPhysAddr else stop) pageSize
    if clippedEnd ≤ clippedStart then (true, s)
    else
      let pages := (clippedEnd - clippedStart) / pageSize
      let (ok, ranges) := appendFreeRange s.freeRanges clippedStart pages
      if ok then (true, { s with freeRanges := ranges, totalPages := (s.totalPages + pages) % 2 ^ 64 })
      else (false, { s with freeRanges := ranges })

/-- The body of `memory_init`'s loop. -/
def addDescriptor (s : State) (d : EfiMemoryDescriptor) : Bool × State :=
  if d.type ≠ efiMemoryTypeConventional then (true, s)
  else if d.numberOfPages = 0 then (true, s)
  else
    let start := d.physicalStart.toNat
    addDescriptorRange s start ((start + d.numberOfPages.toNat * pageSize % 2 ^ 64) % 2 ^ 64)

/-- The loop of `memory_init` over the descriptors. -/
def addDescriptors (s : State) : List EfiMemoryDescriptor → Bool × State
  | [] => (true, s)
  | d :: rest =>
      let (ok, s') := addDescriptor s d
      if ok then addDescriptors s' rest else (false, s')

/-- The descriptors that the loop of `memory_init` visits: those that lie wholly in the map. -/
def BootMemoryMap.entries (map : BootMemoryMap) : List EfiMemoryDescriptor :=
  (List.range (map.size / map.descriptorSize)).map
    (fun i => map.descriptors (map.base + i * map.descriptorSize))

/-- The ranges that `memory_init` reserves, in order. -/
def reservedRanges (image : KernelImage) (info : BootInfo) : List (Nat × Nat) :=
  [(0, reservedLowEnd), (image.start.toNat, image.imageEnd.toNat),
    (processAbiRegionStart, processAbiRegionEnd)] ++
  if info.consoleFlags &&& bootinfoConsoleFramebuffer ≠ 0 then
    let framebufferSize :=
      info.framebufferPixelsPerScanline.toNat * info.framebufferHeight.toNat % 2 ^ 64 * 4 % 2 ^ 64
    [(info.framebufferBase.toNat, (info.framebufferBase.toNat + framebufferSize) % 2 ^ 64)]
  else []

/-- The calls of `reserve_range` in `memory_init`: the first that fails ends it. -/
def reserveRanges (ranges : List FreePageRange) : List (Nat × Nat) → Bool × List FreePageRange
  | [] => (true, ranges)
  | (start, stop) :: rest =>
      let (ok, ranges') := reserveRange ranges start stop
      if ok then reserveRanges ranges' rest else (false, ranges')

/-- `memory_init`. -/
def memoryInit (image : KernelImage) (bootInfo : Option BootInfo) (s : State) : Bool × State :=
  match bootInfo with
  | none => (false, s)
  | some info =>
      if info.memoryMap.base = 0 ∨ info.memoryMap.size = 0 ∨
          info.memoryMap.descriptorSize < efiMemoryDescriptorSize then (false, s)
      else
        let (ok, s) := addDescriptors ⟨[], 0, false⟩ info.memoryMap.entries
        if ok then
          let (ok, ranges) := reserveRanges s.freeRanges (reservedRanges image info)
          let ready := ok && !ranges.isEmpty
          (ready, { s with freeRanges := ranges, ready := ready })
        else (false, s)

/-- The loop of `alloc_pages`: the first range that is long enough gives its first pages. -/
def allocFrom (pageCount : Nat) : List FreePageRange → Option (Nat × List FreePageRange)
  | [] => none
  | r :: rest =>
      if pageCount ≤ r.pageCount then
        if r.pageCount - pageCount = 0 then some (r.base, rest)
        else some (r.base, ⟨rangeEnd r.base pageCount, r.pageCount - pageCount⟩ :: rest)
      else (allocFrom pageCount rest).map (fun (base, rest') => (base, r :: rest'))

/-- `alloc_pages`; 0 is `NULL`. -/
def allocPages (s : State) (pageCount : Nat) : Nat × State :=
  if !s.ready || pageCount == 0 then (0, s)
  else
    match allocFrom pageCount s.freeRanges with
    | none => (0, s)
    | some (base, ranges) => (base, { s with freeRanges := ranges })

/-- `free_pages`. What `append_free_range` answers is not looked at. -/
def freePages (s : State) (ptr pageCount : Nat) : State :=
  if !s.ready || ptr == 0 || pageCount == 0 then s
  else { s with freeRanges := (appendFreeRange s.freeRanges ptr pageCount).2 }

/-- `memory_free_pages`. -/
def memoryFreePages (s : State) : Nat :=
  s.freeRanges.foldl (fun total r => (total + r.pageCount) % 2 ^ 64) 0

end FunnyOS.Memory
