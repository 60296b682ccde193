import FunnyOS.Memory.Heap

/-!
# Page tables

`src/kernel/paging.c`: the four levels of tables through which an address is translated, the
kernel's own tree, and the trees of the processes, which share the kernel's tables below their
roots. A table is a page from the page allocator; what it holds are 512 entries of 64 bits.
-/

namespace FunnyOS.Memory

/-- An entry of a page table. -/
abbrev Entry := BitVec 64

/-- `PAGE_SIZE_2M`. -/
abbrev pageSize2m : Nat := 0x200000

/-- `LOW_IDENTITY_LIMIT`. -/
abbrev lowIdentityLimit : Nat := 0x100000000

/-- `PAGE_PRESENT`. -/
abbrev pagePresent : Entry := 0x001

/-- `PAGE_WRITABLE`. -/
abbrev pageWritable : Entry := 0x002

/-- `PAGE_USER`. -/
abbrev pageUser : Entry := 0x004

/-- `PAGE_PAGE_SIZE`. -/
abbrev pagePageSize : Entry := 0x080

/-- `PAGE_NX`. -/
abbrev pageNx : Entry := 0x8000000000000000

/-- `PAGE_TABLE_ADDR_MASK`. -/
abbrev pageTableAddrMask : Entry := ~~~0xFFF

/-- `PAGE_2M_ADDR_MASK`. -/
abbrev page2mAddrMask : Entry := ~~~0x1FFFFF

/-- What the page allocator was asked and what it did. A freed block finds room in the table of
free ranges or it does not. -/
inductive PageEvent
  | given (base pageCount : Nat)
  | freed (base pageCount : Nat) (room : Bool)
deriving DecidableEq, Repr

/-- The page allocator, the entries that memory holds at each page, `g_pml4` and CR3. `events` is
no variable of the source: it lists what the page allocator has done. -/
structure Kernel where
  pages : State
  tables : Nat → Fin 512 → Entry
  pml4 : Nat
  cr3 : Nat
  events : List PageEvent

/-- `(entry & PAGE_PRESENT) != 0`. -/
def Entry.present (e : Entry) : Bool := e &&& pagePresent != 0

/-- `(entry & PAGE_PAGE_SIZE) != 0`. -/
def Entry.large (e : Entry) : Bool := e &&& pagePageSize != 0

/-- `(entry & PAGE_USER) != 0`. -/
def Entry.user (e : Entry) : Bool := e &&& pageUser != 0

/-- `entry & PAGE_TABLE_ADDR_MASK`. -/
def Entry.table (e : Entry) : Nat := (e &&& pageTableAddrMask).toNat

/-- The kernel's layout, which the linker sets. -/
structure KernelLayout extends KernelImage where
  textStart : UInt64
  textEnd : UInt64
  rodataStart : UInt64
  rodataEnd : UInt64
  dataStart : UInt64

namespace Kernel

/-- `alloc_pages`. -/
def allocPages (s : Kernel) (pageCount : Nat) : Nat × Kernel :=
  let (base, pages) := Memory.allocPages s.pages pageCount
  if base = 0 then (0, { s with pages := pages })
  else (base, { s with pages := pages, events := s.events ++ [.given base pageCount] })

/-- `free_pages`. -/
def freePages (s : Kernel) (ptr pageCount : Nat) : Kernel :=
  { s with
    pages := Memory.freePages s.pages ptr pageCount
    events := s.events ++ [.freed ptr pageCount (decide (s.pages.freeRanges.length < maxFreeRanges))] }

/-- A whole table written. -/
def setTable (s : Kernel) (table : Nat) (entries : Fin 512 → Entry) : Kernel :=
  { s with tables := Function.update s.tables table entries }

/-- `table[index] = entry`. -/
def setEntry (s : Kernel) (table : Nat) (index : Fin 512) (entry : Entry) : Kernel :=
  s.setTable table (Function.update (s.tables table) index entry)

end Kernel

/-- `align_down_page` of `paging.c`. -/
def alignDownPage (value alignment : Nat) : Nat := alignDownUintptr value alignment

/-- `align_up_page` of `paging.c`. -/
def alignUpPage (value alignment : Nat) : Nat := alignUpUintptr value alignment

/-- `pml4_index`. -/
def pml4Index (addr : Nat) : Fin 512 := Fin.ofNat 512 (addr >>> 39)

/-- `pdpt_index`. -/
def pdptIndex (addr : Nat) : Fin 512 := Fin.ofNat 512 (addr >>> 30)

/-- `pd_index`. -/
def pdIndex (addr : Nat) : Fin 512 := Fin.ofNat 512 (addr >>> 21)

/-- `pt_index`. -/
def ptIndex (addr : Nat) : Fin 512 := Fin.ofNat 512 (addr >>> 12)

/-- `alloc_page_table`; 0 is `NULL`. -/
def allocPageTable (s : Kernel) : Nat × Kernel :=
  let (table, s) := s.allocPages 1
  if table = 0 then (0, s) else (table, s.setTable table fun _ => 0)

/-- `paging_default_leaf_flags`. -/
def pagingDefaultLeafFlags (writable userAccessible : Bool) : Entry :=
  pagePresent ||| (if writable then pageWritable else 0) ||| (if userAccessible then pageUser else 0)

/-- The flags of an entry that points to a table. -/
def tableFlags (userAccessible : Bool) : Entry :=
  pagePresent ||| pageWritable ||| (if userAccessible then pageUser else 0)

/-- `get_or_create_table`. -/
def getOrCreateTable (s : Kernel) (parent : Nat) (index : Fin 512) (userAccessible : Bool) :
    Nat × Kernel :=
  if parent = 0 then (0, s)
  else
    let entry := s.tables parent index
    if entry.present then
      if entry.large then (0, s)
      else if userAccessible && !entry.user then (0, s)
      else (entry.table, s)
    else
      let (table, s) := allocPageTable s
      if table = 0 then (0, s)
      else (table, s.setEntry parent index (BitVec.ofNat 64 table ||| tableFlags userAccessible))

/-- `get_or_create_pd`. -/
def getOrCreatePd (s : Kernel) (root virt : Nat) (userAccessible : Bool) : Nat × Kernel :=
  let (pdpt, s) := getOrCreateTable s root (pml4Index virt) userAccessible
  if pdpt = 0 then (0, s) else getOrCreateTable s pdpt (pdptIndex virt) userAccessible

/-- `split_large_page`. -/
def splitLargePage (s : Kernel) (pd : Nat) (slot : Fin 512) : Bool × Kernel :=
  let entry := s.tables pd slot
  if !entry.present || !entry.large then (true, s)
  else
    let (pt, s) := allocPageTable s
    if pt = 0 then (false, s)
    else
      let base := entry &&& page2mAddrMask
      let flags := entry &&& (pagePresent ||| pageWritable ||| pageNx ||| pageUser)
      let s := s.setTable pt fun index => (base + BitVec.ofNat 64 (index * pageSize)) ||| flags
      (true, s.setEntry pd slot
        (BitVec.ofNat 64 pt ||| pagePresent ||| pageWritable ||| (flags &&& pageUser)))

/-- `map_page_2m`. -/
def mapPage2m (s : Kernel) (root virt phys : Nat) (writable executable userAccessible : Bool) :
    Bool × Kernel :=
  let (pd, s) := getOrCreatePd s root virt userAccessible
  let flags := pagingDefaultLeafFlags writable userAccessible ||| pagePageSize
  if pd = 0 then (false, s)
  else
    let flags := if executable then flags else flags ||| pageNx
    (true, s.setEntry pd (pdIndex virt) (BitVec.ofNat 64 phys ||| flags))

/-- The branches of `map_page_4k` on `pd[slot]`, which has to point to a table. -/
def preparePt (s : Kernel) (pd : Nat) (slot : Fin 512) (userAccessible : Bool) : Bool × Kernel :=
  let entry := s.tables pd slot
  if entry.large then splitLargePage s pd slot
  else if !entry.present then
    let (newPt, s) := allocPageTable s
    if newPt = 0 then (false, s)
    else (true, s.setEntry pd slot (BitVec.ofNat 64 newPt ||| tableFlags userAccessible))
  else if userAccessible && !entry.user then (false, s)
  else (true, s)

/-- `map_page_4k`. -/
def mapPage4k (s : Kernel) (root virt phys : Nat) (writable executable userAccessible : Bool) :
    Bool × Kernel :=
  let (pd, s) := getOrCreatePd s root virt userAccessible
  let flags := pagingDefaultLeafFlags writable userAccessible
  if pd = 0 then (false, s)
  else
    let slot := pdIndex virt
    let (ok, s) := preparePt s pd slot userAccessible
    if !ok then (false, s)
    else
      let pt := (s.tables pd slot).table
      let flags := if executable then flags else flags ||| pageNx
      (true, s.setEntry pt (ptIndex virt) (BitVec.ofNat 64 phys ||| flags))

/-- A loop that ends with `false` as soon as its body does. -/
def whileOk {α : Type} (body : Kernel → α → Bool × Kernel) : List α → Kernel → Bool × Kernel
  | [], s => (true, s)
  | a :: rest, s =>
      let (ok, s) := body s a
      if ok then whileOk body rest s else (false, s)

/-- The values of `cursor` in `for (cursor = start; cursor < stop; cursor += step)`, where `start`
and `stop` are multiples of `step`. -/
def cursors (start stop step : Nat) : List Nat :=
  (List.range ((stop - start) / step)).map fun i => start + i * step

/-- `map_range_in_root`. -/
def mapRangeInRoot (s : Kernel) (root virtStart physStart size : Nat)
    (writable executable userAccessible : Bool) : Bool × Kernel :=
  if root = 0 ∨ size = 0 then (false, s)
  else if (virtStart + size) % 2 ^ 64 < virtStart ∨ (physStart + size) % 2 ^ 64 < physStart then
    (false, s)
  else
    let virtCursor := alignDownPage virtStart pageSize
    let physCursor := alignDownPage physStart pageSize
    let virtEnd := alignUpPage ((virtStart + size) % 2 ^ 64) pageSize
    whileOk
      (fun s virt =>
        mapPage4k s root virt ((physCursor + (virt - virtCursor)) % 2 ^ 64)
          writable executable userAccessible)
      (cursors virtCursor virtEnd pageSize) s

/-- `map_range_identity_kernel`. -/
def mapRangeIdentityKernel (s : Kernel) (start stop : Nat) (writable executable : Bool) :
    Bool × Kernel :=
  mapRangeInRoot s s.pml4 start start (sub64 stop start) writable executable false

/-- The entry of a chunk of the kernel in `map_kernel_image`, written where there is none. -/
def ensureChunk (s : Kernel) (pd : Nat) (slot : Fin 512) (cursor : Nat) : Kernel :=
  if !(s.tables pd slot).present then
    s.setEntry pd slot (BitVec.ofNat 64 cursor ||| pagePresent ||| pageWritable ||| pagePageSize)
  else s

/-- The body of the loop of `map_kernel_image`. -/
def mapKernelChunk (s : Kernel) (cursor : Nat) : Bool × Kernel :=
  let (pd, s) := getOrCreatePd s s.pml4 cursor false
  if pd = 0 then (false, s)
  else
    let slot := pdIndex cursor
    let s := ensureChunk s pd slot cursor
    if (s.tables pd slot).large then splitLargePage s pd slot else (true, s)

/-- `if (!first) return false;` and what follows it. -/
def andThen (first : Bool × Kernel) (next : Kernel → Bool × Kernel) : Bool × Kernel :=
  if first.1 then next first.2 else (false, first.2)

/-- `map_kernel_image`. -/
def mapKernelImage (layout : KernelLayout) (s : Kernel) : Bool × Kernel :=
  let chunkStart := alignDownPage layout.start.toNat pageSize2m
  let chunkEnd := alignUpPage layout.imageEnd.toNat pageSize2m
  andThen (whileOk mapKernelChunk (cursors chunkStart chunkEnd pageSize2m) s) fun s =>
  andThen (mapRangeIdentityKernel s layout.textStart.toNat layout.textEnd.toNat false true) fun s =>
  andThen (mapRangeIdentityKernel s layout.rodataStart.toNat layout.rodataEnd.toNat false false)
    fun s =>
  if layout.dataStart < layout.imageEnd then
    mapRangeIdentityKernel s layout.dataStart.toNat layout.imageEnd.toNat true false
  else (true, s)

/-- `map_framebuffer`. -/
def mapFramebuffer (bootInfo : Option BootInfo) (s : Kernel) : Bool × Kernel :=
  match bootInfo with
  | none => (false, s)
  | some info =>
      if info.consoleFlags &&& bootinfoConsoleFramebuffer = 0 then (true, s)
      else if info.framebufferBase = 0 then (true, s)
      else
        let start := info.framebufferBase.toNat
        let size :=
          info.framebufferPixelsPerScanline.toNat * info.framebufferHeight.toNat % 2 ^ 64 * 4 % 2 ^ 64
        let stop := (start + size) % 2 ^ 64
        mapRangeInRoot s s.pml4 start start (sub64 stop start) true false false

/-- `paging_current_root`. -/
def pagingCurrentRoot (s : Kernel) : Nat := alignDownPage s.cr3 pageSize

/-- `load_cr3`. -/
def loadCr3 (s : Kernel) (pml4 : Nat) : Kernel := { s with cr3 := pml4 }

/-- What `paging_init` does once there is a root, without the two control bits that it sets in the
processor. -/
def fillKernelRoot (layout : KernelLayout) (bootInfo : Option BootInfo) (s : Kernel) :
    Bool × Kernel :=
  andThen (mapRangeInRoot s s.pml4 pageSize pageSize (pageSize2m - pageSize) true true false) fun s =>
  andThen (whileOk (fun s cursor => mapPage2m s s.pml4 cursor cursor true true false)
    (cursors pageSize2m lowIdentityLimit pageSize2m) s) fun s =>
  andThen (mapKernelImage layout s) fun s =>
  andThen (mapFramebuffer bootInfo s) fun s =>
  (true, loadCr3 s s.pml4)

/-- `paging_init`. -/
def pagingInit (layout : KernelLayout) (bootInfo : Option BootInfo) (s : Kernel) : Bool × Kernel :=
  let (root, s) := allocPageTable s
  let s := { s with pml4 := root }
  if root = 0 then (false, s) else fillKernelRoot layout bootInfo s

/-- `paging_map_range`. -/
def pagingMapRange (s : Kernel) (virtStart physStart size : Nat) (writable executable : Bool) :
    Bool × Kernel :=
  if s.pml4 = 0 then (false, s)
  else
    andThen (mapRangeInRoot s s.pml4 virtStart physStart size writable executable false) fun s =>
    if pagingCurrentRoot s = s.pml4 then (true, loadCr3 s s.pml4) else (true, s)

/-- `paging_activate_root`. -/
def pagingActivateRoot (s : Kernel) (root : Nat) : Kernel :=
  let root := alignDownPage root pageSize
  if root ≠ 0 then loadCr3 s root else s

/-- `paging_create_address_space`; 0 is a failure. -/
def pagingCreateAddressSpace (s : Kernel) : Nat × Kernel :=
  if s.pml4 = 0 then (0, s)
  else
    let (root, s) := allocPageTable s
    if root = 0 then (0, s) else (root, s.setTable root (s.tables s.pml4))

/-- `destroy_table_tree`. -/
def destroyTableTree : Nat → Kernel → Nat → Kernel
  | 0, s, _ => s
  | level + 1, s, table =>
      if table = 0 then s
      else
        (List.finRange 512).foldl
          (fun s i =>
            let entry := s.tables table i
            if !entry.present then s
            else if level + 1 = 1 ∨ entry.large then s
            else (destroyTableTree level s entry.table).freePages entry.table 1) s

/-- `paging_destroy_address_space`. -/
def pagingDestroyAddressSpace (s : Kernel) (root : Nat) : Kernel :=
  if root = 0 ∨ root = s.pml4 then s
  else
    let s := (List.finRange 512).foldl
      (fun s i =>
        let entry := s.tables root i
        if !entry.present then s
        else if s.pml4 ≠ 0 ∧ entry = s.tables s.pml4 i then s
        else if entry.large then s
        else (destroyTableTree 3 s entry.table).freePages entry.table 1) s
    s.freePages root 1

/-- `paging_map_user_range`. -/
def pagingMapUserRange (s : Kernel) (root virtStart physStart size : Nat)
    (writable executable : Bool) : Bool × Kernel :=
  let rootAddr := alignDownPage root pageSize
  if rootAddr = 0 then (false, s)
  else
    andThen (mapRangeInRoot s rootAddr virtStart physStart size writable executable true) fun s =>
    if pagingCurrentRoot s = rootAddr then (true, loadCr3 s rootAddr) else (true, s)

/-- Where an address leads and what may be done there. -/
structure Translation where
  phys : Nat
  writable : Bool
  user : Bool
  executable : Bool
deriving DecidableEq, Repr

/-- How the processor translates an address from a table of a level on: an entry with the page
size bit ends the walk before level 1, and each entry on the way may take a right away. -/
def translateFrom (tables : Nat → Fin 512 → Entry) (virt : Nat) :
    Nat → Nat → Translation → Option Translation
  | 0, _, _ => none
  | level + 1, table, rights =>
      let bits := 12 + 9 * level
      let entry := tables table (Fin.ofNat 512 (virt >>> bits))
      let rights :=
        { rights with
          writable := rights.writable && (entry &&& pageWritable != 0)
          user := rights.user && entry.user
          executable := rights.executable && !(entry &&& pageNx != 0) }
      if !entry.present then none
      else if level = 0 || entry.large then
        if level = 3 then none
        else
          let frame := (entry &&& 0x000FFFFFFFFFF000).toNat / 2 ^ bits * 2 ^ bits
          some { rights with phys := frame + virt % 2 ^ bits }
      else translateFrom tables virt level entry.table rights

/-- The translation of an address under a root. -/
def translate (tables : Nat → Fin 512 → Entry) (root virt : Nat) : Option Translation :=
  translateFrom tables virt 4 root ⟨0, true, true, true⟩

end FunnyOS.Memory
