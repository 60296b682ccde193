import FunnyOS.Memory.MemoryInit

/-!
# The free pages that `memory_init` leaves

On a memory map of whole, disjoint conventional descriptors, a `memory_init` that succeeds leaves
free exactly the conventional pages below 4 GiB that no reserved range touches, and counts all the
conventional pages below 4 GiB.
-/

namespace FunnyOS.Memory

variable {s s' : State} {d : EfiMemoryDescriptor} {entries : List EfiMemoryDescriptor}
  {ranges : List FreePageRange} {start stop : Nat} {image : KernelImage} {info : BootInfo}
  {A B : Set Nat}

/-- The addresses of the pages that have an address of `A`. -/
def touched (A : Set Nat) : Set Nat := {x | ∃ y ∈ A, y / pageSize = x / pageSize}

@[simp] theorem touched_empty : touched ∅ = ∅ := by
  ext x
  simp [touched]

@[simp] theorem touched_union : touched (A ∪ B) = touched A ∪ touched B := by
  ext x
  simp [touched, or_and_right, exists_or]

theorem alignUpUintptr_eq (h : stop + pageSize ≤ 2 ^ 64) :
    alignUpUintptr stop pageSize = (stop + 4095) / 4096 * 4096 := by
  have hlt : stop + 4095 < 2 ^ 64 := by
    simp only [pageSize] at h
    omega
  exact congrArg (fun x => x / 4096 * 4096) (Nat.mod_eq_of_lt hlt)

/-- The pages that a nonempty range touches are those between its rounded bounds. -/
theorem touched_Ico (h : start < stop) (hstop : stop + pageSize ≤ 2 ^ 64) :
    touched (Set.Ico start stop) =
      Set.Ico (alignDownUintptr start pageSize) (alignUpUintptr stop pageSize) := by
  rw [alignUpUintptr_eq hstop]
  ext x
  change (∃ y, (start ≤ y ∧ y < stop) ∧ y / 4096 = x / 4096) ↔
    start / 4096 * 4096 ≤ x ∧ x < (stop + 4095) / 4096 * 4096
  constructor
  · intro ⟨y, ⟨hstart, hstop⟩, hpage⟩
    omega
  · intro ⟨hstart, hstop⟩
    -- the first address of the page that is not below the range
    refine ⟨max start (x / 4096 * 4096), ⟨by omega, by omega⟩, by omega⟩

/-- An empty range is rounded to the page of its bound, unless the bound is aligned. -/
theorem touched_bound (hstart : start + pageSize ≤ 2 ^ 64) :
    touched {x | x = start ∧ x % pageSize ≠ 0} =
      Set.Ico (alignDownUintptr start pageSize) (alignUpUintptr start pageSize) := by
  rw [alignUpUintptr_eq hstart]
  ext x
  change (∃ y, (y = start ∧ y % 4096 ≠ 0) ∧ y / 4096 = x / 4096) ↔
    start / 4096 * 4096 ≤ x ∧ x < (start + 4095) / 4096 * 4096
  constructor
  · intro ⟨y, ⟨hy, hmod⟩, hpage⟩
    omega
  · intro ⟨hle, hlt⟩
    exact ⟨start, ⟨rfl, by omega⟩, by omega⟩

/-- A table has as many free pages as it counts. -/
theorem NormalTable.encard_pages (h : NormalTable ranges) :
    {n | n * pageSize ∈ freeAddresses ranges}.encard = freePageCount ranges := by
  induction ranges with
  | nil => simp
  | cons r rest ih =>
      obtain ⟨hr, hlt, hrest⟩ := h.tail
      obtain ⟨k, hk⟩ := Nat.dvd_of_mod_eq_zero hr.aligned
      have hhead : {n | n * pageSize ∈ Set.Ico r.base r.limit} =
          ((Finset.Ico k (k + r.pageCount) : Finset Nat) : Set Nat) := by
        ext n
        simp only [Set.mem_ofPred_eq, Set.mem_Ico, Finset.coe_Ico, FreePageRange.limit, hk,
          pageSize]
        omega
      have hsplit : {n | n * pageSize ∈ freeAddresses (r :: rest)} =
          {n | n * pageSize ∈ Set.Ico r.base r.limit} ∪
            {n | n * pageSize ∈ freeAddresses rest} := by
        rw [freeAddresses_cons]
        rfl
      have hdisj : Disjoint {n | n * pageSize ∈ Set.Ico r.base r.limit}
          {n | n * pageSize ∈ freeAddresses rest} := by
        rw [Set.disjoint_left]
        intro n hn hfree
        obtain ⟨c, hc, hcn, _⟩ := hfree
        exact absurd (hn.2.trans (hlt c hc)) (not_lt.2 hcn)
      rw [hsplit, Set.encard_union_eq hdisj, ih hrest, hhead, Set.encard_coe_eq_coe_finsetCard,
        Nat.card_Ico, Nat.add_sub_cancel_left, freePageCount_cons, Nat.cast_add]

/-- The conventional descriptors are made of whole pages, end in the address space and do not
overlap. -/
structure MapOk (entries : List EfiMemoryDescriptor) : Prop where
  aligned : ∀ d ∈ entries, d.type = efiMemoryTypeConventional →
    d.physicalStart.toNat % pageSize = 0
  bounded : ∀ d ∈ entries, d.type = efiMemoryTypeConventional →
    d.physicalStart.toNat + d.numberOfPages.toNat * pageSize < 2 ^ 64
  disjoint : DisjointConventional entries

theorem EfiMemoryDescriptor.taken_eq (htype : d.type = efiMemoryTypeConventional)
    (haligned : d.physicalStart.toNat % pageSize = 0)
    (hbounded : d.physicalStart.toNat + d.numberOfPages.toNat * pageSize < 2 ^ 64) :
    d.taken = d.addresses ∩ Set.Iio maxPhysAddr := by
  have hstop : (d.physicalStart.toNat + d.numberOfPages.toNat * pageSize % 2 ^ 64) % 2 ^ 64 =
      d.physicalStart.toNat + d.numberOfPages.toNat * pageSize := by
    rw [Nat.add_mod_mod, Nat.mod_eq_of_lt hbounded]
  rw [EfiMemoryDescriptor.taken, if_pos htype, hstop, clippedAddresses]
  simp only [EfiMemoryDescriptor.addresses]
  generalize d.physicalStart.toNat = first at *
  generalize d.numberOfPages.toNat = pages at *
  split
  · next hhigh =>
      ext x
      simp only [Set.mem_empty_iff_false, Set.mem_inter_iff, Set.mem_Ico, Set.mem_Iio, false_iff]
      intro hx
      exact absurd (hhigh.trans hx.1.1) (not_le.2 hx.2)
  · next hlow =>
      have hup : alignUpUintptr first pageSize = first := by
        rw [alignUpUintptr_eq (by simp only [pageSize, maxPhysAddr] at *; omega)]
        simp only [pageSize] at haligned
        omega
      have hdown : alignDownUintptr (if maxPhysAddr < first + pages * pageSize then maxPhysAddr
          else first + pages * pageSize) pageSize = min maxPhysAddr (first + pages * pageSize) := by
        simp only [alignDownUintptr, pageSize, maxPhysAddr] at *
        split <;> omega
      rw [hup, hdown]
      ext x
      simp only [Set.mem_inter_iff, Set.mem_Ico, Set.mem_Iio]
      omega

/-- From such a map the loop of `memory_init` takes in all the conventional memory below 4 GiB. -/
theorem MapOk.takenAddresses_eq (h : MapOk entries) :
    takenAddresses entries = conventionalAddresses entries ∩ Set.Iio maxPhysAddr := by
  ext x
  constructor
  · intro hx
    obtain ⟨d, hd, hxd⟩ := hx
    have htype := EfiMemoryDescriptor.type_of_taken hxd
    rw [EfiMemoryDescriptor.taken_eq htype (h.aligned d hd htype) (h.bounded d hd htype)] at hxd
    exact ⟨⟨d, hd, htype, hxd.1⟩, hxd.2⟩
  · intro ⟨⟨d, hd, htype, hxd⟩, hx⟩
    refine ⟨d, hd, ?_⟩
    rw [EfiMemoryDescriptor.taken_eq htype (h.aligned d hd htype) (h.bounded d hd htype)]
    exact ⟨hxd, hx⟩

/-- The bytes of a frame buffer: four for each pixel. -/
def BootInfo.framebufferSize (info : BootInfo) : Nat :=
  info.framebufferPixelsPerScanline.toNat * info.framebufferHeight.toNat * 4

/-- The memory of the frame buffer, when there is one. -/
def BootInfo.framebuffer (info : BootInfo) : Set Nat :=
  {x | info.consoleFlags &&& bootinfoConsoleFramebuffer ≠ 0 ∧
    x ∈ Set.Ico info.framebufferBase.toNat (info.framebufferBase.toNat + info.framebufferSize)}

/-- The base of the frame buffer, when there is one and its base is inside a page. -/
def BootInfo.unalignedBase (info : BootInfo) : Set Nat :=
  {x | info.consoleFlags &&& bootinfoConsoleFramebuffer ≠ 0 ∧
    x = info.framebufferBase.toNat ∧ x % pageSize ≠ 0}

/-- The frame buffer ends a page or more below the end of the address space. -/
def BootInfo.FramebufferBounded (info : BootInfo) : Prop :=
  info.consoleFlags &&& bootinfoConsoleFramebuffer ≠ 0 →
    info.framebufferBase.toNat + info.framebufferSize + pageSize ≤ 2 ^ 64

/-- What the linker script gives: a kernel that is not empty and ends a page or more below the
end of the address space. -/
structure KernelImage.Linked (image : KernelImage) : Prop where
  nonempty : image.start.toNat < image.imageEnd.toNat
  bounded : image.imageEnd.toNat + pageSize ≤ 2 ^ 64

/-- The memory that is never free, the frame buffer apart. -/
def KernelImage.reserved (image : KernelImage) : Set Nat :=
  Set.Ico 0 reservedLowEnd ∪ Set.Ico image.start.toNat image.imageEnd.toNat ∪
    Set.Ico processAbiRegionStart processAbiRegionEnd

theorem reservedAddresses_append {before after : List (Nat × Nat)} :
    reservedAddresses (before ++ after) = reservedAddresses before ∪ reservedAddresses after := by
  ext x
  simp [reservedAddresses, or_and_right, exists_or]

theorem reservedAddresses_singleton :
    reservedAddresses [(start, stop)] =
      Set.Ico (alignDownUintptr start pageSize) (alignUpUintptr stop pageSize) := by
  ext x
  simp [reservedAddresses]

/-- The range that `memory_init` computes for the frame buffer. -/
theorem reservedAddresses_framebuffer (h : info.FramebufferBounded) :
    reservedAddresses
        (if info.consoleFlags &&& bootinfoConsoleFramebuffer ≠ 0 then
          let framebufferSize := info.framebufferPixelsPerScanline.toNat *
            info.framebufferHeight.toNat % 2 ^ 64 * 4 % 2 ^ 64
          [(info.framebufferBase.toNat, (info.framebufferBase.toNat + framebufferSize) % 2 ^ 64)]
        else []) =
      touched (info.framebuffer ∪ info.unalignedBase) := by
  by_cases hflag : info.consoleFlags &&& bootinfoConsoleFramebuffer ≠ 0
  · have hbound := h hflag
    have hstop : (info.framebufferBase.toNat + info.framebufferPixelsPerScanline.toNat *
        info.framebufferHeight.toNat % 2 ^ 64 * 4 % 2 ^ 64) % 2 ^ 64 =
        info.framebufferBase.toNat + info.framebufferSize := by
      simp only [BootInfo.framebufferSize, pageSize] at hbound ⊢
      omega
    have hframebuffer : info.framebuffer = Set.Ico info.framebufferBase.toNat
        (info.framebufferBase.toNat + info.framebufferSize) := by
      ext x
      simp only [BootInfo.framebuffer, Set.mem_ofPred_eq, and_iff_right hflag]
    have hbase : info.unalignedBase =
        {x | x = info.framebufferBase.toNat ∧ x % pageSize ≠ 0} := by
      ext x
      simp only [BootInfo.unalignedBase, Set.mem_ofPred_eq, and_iff_right hflag]
    simp only [if_pos hflag, hstop, reservedAddresses_singleton, hframebuffer, hbase]
    rcases Nat.eq_zero_or_pos info.framebufferSize with hsize | hsize
    · rw [hsize, Nat.add_zero] at hbound ⊢
      rw [Set.Ico_self, Set.empty_union, touched_bound hbound]
    · have hlt : info.framebufferBase.toNat < info.framebufferBase.toNat + info.framebufferSize :=
        Nat.lt_add_of_pos_right hsize
      rw [← touched_Ico hlt hbound]
      -- the base is an address of the frame buffer
      rw [Set.union_eq_left.2]
      intro x ⟨hx, _⟩
      rw [hx]
      exact ⟨le_rfl, hlt⟩
  · have hnone : info.framebuffer ∪ info.unalignedBase = ∅ := by
      ext x
      simp only [BootInfo.framebuffer, BootInfo.unalignedBase, Set.mem_union, Set.mem_ofPred_eq,
        hflag, false_and, or_self, Set.mem_empty_iff_false]
    rw [if_neg hflag, hnone, touched_empty]
    ext x
    simp [reservedAddresses]

/-- The pages that the calls of `reserve_range` take out. -/
theorem reservedAddresses_eq (himage : image.Linked) (h : info.FramebufferBounded) :
    reservedAddresses (reservedRanges image info) =
      touched (image.reserved ∪ (info.framebuffer ∪ info.unalignedBase)) := by
  have hlow : touched (Set.Ico 0 reservedLowEnd) = _ := touched_Ico (by decide) (by decide)
  have hkernel := touched_Ico himage.nonempty himage.bounded
  have habi : touched (Set.Ico processAbiRegionStart processAbiRegionEnd) = _ :=
    touched_Ico (by decide) (by decide)
  rw [reservedRanges, reservedAddresses_append, reservedAddresses_framebuffer h]
  simp only [KernelImage.reserved, touched_union, hlow, hkernel, habi]
  congr 1
  ext x
  simp [reservedAddresses, or_assoc]

/-- The conventional pages below 4 GiB, by their numbers. -/
def conventionalPages (entries : List EfiMemoryDescriptor) : Set Nat :=
  {n | n * pageSize ∈ conventionalAddresses entries ∩ Set.Iio maxPhysAddr}

/-- The free pages are the conventional ones below 4 GiB without those that `reserved` touches,
in a table in order, and all the conventional ones are counted. -/
structure FreeMap (entries : List EfiMemoryDescriptor) (reserved : Set Nat) (s : State) : Prop where
  addresses : freeAddresses s.freeRanges =
    (conventionalAddresses entries ∩ Set.Iio maxPhysAddr) \ touched reserved
  separated : Separated FreePageRange.base FreePageRange.limit s.freeRanges
  totalPages : s.totalPages = (conventionalPages entries).ncard

/-- What `memory_init` leaves when it succeeds, exactly. A frame buffer takes the page of its base
even when it is empty, unless the base is aligned. -/
theorem memoryInit_freeMap (hmap : MapOk info.memoryMap.entries) (himage : image.Linked)
    (hframebuffer : info.FramebufferBounded)
    (h : memoryInit image (some info) s = (true, s')) :
    FreeMap info.memoryMap.entries
      (image.reserved ∪ (info.framebuffer ∪ info.unalignedBase)) s' := by
  obtain ⟨s₁, hadd, hreserve, htotal, -⟩ := memoryInit_steps h
  have hcounted := addDescriptors_counted .nil hmap.disjoint (by simp) hadd
  have haddresses : freeAddresses s₁.freeRanges =
      conventionalAddresses info.memoryMap.entries ∩ Set.Iio maxPhysAddr := by
    rw [hcounted.addresses, hmap.takenAddresses_eq, freeAddresses_nil, Set.empty_union]
  obtain ⟨hok, hcut⟩ := reserveRanges_cut hcounted.ok hreserve
  constructor
  · rw [hcut, haddresses, reservedAddresses_eq himage hframebuffer]
  · exact hok.separated
  · have hpages := hcounted.ok.normal.encard_pages
    rw [haddresses] at hpages
    rw [htotal, hcounted.total rfl, conventionalPages, Set.ncard, hpages, ENat.toNat_natCast]

/-- Two pages at 2 MiB and a frame buffer with no pixels in the middle of the first. -/
def emptyFramebuffer : BootInfo :=
  { sampleInfo [⟨7, 0x200000, 2⟩] with consoleFlags := 4, framebufferBase := 0x200800 }

theorem emptyFramebuffer_map : MapOk emptyFramebuffer.memoryMap.entries := by
  have hentries : emptyFramebuffer.memoryMap.entries = [⟨7, 0x200000, 2⟩] := by decide
  rw [hentries]
  constructor
  · intro d hd _
    rw [List.mem_singleton.1 hd]
    decide
  · intro d hd _
    rw [List.mem_singleton.1 hd]
    decide
  · exact List.pairwise_singleton _ _

theorem sampleImage_linked : sampleImage.Linked := ⟨by decide, by decide⟩

theorem memoryInit_freeMap_sample :
    FreeMap emptyFramebuffer.memoryMap.entries (sampleImage.reserved ∪
        (emptyFramebuffer.framebuffer ∪ emptyFramebuffer.unalignedBase))
      ⟨[⟨0x201000, 1⟩], 2, true⟩ :=
  memoryInit_freeMap (s := startState) emptyFramebuffer_map sampleImage_linked
    (fun _ => by decide) (by decide)

/-- A frame buffer with no pixels takes a page that it does not touch. -/
theorem emptyFramebuffer_takes :
    MapOk emptyFramebuffer.memoryMap.entries ∧ sampleImage.Linked ∧
      emptyFramebuffer.FramebufferBounded ∧
      memoryInit sampleImage (some emptyFramebuffer) startState =
        (true, ⟨[⟨0x201000, 1⟩], 2, true⟩) ∧
      ¬ FreeMap emptyFramebuffer.memoryMap.entries
        (sampleImage.reserved ∪ emptyFramebuffer.framebuffer) ⟨[⟨0x201000, 1⟩], 2, true⟩ := by
  refine ⟨emptyFramebuffer_map, sampleImage_linked, fun _ => by decide, by decide, fun hfree => ?_⟩
  have haddresses := hfree.addresses
  -- the first page is conventional, and nothing reserved touches it
  have hfree : 0x200000 ∈ freeAddresses [⟨0x201000, 1⟩] := by
    rw [haddresses]
    refine ⟨⟨⟨⟨7, 0x200000, 2⟩, by decide, rfl, by decide, by decide⟩, by decide⟩, ?_⟩
    intro ⟨y, hy, hpage⟩
    simp only [KernelImage.reserved, sampleImage, BootInfo.framebuffer, Set.mem_union, Set.mem_Ico,
      Set.mem_ofPred_eq] at hy
    obtain ((⟨_, hlt⟩ | ⟨_, hlt⟩) | ⟨hle, _⟩) | ⟨_, hle, hlt⟩ := hy
    · simp only [pageSize, reservedLowEnd] at hpage hlt
      omega
    · have hend : (0x180000 : UInt64).toNat = 0x180000 := rfl
      simp only [pageSize, hend] at hpage hlt
      omega
    · simp only [pageSize, processAbiRegionStart] at hpage hle
      omega
    · exact absurd hle (not_le.2 hlt)
  obtain ⟨r, hr, hle, _⟩ := hfree
  rw [List.mem_singleton.1 hr] at hle
  exact absurd hle (by decide)

end FunnyOS.Memory
