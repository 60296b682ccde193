import FunnyOS.Memory.PageTable

/-!
# The table that `memory_init` builds

When `memory_init` succeeds on a memory map whose conventional descriptors do not overlap, the
table is in order, every free address lies in a conventional descriptor, and none lies in a
reserved range.
-/

namespace FunnyOS.Memory

variable {s s' : State} {d : EfiMemoryDescriptor} {entries : List EfiMemoryDescriptor}
  {ranges ranges' : List FreePageRange} {start stop : Nat} {image : KernelImage} {info : BootInfo}

/-- The addresses that a descriptor describes. -/
def EfiMemoryDescriptor.addresses (d : EfiMemoryDescriptor) : Set Nat :=
  Set.Ico d.physicalStart.toNat (d.physicalStart.toNat + d.numberOfPages.toNat * pageSize)

/-- The free memory that the descriptors report. -/
def conventionalAddresses (entries : List EfiMemoryDescriptor) : Set Nat :=
  {x | ∃ d ∈ entries, d.type = efiMemoryTypeConventional ∧ x ∈ d.addresses}

/-- No two conventional descriptors describe the same address. -/
def DisjointConventional (entries : List EfiMemoryDescriptor) : Prop :=
  entries.Pairwise fun d e => d.type = efiMemoryTypeConventional →
    e.type = efiMemoryTypeConventional → Disjoint d.addresses e.addresses

/-- A table that took in nothing but some of the addresses `new`. -/
structure Extended (ranges : List FreePageRange) (new : Set Nat) (ranges' : List FreePageRange) :
    Prop where
  ok : TableOk ranges'
  addresses : freeAddresses ranges' ⊆ freeAddresses ranges ∪ new

theorem alignUpUintptr_lt (h : start < maxPhysAddr) :
    start ≤ alignUpUintptr start pageSize ∧ alignUpUintptr start pageSize % pageSize = 0 := by
  refine ⟨?_, Nat.mul_mod_left _ _⟩
  have hlt : start + 4096 - 1 < 2 ^ 64 := by
    simp only [maxPhysAddr] at h
    omega
  simp only [alignUpUintptr]
  rw [Nat.mod_eq_of_lt hlt]
  have hdiv := Nat.div_add_mod (start + 4096 - 1) 4096
  have hmod := Nat.mod_lt (start + 4096 - 1) (by decide : 4096 > 0)
  rw [Nat.mul_comm] at hdiv
  change start ≤ (start + 4096 - 1) / 4096 * 4096
  omega

/-- A table that took in exactly the addresses `new`; the pages are counted in the total. -/
structure Counted (s : State) (new : Set Nat) (s' : State) : Prop where
  ok : TableOk s'.freeRanges
  addresses : freeAddresses s'.freeRanges = freeAddresses s.freeRanges ∪ new
  total : s.totalPages = freePageCount s.freeRanges → s'.totalPages = freePageCount s'.freeRanges

theorem Counted.refl (hok : TableOk s.freeRanges) : Counted s ∅ s :=
  ⟨hok, (Set.union_empty _).symm, id⟩

/-- What `add_descriptor_range` takes in: the whole pages of the range that lie below 4 GiB. -/
def clippedAddresses (start stop : Nat) : Set Nat :=
  if maxPhysAddr ≤ start then ∅
  else Set.Ico (alignUpUintptr start pageSize)
    (alignDownUintptr (if maxPhysAddr < stop then maxPhysAddr else stop) pageSize)

theorem clippedAddresses_subset : clippedAddresses start stop ⊆ Set.Ico start stop := by
  rw [clippedAddresses]
  split
  · exact Set.empty_subset _
  · next hlow =>
      apply Set.Ico_subset_Ico (alignUpUintptr_lt (not_le.1 hlow)).1
      apply (Nat.div_mul_le_self _ _).trans
      split
      · next hclip => exact hclip.le
      · exact le_rfl

/-- One descriptor range taken in, when `add_descriptor_range` succeeds. -/
theorem addDescriptorRange_counted (hok : TableOk s.freeRanges)
    (hdisj : Disjoint (clippedAddresses start stop) (freeAddresses s.freeRanges))
    (h : addDescriptorRange s start stop = (true, s')) :
    Counted s (clippedAddresses start stop) s' := by
  simp only [clippedAddresses] at hdisj ⊢
  simp only [addDescriptorRange] at h
  split at h
  · next hhigh =>
      obtain ⟨-, rfl⟩ := Prod.mk.inj h
      rw [if_pos hhigh]
      exact .refl hok
  · next hlow =>
      rw [if_neg hlow] at hdisj ⊢
      obtain ⟨-, hupa⟩ := alignUpUintptr_lt (not_le.1 hlow)
      set a := alignUpUintptr start pageSize with ha
      set b := alignDownUintptr (if maxPhysAddr < stop then maxPhysAddr else stop) pageSize with hb
      split at h
      · next hle =>
          obtain ⟨-, rfl⟩ := Prod.mk.inj h
          rw [Set.Ico_eq_empty (not_lt.2 hle)]
          exact .refl hok
      · next hlt =>
          have hba : b % pageSize = 0 := Nat.mul_mod_left _ _
          have hbmax : b ≤ maxPhysAddr := by
            apply (Nat.div_mul_le_self _ _).trans
            split
            · exact le_rfl
            · next hclip => exact not_lt.1 hclip
          obtain ⟨hpos, hlim⟩ := pages_between hupa hba (not_le.1 hlt)
          have hr : FreePageRange.Ok ⟨a, (b - a) / pageSize⟩ := ⟨hupa, hpos, hlim.trans_le hbmax⟩
          rcases appendFreeRange_cases hok hr (hlim.symm ▸ hdisj) with
            ⟨-, happend⟩ | ⟨-, ranges', happend, htaken⟩
          · simp [happend] at h
          · simp only [happend, if_true, Prod.mk.injEq, true_and] at h
            rw [← h]
            refine ⟨htaken.ok, hlim ▸ htaken.addresses, fun htotal => ?_⟩
            change (s.totalPages + (b - a) / pageSize) % 2 ^ 64 = freePageCount ranges'
            rw [htotal, ← htaken.pages]
            exact Nat.mod_eq_of_lt (htaken.ok.freePageCount_le.trans_lt (by decide))

/-- What the loop of `memory_init` takes in for a descriptor. -/
def EfiMemoryDescriptor.taken (d : EfiMemoryDescriptor) : Set Nat :=
  if d.type = efiMemoryTypeConventional then
    clippedAddresses d.physicalStart.toNat
      ((d.physicalStart.toNat + d.numberOfPages.toNat * pageSize % 2 ^ 64) % 2 ^ 64)
  else ∅

/-- What the loop of `memory_init` takes in. -/
def takenAddresses (entries : List EfiMemoryDescriptor) : Set Nat :=
  {x | ∃ d ∈ entries, x ∈ d.taken}

/-- The end of the range wraps to something no greater than the true end. -/
theorem EfiMemoryDescriptor.taken_subset : d.taken ⊆ d.addresses := by
  rw [EfiMemoryDescriptor.taken]
  split
  · apply clippedAddresses_subset.trans
    apply Set.Ico_subset_Ico_right
    exact (Nat.mod_le _ _).trans (Nat.add_le_add_left (Nat.mod_le _ _) _)
  · exact Set.empty_subset _

theorem EfiMemoryDescriptor.type_of_taken {x : Nat} (h : x ∈ d.taken) :
    d.type = efiMemoryTypeConventional := by
  by_contra htype
  rw [EfiMemoryDescriptor.taken, if_neg htype] at h
  exact h

theorem takenAddresses_subset : takenAddresses entries ⊆ conventionalAddresses entries :=
  fun _ ⟨d, hd, hx⟩ =>
    ⟨d, hd, EfiMemoryDescriptor.type_of_taken hx, EfiMemoryDescriptor.taken_subset hx⟩

@[simp] theorem takenAddresses_nil : takenAddresses [] = ∅ := by
  ext x
  simp [takenAddresses]

@[simp] theorem takenAddresses_cons :
    takenAddresses (d :: entries) = d.taken ∪ takenAddresses entries := by
  ext x
  simp [takenAddresses]

theorem addDescriptor_counted (hok : TableOk s.freeRanges)
    (hdisj : Disjoint d.taken (freeAddresses s.freeRanges))
    (h : addDescriptor s d = (true, s')) : Counted s d.taken s' := by
  simp only [addDescriptor] at h
  split_ifs at h with htype hpages
  · obtain ⟨-, rfl⟩ := Prod.mk.inj h
    rw [EfiMemoryDescriptor.taken, if_neg htype]
    exact .refl hok
  · obtain ⟨-, rfl⟩ := Prod.mk.inj h
    have hempty : d.taken = ∅ := by
      apply Set.subset_eq_empty EfiMemoryDescriptor.taken_subset
      simp [EfiMemoryDescriptor.addresses, hpages]
    rw [hempty]
    exact .refl hok
  · rw [EfiMemoryDescriptor.taken, if_pos (not_not.1 htype)] at hdisj ⊢
    exact addDescriptorRange_counted hok hdisj h

/-- The descriptors taken in, when the loop of `memory_init` ends without a failure. -/
theorem addDescriptors_counted (hok : TableOk s.freeRanges) (hmap : DisjointConventional entries)
    (hdisj : Disjoint (takenAddresses entries) (freeAddresses s.freeRanges))
    (h : addDescriptors s entries = (true, s')) : Counted s (takenAddresses entries) s' := by
  induction entries generalizing s with
  | nil =>
      obtain ⟨-, rfl⟩ := Prod.mk.inj h
      rw [takenAddresses_nil]
      exact .refl hok
  | cons d rest ih =>
      obtain ⟨hd, hrest⟩ := List.pairwise_cons.1 hmap
      rw [takenAddresses_cons, Set.disjoint_union_left] at hdisj
      rcases hadd : addDescriptor s d with ⟨ok, s₁⟩
      simp only [addDescriptors, hadd] at h
      split at h
      · next htrue =>
          have hhead := addDescriptor_counted hok hdisj.1 (htrue ▸ hadd)
          -- what the other descriptors describe is not in the first
          have hapart : Disjoint (takenAddresses rest) d.taken := by
            rw [Set.disjoint_left]
            intro x ⟨e, he, hxe⟩ hxd
            have htype := EfiMemoryDescriptor.type_of_taken hxd
            exact Set.disjoint_left.1 (hd e he htype (EfiMemoryDescriptor.type_of_taken hxe))
              (EfiMemoryDescriptor.taken_subset hxd) (EfiMemoryDescriptor.taken_subset hxe)
          have hdisj₁ : Disjoint (takenAddresses rest) (freeAddresses s₁.freeRanges) := by
            rw [hhead.addresses]
            exact Set.disjoint_union_right.2 ⟨hdisj.2, hapart⟩
          have htail := ih hhead.ok hrest hdisj₁ h
          refine ⟨htail.ok, ?_, fun htotal => htail.total (hhead.total htotal)⟩
          rw [htail.addresses, hhead.addresses, takenAddresses_cons, Set.union_assoc]
      · simp at h

/-- Nothing comes in that no conventional descriptor describes. -/
theorem addDescriptors_extended (hmap : DisjointConventional entries)
    (h : addDescriptors ⟨[], 0, false⟩ entries = (true, s')) :
    Extended [] (conventionalAddresses entries) s'.freeRanges := by
  have hcounted := addDescriptors_counted (s := ⟨[], 0, false⟩) .nil hmap (by simp) h
  refine ⟨hcounted.ok, ?_⟩
  rw [hcounted.addresses]
  exact Set.union_subset_union_right _ takenAddresses_subset

/-- What the calls of `reserve_range` take out: the pages that the ranges touch. -/
def reservedAddresses (reserved : List (Nat × Nat)) : Set Nat :=
  {x | ∃ p ∈ reserved, x ∈ Set.Ico (alignDownUintptr p.1 pageSize) (alignUpUintptr p.2 pageSize)}

/-- The reserved ranges taken out, when no call of `reserve_range` fails. -/
theorem reserveRanges_cut {reserved : List (Nat × Nat)} (hok : TableOk ranges)
    (h : reserveRanges ranges reserved = (true, ranges')) :
    TableOk ranges' ∧
      freeAddresses ranges' = freeAddresses ranges \ reservedAddresses reserved := by
  induction reserved generalizing ranges with
  | nil =>
      obtain ⟨-, rfl⟩ := Prod.mk.inj h
      exact ⟨hok, by simp [reservedAddresses]⟩
  | cons p rest ih =>
      rcases hcall : reserveRange ranges p.1 p.2 with ⟨ok, ranges₁⟩
      simp only [reserveRanges, hcall] at h
      split at h
      · next htrue =>
          have hcut := reserveRange_cut hok (htrue ▸ hcall)
          obtain ⟨hok', haddresses⟩ := ih hcut.ok h
          refine ⟨hok', ?_⟩
          have hcons : reservedAddresses (p :: rest) =
              Set.Ico (alignDownUintptr p.1 pageSize) (alignUpUintptr p.2 pageSize) ∪
                reservedAddresses rest := by
            ext x
            simp [reservedAddresses]
          rw [haddresses, hcut.addresses, hcons, Set.sdiff_sdiff]
      · simp at h

/-- What `memory_init` leaves when it succeeds. -/
structure Initialised (image : KernelImage) (info : BootInfo) (s : State) : Prop where
  ready : s.ready = true
  ok : TableOk s.freeRanges
  conventional : freeAddresses s.freeRanges ⊆ conventionalAddresses info.memoryMap.entries
  reserved : ∀ p ∈ reservedRanges image info, Disjoint (freeAddresses s.freeRanges)
    (Set.Ico (alignDownUintptr p.1 pageSize) (alignUpUintptr p.2 pageSize))

/-- The steps of a `memory_init` that succeeds. -/
theorem memoryInit_steps (h : memoryInit image (some info) s = (true, s')) :
    ∃ s₁, addDescriptors ⟨[], 0, false⟩ info.memoryMap.entries = (true, s₁) ∧
      reserveRanges s₁.freeRanges (reservedRanges image info) = (true, s'.freeRanges) ∧
      s'.totalPages = s₁.totalPages ∧ s'.ready = true := by
  simp only [memoryInit] at h
  split at h
  · simp at h
  · rcases hadd : addDescriptors ⟨[], 0, false⟩ info.memoryMap.entries with ⟨ok, s₁⟩
    simp only [hadd] at h
    split at h
    · next htrue =>
        rcases hreserve : reserveRanges s₁.freeRanges (reservedRanges image info) with ⟨ok₁, ranges⟩
        simp only [hreserve, Prod.mk.injEq] at h
        obtain ⟨hready, rfl⟩ := h
        have hok₁ : ok₁ = true := (Bool.and_eq_true_iff.1 hready).1
        refine ⟨s₁, by rw [htrue], ?_, rfl, hready⟩
        rw [hreserve, hok₁]
    · simp at h

theorem memoryInit_initialised (hmap : DisjointConventional info.memoryMap.entries)
    (h : memoryInit image (some info) s = (true, s')) : Initialised image info s' := by
  obtain ⟨s₁, hadd, hreserve, -, hready⟩ := memoryInit_steps h
  have hext := addDescriptors_extended hmap hadd
  obtain ⟨hok, haddresses⟩ := reserveRanges_cut hext.ok hreserve
  refine ⟨hready, hok, ?_, ?_⟩
  · rw [haddresses]
    apply Set.sdiff_subset.trans (hext.addresses.trans _)
    simp
  · intro p hp
    rw [haddresses]
    have hin : Set.Ico (alignDownUintptr p.1 pageSize) (alignUpUintptr p.2 pageSize) ⊆
        reservedAddresses (reservedRanges image info) := fun x hx => ⟨p, hp, hx⟩
    exact Set.disjoint_sdiff_left.mono_right hin

/-- No page below 1 MiB is free. -/
theorem Initialised.low (h : Initialised image info s) :
    freeAddresses s.freeRanges ⊆ Set.Ici reservedLowEnd := by
  intro x hx
  by_contra hlow
  have hdisj := h.reserved (0, reservedLowEnd) (by simp [reservedRanges])
  apply Set.disjoint_left.1 hdisj hx
  simp only [Set.mem_Ici, not_le] at hlow
  exact ⟨Nat.zero_le _, hlow⟩

/-- A kernel image just above 1 MiB. -/
def sampleImage : KernelImage := ⟨0x100000, 0x180000⟩

/-- Boot information with the given memory map and no framebuffer. -/
def sampleInfo (entries : List EfiMemoryDescriptor) : BootInfo where
  memoryMap :=
    { base := 0x1000
      size := entries.length * 40
      descriptorSize := 40
      descriptors := fun address => entries.getD ((address - 0x1000) / 40) ⟨0, 0, 0⟩ }
  consoleFlags := 0
  framebufferBase := 0
  framebufferPixelsPerScanline := 0
  framebufferHeight := 0

/-- The state before the kernel has set up its memory. -/
def startState : State := ⟨[], 0, false⟩

/-- The state after `memory_init` on a sample. -/
def sampleState (entries : List EfiMemoryDescriptor) : State :=
  (memoryInit sampleImage (some (sampleInfo entries)) startState).2

theorem memoryInit_sample
    (h : (memoryInit sampleImage (some (sampleInfo entries)) startState).1 = true) :
    memoryInit sampleImage (some (sampleInfo entries)) startState = (true, sampleState entries) :=
  Prod.ext h rfl

end FunnyOS.Memory
