import FunnyOS.Boot.LoadedKernel

/-!
# What the loader reads and writes

The bounds of the image hold as long as no sum of the file wraps, and the pages cover a segment as
long as the 32-bit mask and the roundings do not cut anything off. A segment can be stored over the
headers themselves, which are then read again: only then does it matter where they lead.
-/

namespace FunnyOS.Boot

open Prog
open Programs (littleEndian elf64HeaderSize elf64ProgramHeaderSize)

/-! ## Arithmetic -/

/-- A mask of the bits from `k` to before `n`. -/
theorem and_mask (x : Nat) {n k : Nat} (h : k ≤ n) :
    x &&& (2 ^ n - 2 ^ k) = x % 2 ^ n / 2 ^ k * 2 ^ k := by
  have hmask : 2 ^ n - 2 ^ k = (2 ^ (n - k) - 1) * 2 ^ k := by
    rw [Nat.sub_mul, ← pow_add, Nat.sub_add_cancel h, one_mul]
  refine Nat.eq_of_testBit_eq fun i => ?_
  rw [hmask, Nat.testBit_and, Nat.testBit_mul_two_pow, Nat.testBit_mul_two_pow,
    Nat.testBit_two_pow_sub_one, Nat.testBit_div_two_pow, Nat.testBit_mod_two_pow]
  by_cases hk : k ≤ i
  · by_cases hn : i < n
    · simp [hk, hn, show i - k < n - k by omega, Nat.sub_add_cancel hk]
    · simp [hk, hn, show ¬ i - k < n - k by omega, Nat.sub_add_cancel hk]
  · simp [hk]

theorem alignUp_eq (value : Nat) : alignUp value 4096 = (value + 4095) % 2 ^ 64 / 4096 * 4096 := by
  have h := and_mask ((value + 4095) % 2 ^ 64) (n := 64) (k := 12) (by decide)
  rw [Nat.mod_mod] at h
  exact h

variable {segment : LoadSegment}

theorem LoadSegment.base_eq : segment.base = segment.paddr % 2 ^ 32 / 4096 * 4096 :=
  and_mask segment.paddr (n := 32) (k := 12) (by decide)

theorem LoadSegment.pages_eq : segment.pages =
    ((segment.memsz + segment.paddr % 4096) % 2 ^ 64 + 4095) % 2 ^ 64 / 4096 := by
  have hlow : segment.paddr &&& 0xFFF = segment.paddr % 4096 :=
    Nat.and_two_pow_sub_one_eq_mod segment.paddr 12
  rw [LoadSegment.pages, hlow, alignUp_eq, Nat.mul_div_cancel _ (by decide)]

variable {image : KernelImage} {firmware : Firmware} {memory memory' : Nat → UInt8}
  {round : LoadRound image}

-- the numbers in an image are not evaluated
attribute [local irreducible] KernelImage.field

/-! ## The rounds of an image -/

theorem loadKernelElf_did (image : KernelImage) (firmware : Firmware) (memory : Nat → UInt8) :
    RunDid image firmware (.start memory) (loadKernelElf image firmware (.start memory)).state :=
  Ends.state (Ends.mono (loadKernelElf_ends rfl) (fun _ _ h => h.2) fun _ _ h => h.2.1)

theorem LoadRound.mem_rounds_self {n : Nat} (h : round.i < image.phnum round.memory) :
    round ∈ round.rounds firmware (n + 1) := by
  rw [LoadRound.rounds, if_pos h]
  exact List.mem_cons_self

/-- The round with the first program header. -/
def KernelImage.firstRound (image : KernelImage) (memory : Nat → UInt8) : LoadRound image :=
  ⟨image.phoff memory, 0, memory, []⟩

theorem KernelImage.firstRound_mem (haccepted : image.accepted memory = true)
    (hphnum : 0 < image.phnum memory) : image.firstRound memory ∈ image.rounds firmware memory := by
  rw [KernelImage.rounds, if_pos haccepted]
  have hfirst : (image.firstRound memory).i < image.phnum (image.firstRound memory).memory := hphnum
  exact LoadRound.mem_rounds_self (n := 2 ^ 16 - 1) hfirst

/-- A segment that is loaded has passed its check, and its pages are granted. -/
theorem LoadRound.loaded (h : round.loads firmware = true) :
    (round.segment.offset + round.segment.filesz) % 2 ^ 64 ≤ image.size ∧
      round.segment.filesz ≤ round.segment.memsz ∧
      round.segment.base + round.segment.pages * 4096 ≤ 2 ^ 64 := by
  unfold LoadRound.loads LoadRound.takes at h
  obtain ⟨-, hchecked, hgranted⟩ := (Bool.and_eq_true_iff.mp h).imp_right Bool.and_eq_true_iff.mp
  have hnot := of_decide_eq_false ((Bool.not_eq_true' _).mp hchecked)
  exact ⟨not_lt.mp fun h => hnot (.inl h), not_lt.mp fun h => hnot (.inr h),
    firmware.inRange _ _ _ hgranted⟩

/-! ## The bounds of the image -/

/-- A program header of the table that has been checked. -/
def LoadRound.InTable (round : LoadRound image) (memory : Nat → UInt8) : Prop :=
  round.i < image.phnum memory ∧ image.phentsize round.memory = elf64ProgramHeaderSize

/-- A firmware that grants any pages below 4 GiB. -/
def lowMemory : Firmware where
  allocatePages _ base pages := base + pages * 4096 ≤ 2 ^ 32
  inRange _ base pages h := by
    have hle := of_decide_eq_true h
    omega

/-- A file of the given bytes in a buffer at 4 GiB. -/
def imageOf (bytes : List UInt8) (h : bytes.length < 2 ^ 63) : KernelImage :=
  ⟨2 ^ 32, bytes.length, h⟩

/-- A memory with nothing but the file. -/
def memoryOf (bytes : List UInt8) : Nat → UInt8 := fun a =>
  bytes.getD ((a + 2 ^ 64 - 2 ^ 32) % 2 ^ 64) 0

/-- The number in 8 bytes. -/
def quad (value : Nat) : List UInt8 := (List.range 8).map fun i => .ofNat (value / 256 ^ i)

/-- A file header with the program headers at an offset. -/
def fileHeader (phoff : Nat) : List UInt8 :=
  [0x7F, 0x45, 0x4C, 0x46, 2, 1, 1, 0, 0, 0, 0, 0, 0, 0, 0, 0, 2, 0, 62, 0, 1, 0, 0, 0] ++
    quad 0x200000 ++ quad phoff ++ quad 0 ++
    [0, 0, 0, 0, 64, 0, 56, 0, 1, 0, 0, 0, 0, 0, 0, 0]

/-- A file with one `PT_LOAD` segment. -/
def segmentFile (offset paddr filesz memsz : Nat) : List UInt8 :=
  fileHeader 64 ++ [1, 0, 0, 0, 7, 0, 0, 0] ++ quad offset ++ quad paddr ++ quad paddr ++
    quad filesz ++ quad memsz ++ quad 4096

/-- The pages that have been granted are those of the bytes that are stored. -/
structure SegmentStore.Covered (store : SegmentStore) : Prop where
  base : store.base = store.start / 4096 * 4096
  pages : store.start + store.count ≤ store.base + store.pages * 4096
  inside : ∀ i < store.count, store.base ≤ (store.start + i) % 2 ^ 64 ∧
    (store.start + i) % 2 ^ 64 < store.base + store.pages * 4096

/-- Neither the mask nor a rounding cuts anything off. -/
def LoadSegment.Fits (segment : LoadSegment) : Prop :=
  segment.paddr < 2 ^ 32 ∧ segment.memsz + segment.paddr % 4096 + 4095 < 2 ^ 64

theorem LoadSegment.fits_of_covered (h : (segment.store segment.paddr segment.memsz).Covered) :
    segment.Fits := by
  have hbase := h.base
  have hpages := h.pages
  simp only [LoadSegment.store, LoadSegment.base_eq, LoadSegment.pages_eq] at hbase hpages
  have hpaddr : segment.paddr < 2 ^ 32 := by omega
  refine ⟨hpaddr, ?_⟩
  by_contra hwraps
  omega

/-- A store in the pages of a segment that fits. -/
theorem LoadSegment.covered_of_fits {start count : Nat} (h : segment.Fits)
    (hgranted : segment.base + segment.pages * 4096 ≤ 2 ^ 64)
    (hstart : start / 4096 = segment.paddr / 4096)
    (hcount : start + count ≤ segment.paddr + segment.memsz) :
    (segment.store start count).Covered := by
  obtain ⟨hpaddr, hfits⟩ := h
  have hbase : segment.base = segment.paddr / 4096 * 4096 := by
    rw [LoadSegment.base_eq, Nat.mod_eq_of_lt hpaddr]
  have hpages : segment.pages = (segment.memsz + segment.paddr % 4096 + 4095) / 4096 := by
    rw [LoadSegment.pages_eq, Nat.mod_eq_of_lt (by omega), Nat.mod_eq_of_lt (by omega)]
  have hcovers : start + count ≤ segment.base + segment.pages * 4096 := by
    rw [hbase, hpages]
    omega
  refine ⟨?_, hcovers, fun i hi => ?_⟩
  · simp only [LoadSegment.store]
    rw [hbase, hstart]
  · simp only [LoadSegment.store] at hi ⊢
    rw [Nat.mod_eq_of_lt (by omega)]
    omega

/-- Numbers of smaller bytes are smaller. -/
theorem KernelImage.field_le {offset count : Nat} (h : ∀ a, memory' a ≤ memory a) :
    image.field memory' offset count ≤ image.field memory offset count := by
  have hfold : ∀ indices : List Nat,
      (indices.map fun i => memory' ((image.address + offset + i) % 2 ^ 64)).foldr
        (fun byte rest => byte.toNat + 256 * rest) 0 ≤
      (indices.map fun i => memory ((image.address + offset + i) % 2 ^ 64)).foldr
        (fun byte rest => byte.toNat + 256 * rest) 0 := by
    intro indices
    induction indices with
    | nil => exact le_rfl
    | cons i indices ih =>
      simp only [List.map_cons, List.foldr_cons]
      exact Nat.add_le_add (UInt8.le_iff_toNat_le.mp (h _)) (Nat.mul_le_mul_left 256 ih)
  unfold KernelImage.field littleEndian
  rw [List.drop_zero, List.drop_zero, List.take_of_length_le (by simp),
    List.take_of_length_le (by simp)]
  exact hfold _

theorem memSet_le {address count : Nat} (a : Nat) : memSet address count memory a ≤ memory a := by
  unfold memSet
  split
  · exact UInt8.zero_le
  · exact UInt8.le_refl _

theorem fits_of_storesCovered
    (h : ∀ store ∈ (loadKernelElf image firmware (.start memory)).state.stores, store.Covered)
    (hround : round ∈ image.rounds firmware memory) (hloads : round.loads firmware = true) :
    round.segment.Fits ∧ round.copied.paddr / 4096 = round.segment.paddr / 4096 := by
  have hdid := (loadKernelElf_did image firmware memory).did
  have hstores : ∀ store ∈ round.stores firmware, store.Covered := fun store hstore =>
    h store ((hdid.stores store).mpr (.inr ⟨round, hround, hstore⟩))
  unfold LoadRound.stores at hstores
  rw [if_pos hloads] at hstores
  have hfits := LoadSegment.fits_of_covered
    (hstores _ (List.mem_cons_of_mem _ (List.mem_singleton_self _)))
  have hbase := (hstores _ List.mem_cons_self).base
  simp only [LoadSegment.store, LoadSegment.base_eq, Nat.mod_eq_of_lt hfits.1] at hbase
  exact ⟨hfits, by omega⟩

/-- Everything that is stored lies in the pages granted for it, and these are the pages of the
segment, exactly if every segment that is loaded begins below 4 GiB, its size does not wrap in the
roundings, and its program header, where that has been zeroed with it, still has it begin in the
same page. -/
theorem storesCovered_iff (image : KernelImage) (firmware : Firmware) (memory : Nat → UInt8) :
    (∀ store ∈ (loadKernelElf image firmware (.start memory)).state.stores, store.Covered) ↔
      ∀ round ∈ image.rounds firmware memory, round.loads firmware = true →
        round.segment.paddr < 2 ^ 32 ∧
        round.segment.memsz + round.segment.paddr % 4096 + 4095 < 2 ^ 64 ∧
        round.copied.paddr / 4096 = round.segment.paddr / 4096 := by
  refine ⟨fun h round hround hloads => ?_, fun h store hstore => ?_⟩
  · obtain ⟨hfits, hpage⟩ := fits_of_storesCovered h hround hloads
    exact ⟨hfits.1, hfits.2, hpage⟩
  have hdid := (loadKernelElf_did image firmware memory).did
  rcases (hdid.stores store).mp hstore with hstart | ⟨round, hround, hstore⟩
  · exact absurd hstart List.not_mem_nil
  unfold LoadRound.stores at hstore
  split_ifs at hstore with hloads
  · obtain ⟨hpaddr, hsize, hpage⟩ := h round hround hloads
    obtain ⟨-, hfilesz, hgranted⟩ := round.loaded hloads
    rcases List.mem_cons.mp hstore with rfl | hstore
    · have hstart : round.copied.paddr ≤ round.segment.paddr := KernelImage.field_le memSet_le
      have hcount : round.copied.filesz ≤ round.segment.filesz := KernelImage.field_le memSet_le
      exact LoadSegment.covered_of_fits ⟨hpaddr, hsize⟩ hgranted hpage (by omega)
    · rw [List.mem_singleton.mp hstore]
      exact LoadSegment.covered_of_fits ⟨hpaddr, hsize⟩ hgranted rfl le_rfl
  · exact absurd hstore List.not_mem_nil

/-- A segment above 4 GiB. -/
def highSegment : List UInt8 := segmentFile 0 0x100200000 0 16

/-- Pages at 2 MiB are granted for a segment that is then stored at 4 GiB + 2 MiB. -/
theorem highSegment_notCovered :
    ¬ ∀ store ∈ (loadKernelElf (imageOf highSegment (by decide)) lowMemory
      (.start (memoryOf highSegment))).state.stores, store.Covered := by
  intro h
  let first := (imageOf highSegment (by decide +kernel)).firstRound (memoryOf highSegment)
  have hsegment : first.segment = ⟨0, 0x100200000, 0, 16⟩ := by decide +kernel
  have hfits := (fits_of_storesCovered h
    (KernelImage.firstRound_mem (by decide +kernel) (by decide +kernel)) (by decide +kernel)).1
  have hpaddr : first.segment.paddr < 2 ^ 32 := hfits.1
  rw [hsegment] at hpaddr
  exact absurd hpaddr (by decide)

end FunnyOS.Boot
