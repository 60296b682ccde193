import FunnyOS.Lib.Ends
import FunnyOS.Boot.KernelImage

/-!
# The rounds of the loader

The loop of `load_kernel_elf` over the program headers as the list of its rounds. Each has the
memory that the ones before have left, and with it the headers as they are then. A run reads and
stores what its rounds say, and returns `EFI_SUCCESS` exactly for an image whose header it accepts
and in whose rounds every loadable segment passes its check and is granted its pages.
-/

namespace FunnyOS.Boot

open Prog
open Programs (littleEndian_lt ptLoad elfMagic elfClass64 emX8664 elf64HeaderSize
  elf64ProgramHeaderSize)

/-! ## The header of an image -/

/-- `phoff`. -/
def KernelImage.phoff (image : KernelImage) (memory : Nat → UInt8) : Nat := image.field memory 32 8

/-- `phnum`. -/
def KernelImage.phnum (image : KernelImage) (memory : Nat → UInt8) : Nat := image.field memory 56 2

/-- `phentsize`. -/
def KernelImage.phentsize (image : KernelImage) (memory : Nat → UInt8) : Nat :=
  image.field memory 54 2

/-- The header is one that the loader goes on with. -/
def KernelImage.accepted (image : KernelImage) (memory : Nat → UInt8) : Bool :=
  elf64HeaderSize ≤ image.size ∧ image.field memory 0 4 = elfMagic ∧
    image.field memory 4 1 = elfClass64 ∧ image.field memory 18 2 = emX8664 ∧
    image.phentsize memory = elf64ProgramHeaderSize ∧
    (image.phoff memory + image.phnum memory * elf64ProgramHeaderSize) % 2 ^ 64 ≤ image.size

/-! ## Rounds -/

/-- A round of the loop: `program_headers` and `i`, and the memory and the granted pages that it
begins with. -/
structure LoadRound (image : KernelImage) where
  programHeaders : Nat
  i : Nat
  memory : Nat → UInt8
  granted : List (Nat × Nat)

variable {image : KernelImage} {firmware : Firmware}

namespace LoadRound

/-- The offset of the program header. -/
def header (round : LoadRound image) : Nat :=
  (round.programHeaders + round.i * image.phentsize round.memory) % 2 ^ 64

/-- The program header is that of a `PT_LOAD` segment. -/
def isLoad (round : LoadRound image) : Bool := image.field round.memory round.header 4 = ptLoad

/-- The segment of the program header. -/
def segment (round : LoadRound image) : LoadSegment := image.segment round.memory round.header

/-- The segment as the program header has it when the segment has been zeroed. -/
def copied (round : LoadRound image) : LoadSegment :=
  image.segment (memSet round.segment.paddr round.segment.memsz round.memory) round.header

/-- The segment passes its check and is granted its pages. -/
def takes (firmware : Firmware) (round : LoadRound image) : Bool :=
  !round.segment.rejected image.size &&
    firmware.allocatePages round.granted round.segment.base round.segment.pages

/-- A segment is loaded. -/
def loads (firmware : Firmware) (round : LoadRound image) : Bool :=
  round.isLoad && round.takes firmware

/-- A segment cannot be loaded. -/
def fails (firmware : Firmware) (round : LoadRound image) : Bool :=
  round.isLoad && !round.takes firmware

/-- The round behind one that does not fail. -/
def next (round : LoadRound image) : LoadRound image where
  programHeaders := round.programHeaders
  i := round.i + 1
  memory := if round.isLoad then
      memCopy round.copied.paddr (image.address + round.copied.offset) round.copied.filesz
        (memSet round.segment.paddr round.segment.memsz round.memory)
    else round.memory
  granted := if round.isLoad then (round.segment.base, round.segment.pages) :: round.granted
    else round.granted

/-- A field of 8 bytes of the program header. -/
def quad (round : LoadRound image) (offset : Nat) : Nat × Nat := (round.header + offset, 8)

/-- What a round reads behind `phnum` and `phentsize`, the last first. -/
def reads (firmware : Firmware) (round : LoadRound image) : List (Nat × Nat) :=
  (if round.loads firmware then
    (round.copied.offset, round.copied.filesz) :: [8, 24, 32].map round.quad else []) ++
  (if round.isLoad then [24, 40, 32, 8].map round.quad else []) ++ [(round.header, 4)]

/-- What a round stores, the last first. -/
def stores (firmware : Firmware) (round : LoadRound image) : List SegmentStore :=
  if round.loads firmware then [round.segment.store round.copied.paddr round.copied.filesz,
    round.segment.store round.segment.paddr round.segment.memsz] else []

/-- The rounds from one on, `n` of them at most. -/
def rounds (firmware : Firmware) : Nat → LoadRound image → List (LoadRound image)
  | 0, _ => []
  | n + 1, round =>
    if round.i < image.phnum round.memory then
      round :: if round.fails firmware then [] else rounds firmware n round.next
    else []

end LoadRound

/-- The round that begins in a state. -/
def KernelLoadState.round (s : KernelLoadState) (image : KernelImage) (phoff i : Nat) :
    LoadRound image := ⟨phoff, i, s.memory, s.granted⟩

/-- The rounds of `load_kernel_elf`. -/
def KernelImage.rounds (image : KernelImage) (firmware : Firmware) (memory : Nat → UInt8) :
    List (LoadRound image) :=
  if image.accepted memory then
    LoadRound.rounds firmware (2 ^ 16) ⟨image.phoff memory, 0, memory, []⟩
  else []

/-- The image can be loaded. -/
def KernelImage.Loads (image : KernelImage) (firmware : Firmware) (memory : Nat → UInt8) : Prop :=
  image.accepted memory = true ∧
    ∀ round ∈ image.rounds firmware memory, round.fails firmware = false

/-- What the loader returns early with. -/
def Refused (status : Nat) : Prop := status = 1 ∨ status = efiOutOfResources

theorem KernelImage.field_lt {memory : Nat → UInt8} {offset count : Nat} :
    image.field memory offset count < 256 ^ count := littleEndian_lt

/-! ## A round -/

section

variable {s s' s'' : KernelLoadState} {phoff i offset count : Nat} {round : LoadRound image}
  {rounds rounds' : List (LoadRound image)}

/-- A field that is read before something else. -/
theorem readField_bind_ends {α : Type} {f : Nat → KernelLoad α} {Q : α → KernelLoadState → Prop}
    {E : Nat → KernelLoadState → Prop} (h : Ends (f (image.field s.memory offset count))
      { s with reads := (offset, count) :: s.reads } Q E) :
    Ends (readField image offset count >>= f) s Q E := h

/-- Between the states a round has read and stored what it says. -/
structure Ran (firmware : Firmware) (round : LoadRound image) (s s' : KernelLoadState) : Prop where
  reads : s'.reads = round.reads firmware ++ (54, 2) :: (56, 2) :: s.reads
  stores : s'.stores = round.stores firmware ++ s.stores

attribute [local irreducible] KernelImage.field

theorem readSegment_ends : Ends (readSegment image offset) s
    (fun segment s' => segment = image.segment s.memory offset ∧ s' = { s with
      reads := [(offset + 24, 8), (offset + 40, 8), (offset + 32, 8), (offset + 8, 8)] ++ s.reads })
    (fun _ _ => False) := by
  unfold readSegment
  apply readField_bind_ends
  apply readField_bind_ends
  apply readField_bind_ends
  apply readField_bind_ends
  exact Ends.pure ⟨rfl, rfl⟩

/-- A segment that passes its check is loaded if its pages are granted. -/
theorem copySegment_ends (hround : s.round image phoff i = round) (hload : round.isLoad = true)
    (hrejected : round.segment.rejected image.size = false) :
    Ends (copySegment image firmware round.header round.segment) s
      (fun _ s' => round.takes firmware = true ∧ s'.round image phoff (i + 1) = round.next ∧
        s'.reads = [(round.copied.offset, round.copied.filesz), (round.header + 8, 8),
          (round.header + 24, 8), (round.header + 32, 8)] ++ s.reads ∧
        s'.stores = [round.segment.store round.copied.paddr round.copied.filesz,
          round.segment.store round.segment.paddr round.segment.memsz] ++ s.stores)
      (fun status s' => Refused status ∧ round.takes firmware = false ∧ s' = s) := by
  have hgranted : s.granted = round.granted := by rw [← hround]; rfl
  have hmemory : s.memory = round.memory := by rw [← hround]; rfl
  have hgrant : Ends (allocatePages firmware round.segment.base round.segment.pages) s
      (fun _ s' => round.takes firmware = true ∧
        s' = { s with granted := (round.segment.base, round.segment.pages) :: s.granted })
      (fun status s' => Refused status ∧ round.takes firmware = false ∧ s' = s) := by
    unfold LoadRound.takes
    rw [hrejected, ← hgranted]
    refine Ends.get_bind (Ends.ite (fun h => Ends.modify ⟨?_, rfl⟩) fun h =>
      Ends.raise ⟨.inr rfl, ?_, rfl⟩)
    · rw [h]
      rfl
    · rw [Bool.eq_false_iff.mpr h]
      rfl
  refine Ends.bind hgrant (fun _ _ h => h) ?_
  rintro _ s₁ ⟨htakes, rfl⟩
  refine Ends.modify_bind ?_
  apply readField_bind_ends
  apply readField_bind_ends
  apply readField_bind_ends
  refine Ends.modify_bind (Ends.modify ⟨htakes, ?_, ?_, ?_⟩)
  · subst hround
    unfold LoadRound.next
    rw [if_pos hload, if_pos hload]
    rfl
  · subst hround
    rfl
  · subst hround
    rfl

/-- A round reads and stores what it says, and fails where it says so. -/
theorem loadSegment_ends (hround : s.round image phoff i = round) :
    Ends (loadSegment image firmware phoff i) s
      (fun r s' => match r with
        | .done _ => ¬ i < image.phnum s.memory ∧ s' = { s with reads := (56, 2) :: s.reads }
        | .again j => i < image.phnum s.memory ∧ round.fails firmware = false ∧ j = i + 1 ∧
            s'.round image phoff (i + 1) = round.next ∧ Ran firmware round s s')
      (fun status s' => i < image.phnum s.memory ∧ Refused status ∧ round.fails firmware = true ∧
        Ran firmware round s s') := by
  unfold loadSegment
  apply readField_bind_ends
  refine Ends.ite (fun hend => Ends.pure ⟨hend, rfl⟩) fun hmore => ?_
  have hi : i < image.phnum s.memory := not_not.mp hmore
  apply readField_bind_ends
  apply readField_bind_ends
  refine Ends.ite (fun hother => ?_) fun hload => ?_
  · have hload : round.isLoad = false := by
      subst hround
      exact decide_eq_false hother
    refine Ends.pure ⟨hi, ?_, rfl, ?_, ?_, ?_⟩
    · rw [LoadRound.fails, hload]
      rfl
    · subst hround
      unfold LoadRound.next
      simp only [hload]
      rfl
    · unfold LoadRound.reads LoadRound.loads
      rw [hload]
      subst hround
      rfl
    · unfold LoadRound.stores LoadRound.loads
      rw [hload]
      rfl
  have hload : round.isLoad = true := by
    subst hround
    exact decide_eq_true (not_not.mp hload)
  have hheader : (phoff + i * image.field s.memory 54 2) % 2 ^ 64 = round.header := by
    subst hround
    rfl
  rw [hheader]
  refine Ends.bind readSegment_ends (fun _ _ h => h.elim) ?_
  rintro segment s₁ ⟨hsegment, hs₁⟩
  have hround₁ : s₁.round image phoff i = round := by
    rw [hs₁, ← hround]
    rfl
  have hsegment : segment = round.segment := by
    rw [hsegment, ← hround]
    rfl
  rw [hsegment]
  refine Ends.ite (fun hrejected => ?_) fun hrejected => ?_
  · have htakes : round.takes firmware = false := by
      rw [LoadRound.takes, hrejected]
      rfl
    refine Ends.raise ⟨hi, .inl rfl, ?_, ?_, ?_⟩
    · rw [LoadRound.fails, hload, htakes]
      rfl
    · rw [hs₁, LoadRound.reads, LoadRound.loads, hload, htakes]
      rfl
    · rw [hs₁, LoadRound.stores, LoadRound.loads, hload, htakes]
      rfl
  refine Ends.bind (copySegment_ends hround₁ hload (Bool.eq_false_iff.mpr hrejected)) ?_ ?_
  · rintro status s' ⟨hrefused, htakes, hs'⟩
    refine ⟨hi, hrefused, ?_, ?_, ?_⟩
    · rw [LoadRound.fails, hload, htakes]
      rfl
    · rw [hs', hs₁, LoadRound.reads, LoadRound.loads, hload, htakes]
      rfl
    · rw [hs', hs₁, LoadRound.stores, LoadRound.loads, hload, htakes]
      rfl
  · rintro _ s' ⟨htakes, hnext, hreads, hstores⟩
    refine Ends.pure ⟨hi, ?_, rfl, hnext, ?_, ?_⟩
    · rw [LoadRound.fails, hload, htakes]
      rfl
    · rw [hreads, hs₁, LoadRound.reads, LoadRound.loads, hload, htakes]
      rfl
    · rw [hstores, hs₁, LoadRound.stores, LoadRound.loads, hload, htakes]
      rfl

/-! ## A run -/

/-- Between the states the rounds have been run, and the file header has been read. -/
structure Did (firmware : Firmware) (rounds : List (LoadRound image)) (s s' : KernelLoadState) :
    Prop where
  stores : ∀ store, store ∈ s'.stores ↔
    store ∈ s.stores ∨ ∃ round ∈ rounds, store ∈ round.stores firmware
  reads : ∀ read ∈ s'.reads, read ∈ s.reads ∨ read.1 + read.2 ≤ elf64HeaderSize ∨
    ∃ round ∈ rounds, read ∈ round.reads firmware
  done : ∀ round ∈ rounds, ∀ read ∈ round.reads firmware, read ∈ s'.reads
  grows : ∀ read ∈ s.reads, read ∈ s'.reads

theorem Did.of_reads (new : List (Nat × Nat)) (hreads : s'.reads = new ++ s.reads)
    (hheader : ∀ read ∈ new, read.1 + read.2 ≤ elf64HeaderSize) (hstores : s'.stores = s.stores) :
    Did firmware ([] : List (LoadRound image)) s s' := by
  refine ⟨fun store => by simp [hstores], fun read hread => ?_,
    fun _ h => absurd h List.not_mem_nil, fun read hread => ?_⟩
  · rw [hreads] at hread
    rcases List.mem_append.mp hread with hnew | hold
    · exact .inr (.inl (hheader read hnew))
    · exact .inl hold
  · rw [hreads]
    exact List.mem_append_right _ hread

theorem Did.trans (h : Did firmware rounds s s') (h' : Did firmware rounds' s' s'') :
    Did firmware (rounds ++ rounds') s s'' := by
  refine ⟨fun store => ?_, fun read hread => ?_, fun round hround read hread => ?_,
    fun read hread => h'.grows read (h.grows read hread)⟩
  · rw [h'.stores, h.stores, or_assoc]
    simp only [List.mem_append, or_and_right, exists_or]
  · rcases h'.reads read hread with hread | hheader | ⟨round, hround, hread⟩
    · rcases h.reads read hread with hread | hheader | ⟨round, hround, hread⟩
      · exact .inl hread
      · exact .inr (.inl hheader)
      · exact .inr (.inr ⟨round, List.mem_append_left _ hround, hread⟩)
    · exact .inr (.inl hheader)
    · exact .inr (.inr ⟨round, List.mem_append_right _ hround, hread⟩)
  · rcases List.mem_append.mp hround with hround | hround
    · exact h'.grows read (h.done round hround read hread)
    · exact h'.done round hround read hread

theorem Ran.did (h : Ran firmware round s s') : Did firmware [round] s s' := by
  refine ⟨fun store => ?_, fun read hread => ?_, fun other hother read hread => ?_,
    fun read hread => ?_⟩
  · rw [h.stores, List.mem_append]
    simp only [List.mem_singleton, exists_eq_left]
    exact or_comm
  · rw [h.reads, List.mem_append, List.mem_cons, List.mem_cons] at hread
    rcases hread with hround | rfl | rfl | hold
    · exact .inr (.inr ⟨round, List.mem_singleton_self round, hround⟩)
    · exact .inr (.inl (by decide))
    · exact .inr (.inl (by decide))
    · exact .inl hold
  · rw [List.mem_singleton.mp hother] at hread
    rw [h.reads]
    exact List.mem_append_left _ hread
  · rw [h.reads]
    exact List.mem_append_right _ (List.mem_cons_of_mem _ (List.mem_cons_of_mem _ hread))

/-- The loop from a round on, by induction on the numbers that `i` has left. It ends with `phnum`,
whatever that has become: `i` cannot wrap. -/
theorem loadSegments_ends {n fuel : Nat} (hround : s.round image phoff i = round)
    (hi : i + n + 1 = 2 ^ 16) (hfuel : n < fuel) :
    Ends (loop (loadSegment image firmware phoff) fuel i) s
      (fun _ s' => (∀ r ∈ round.rounds firmware (n + 1), r.fails firmware = false) ∧
        Did firmware (round.rounds firmware (n + 1)) s s')
      (fun status s' => (¬ ∀ r ∈ round.rounds firmware (n + 1), r.fails firmware = false) ∧
        Did firmware (round.rounds firmware (n + 1)) s s' ∧ Refused status) := by
  induction n generalizing fuel i s round with
  | zero =>
    obtain ⟨fuel, rfl⟩ := Nat.exists_eq_add_one_of_ne_zero (Nat.ne_of_gt hfuel)
    have hphnum : image.phnum s.memory < 2 ^ 16 := KernelImage.field_lt
    have hend : ¬ i < image.phnum s.memory := by omega
    have hnone : round.rounds firmware (0 + 1) = [] := by
      subst hround
      exact if_neg hend
    rw [hnone]
    refine Ends.bind (loadSegment_ends hround) (fun status s' h => absurd h.1 hend) ?_
    rintro (j | _) s' hr
    · exact absurd hr.1 hend
    · exact Ends.pure ⟨fun _ h => absurd h List.not_mem_nil, .of_reads [(56, 2)]
        (by rw [hr.2]; rfl) (by decide) (by rw [hr.2])⟩
  | succ n ih =>
    obtain ⟨fuel, rfl⟩ := Nat.exists_eq_add_one_of_ne_zero (Nat.ne_of_gt (Nat.zero_lt_of_lt hfuel))
    have hrounds : round.rounds firmware (n + 1 + 1) = if i < image.phnum s.memory then
        round :: if round.fails firmware then [] else round.next.rounds firmware (n + 1)
        else [] := by
      subst hround
      rfl
    rw [hrounds]
    refine Ends.bind (loadSegment_ends hround) ?_ ?_
    · rintro status s' ⟨hmore, hrefused, hfails, hran⟩
      rw [if_pos hmore, if_pos hfails]
      refine ⟨fun hall => ?_, hran.did, hrefused⟩
      exact absurd (hfails.symm.trans (hall round List.mem_cons_self)) (by decide)
    · rintro (j | _) s₁ hr
      · obtain ⟨hmore, hfails, rfl, hnext, hran⟩ := hr
        rw [if_pos hmore, hfails, if_neg Bool.false_ne_true]
        refine Ends.mono (ih hnext (by omega) (by omega)) ?_ ?_
        · rintro _ s' ⟨hall, hdid⟩
          exact ⟨List.forall_mem_cons.mpr ⟨hfails, hall⟩, hran.did.trans hdid⟩
        · rintro status s' ⟨hnot, hdid, hrefused⟩
          exact ⟨fun hall => hnot (List.forall_mem_cons.mp hall).2, hran.did.trans hdid, hrefused⟩
      · rw [if_neg hr.1]
        exact Ends.pure ⟨fun _ h => absurd h List.not_mem_nil, .of_reads [(56, 2)]
          (by rw [hr.2]; rfl) (by decide) (by rw [hr.2])⟩

/-- Nothing has been loaded yet. -/
def KernelLoadState.start (memory : Nat → UInt8) : KernelLoadState := ⟨memory, [], [], []⟩

/-- What a run does: its rounds have been run, and nothing is read of a file that is too small. -/
structure RunDid (image : KernelImage) (firmware : Firmware) (s s' : KernelLoadState) : Prop where
  did : Did firmware (image.rounds firmware s.memory) s s'
  small : image.size < elf64HeaderSize → s'.reads = s.reads

/-- `load_kernel_elf` fails with one of its two own values, and exactly where the image cannot be
loaded. -/
theorem loadKernelElf_ends (hgranted : s.granted = []) : Ends (loadKernelElf image firmware) s
    (fun _ s' => image.Loads firmware s.memory ∧ RunDid image firmware s s')
    (fun status s' => ¬ image.Loads firmware s.memory ∧ RunDid image firmware s s' ∧
      Refused status) := by
  have hrefuse : ∀ (new : List (Nat × Nat)) {s'}, image.accepted s.memory = false →
      s'.reads = new ++ s.reads → (∀ read ∈ new, read.1 + read.2 ≤ elf64HeaderSize) →
      s'.stores = s.stores → (image.size < elf64HeaderSize → new = []) →
      ¬ image.Loads firmware s.memory ∧ RunDid image firmware s s' ∧ Refused 1 := by
    intro new s' h hreads hheader hstores hsmall
    refine ⟨fun hloads => absurd (h.symm.trans hloads.1) (by decide), ⟨?_, fun hsize => ?_⟩,
      .inl rfl⟩
    · rw [KernelImage.rounds, h]
      exact .of_reads new hreads hheader hstores
    · rw [hreads, hsmall hsize]
      rfl
  unfold loadKernelElf
  refine Ends.ite (fun hsmall => Ends.raise (hrefuse [] ?_ rfl (by simp) rfl
    fun _ => rfl)) fun hsize => ?_
  · exact decide_eq_false fun h => absurd h.1 (not_le.mpr hsmall)
  apply readField_bind_ends
  apply readField_bind_ends
  apply readField_bind_ends
  refine Ends.ite (fun hkind => Ends.raise (hrefuse [(18, 2), (4, 1), (0, 4)] ?_ rfl
    (by decide) rfl fun h => absurd h hsize)) fun hkind => ?_
  · exact decide_eq_false (by tauto)
  apply readField_bind_ends
  refine Ends.ite (fun hentry => Ends.raise (hrefuse [(54, 2), (18, 2), (4, 1), (0, 4)] ?_
    rfl (by decide) rfl fun h => absurd h hsize)) fun hentry => ?_
  · exact decide_eq_false fun h => hentry h.2.2.2.2.1
  have hentry : image.phentsize s.memory = elf64ProgramHeaderSize := not_not.mp hentry
  apply readField_bind_ends
  apply readField_bind_ends
  refine Ends.ite (fun htable => Ends.raise (hrefuse
    [(56, 2), (32, 8), (54, 2), (18, 2), (4, 1), (0, 4)] ?_
    rfl (by decide) rfl fun h => absurd h hsize)) fun htable => ?_
  · refine decide_eq_false fun h => absurd h.2.2.2.2.2 (not_le.mpr ?_)
    rw [← hentry]
    exact htable
  have haccepted : image.accepted s.memory = true := by
    refine decide_eq_true ⟨not_lt.mp hsize, ?_, ?_, ?_, hentry, ?_⟩
    · tauto
    · tauto
    · tauto
    · rw [← hentry]
      exact not_lt.mp htable
  have hrounds : LoadRound.rounds firmware (2 ^ 16) ⟨image.phoff s.memory, 0, s.memory, s.granted⟩
      = image.rounds firmware s.memory := by
    rw [KernelImage.rounds, if_pos haccepted, hgranted]
  have hdone : ∀ {s' s'' : KernelLoadState}, Did firmware (image.rounds firmware s.memory) s' s'' →
      s'.reads = [(56, 2), (32, 8), (54, 2), (18, 2), (4, 1), (0, 4)] ++ s.reads →
      s'.stores = s.stores → RunDid image firmware s s'' :=
    fun hdid hreads hstores => ⟨(Did.of_reads _ hreads (by decide) hstores).trans hdid,
      fun hsmall => absurd hsmall hsize⟩
  refine Ends.bind (loadSegments_ends (n := 2 ^ 16 - 1) rfl (by decide) (by decide)) ?_ ?_
  · rintro status s' ⟨hnot, hdid, hrefused⟩
    change ¬ ∀ r ∈ LoadRound.rounds firmware (2 ^ 16)
      ⟨image.phoff s.memory, 0, s.memory, s.granted⟩, _ at hnot
    change Did firmware (LoadRound.rounds firmware (2 ^ 16)
      ⟨image.phoff s.memory, 0, s.memory, s.granted⟩) _ _ at hdid
    rw [hrounds] at hnot hdid
    exact ⟨fun hloads => hnot hloads.2, hdone hdid rfl rfl, hrefused⟩
  · rintro _ s' ⟨hall, hdid⟩
    change ∀ r ∈ LoadRound.rounds firmware (2 ^ 16)
      ⟨image.phoff s.memory, 0, s.memory, s.granted⟩, _ at hall
    change Did firmware (LoadRound.rounds firmware (2 ^ 16)
      ⟨image.phoff s.memory, 0, s.memory, s.granted⟩) _ _ at hdid
    rw [hrounds] at hall hdid
    have hentry : Did firmware ([] : List (LoadRound image)) s'
        { s' with reads := (24, 8) :: s'.reads } := .of_reads [(24, 8)] rfl (by decide) rfl
    have hdid := hdid.trans hentry
    rw [List.append_nil] at hdid
    exact ⟨⟨haccepted, hall⟩, hdone hdid rfl rfl⟩

end

end FunnyOS.Boot
