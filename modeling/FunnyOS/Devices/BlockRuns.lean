import FunnyOS.Devices.BlockInit

/-!
# Runs of the block layer

Whichever disk `block_init` has bound, the block layer is a store of bytes whose writes may fail. A
read delivers what has been written last, unless the driver has given up on an ATA drive before, or
such a drive has ended a write with an error.
-/

namespace FunnyOS.Devices

open Boot (AhciDeviceAddress BootInfo)
open Prog

/-! ## Bytes of an ATA disk -/

/-- The word that a byte of a sector belongs to. -/
def wordOf (k : Nat × Nat) : Nat × Nat := (k.1, k.2 / 2)

/-- The byte of a word. -/
def byteOfWord (k : Nat × Nat) (word : UInt16) : UInt8 :=
  if k.2 % 2 = 0 then word.toUInt8 else (word >>> 8).toUInt8

section

variable {lba : UInt32} {count : UInt8} {buffer : Nat} {write : Bool} {k : Nat × Nat}

theorem sectorAddress_of_fits {i : Nat} (hfits : lba.toNat + count.toNat ≤ 2 ^ 28)
    (hi : i < count.toNat) : sectorAddress lba i = lba.toNat + i := by
  rw [sectorAddress_mod, maskedAddress, Nat.mod_eq_of_lt (by omega), Nat.mod_eq_of_lt (by omega)]

/-- A request that stays below 2^28 covers the bytes of its sectors. -/
theorem sectorCells_through (hfits : lba.toNat + count.toNat ≤ 2 ^ 28) :
    sectorCells lba 0 count.toNat (wordOf k) ↔ (request lba count buffer write).cells k := by
  obtain ⟨l, o⟩ := k
  constructor
  · rintro ⟨i, -, hi, hl, ho⟩
    have hl : l = lba.toNat + i := hl.trans (sectorAddress_of_fits hfits (by omega))
    have ho : o / 2 < 256 := ho
    exact ⟨by change lba.toNat ≤ l; omega, by change l < lba.toNat + count.toNat; omega,
      by change o < 512; omega⟩
  · rintro ⟨hle, hlt, ho⟩
    have hle : lba.toNat ≤ l := hle
    have hlt : l < lba.toNat + count.toNat := hlt
    have ho : o < 512 := ho
    refine ⟨l - lba.toNat, Nat.zero_le _, by omega, ?_, by change o / 2 < 256; omega⟩
    rw [sectorAddress_of_fits hfits (by omega)]
    change l = _
    omega

/-- The byte in the buffer is that of the word there. -/
theorem wordByte_place (hfits : lba.toNat + count.toNat ≤ 2 ^ 28) {words : Nat → UInt16}
    (hle : lba.toNat ≤ k.1) (hlt : k.1 < lba.toNat + count.toNat) :
    byteOfWord k (words (bufferPlace lba (wordOf k))) =
      wordByte words ((k.1 - lba.toNat) * 512 + k.2) := by
  obtain ⟨l, o⟩ := k
  have hle : lba.toNat ≤ l := hle
  have hlt : l < lba.toNat + count.toNat := hlt
  have hcount := count.toNat_lt
  have haddress : sectorAddress lba (l - lba.toNat) = l := by
    rw [sectorAddress_of_fits hfits (by omega)]
    omega
  have hplace : bufferPlace lba (wordOf (l, o)) = (l - lba.toNat) * 256 + o / 2 := by
    change bufferPlace lba (l, o / 2) = _
    rw [← bufferPlace_sector (show l - lba.toNat < 256 by omega), haddress]
  have hhalf : ((l - lba.toNat) * 512 + o) / 2 = (l - lba.toNat) * 256 + o / 2 := by omega
  have hparity : ((l - lba.toNat) * 512 + o) % 2 = o % 2 := by omega
  rw [hplace, wordByte, hhalf, hparity, byteOfWord]

end

/-! ## Calls -/

/-- What may have happened since the last call: the kernel has written to memory, and an AHCI
controller has moved. -/
def Between (p : Nat) (pages : AhciPages) (s : BlockState) (hba : Hba) : Prop :=
  s.device = ahciBlockDevice → Relation.ReflTransGen (Meanwhile p pages) s.ahci.hba hba

/-- A request that the driver can carry out: its buffer is outside the pages of the AHCI driver, and
its sectors have ATA addresses. -/
structure Feasible (pages : AhciPages) (s : BlockState) (c : HbaCommand) : Prop where
  spare : s.device = ahciBlockDevice → pages.Spare c
  fits : s.device = ataBlockDevice → c.lba + c.count ≤ 2 ^ 28

/-- The block layer with another controller and memory. -/
def BlockState.withHba (s : BlockState) (hba : Hba) : BlockState :=
  { s with ahci := { s.ahci with hba := hba } }

/-- The ATA drive, where one is bound, has ended no write with an error. -/
def BlockState.unspoilt (disk : List PortAccess → AtaDisk) (s s' : BlockState) : Bool :=
  decide (s.device ≠ ataBlockDevice) || Devices.unspoilt disk s.ata s'.ata

/-- A call of `block_read_sectors` or `block_write_sectors`. A write succeeds if the driver says so
and an ATA drive has ended it without an error. -/
inductive BlockCall (env : AhciEnv) (ports : Ports) (disk : List PortAccess → AtaDisk) (p : Nat)
    (pages : AhciPages) (s : BlockState) : Transfer (Nat × Nat) UInt8 → BlockState → Prop
  | read (lba : UInt32) (count : UInt8) (out : Nat) (hba : Hba) (ok : Bool) (s' : BlockState)
      (hbetween : Between p pages s hba)
      (hfeasible : Feasible pages s (request lba count out false))
      (hcall : blockReadSectors env ports lba count out (s.withHba hba) = .ok ok s') :
      BlockCall env ports disk p pages s ⟨false, (request lba count out false).cells,
        (request lba count out false).data s'.ahci.hba.memory, ok⟩ s'
  | write (lba : UInt32) (count : UInt8) (data : Nat) (hba : Hba) (ok : Bool) (s' : BlockState)
      (hbetween : Between p pages s hba)
      (hfeasible : Feasible pages s (request lba count data true))
      (hcall : blockWriteSectors env ports lba count data (s.withHba hba) = .ok ok s') :
      BlockCall env ports disk p pages s ⟨true, (request lba count data true).cells,
        (request lba count data true).data s'.ahci.hba.memory, ok && s.unspoilt disk s'⟩ s'

/-! ## The buffer of a write -/

section

variable {ports : Ports} {words : Nat → UInt16} {lba : UInt32}

/-- The words are these. -/
def HasWords (words : Nat → UInt16) (s : AtaState) : Prop := s.words = words

theorem modify_keeps {f : AtaState → AtaState} (hf : ∀ s, (f s).words = s.words) :
    Maintains (HasWords words) (modify f : Ata Unit) :=
  Maintains.modify fun s hs => (hf s).trans hs

theorem ioIn8_keeps {port : Nat} : Maintains (HasWords words) (ioIn8 ports port) :=
  fun _ hs => hs

theorem ataIoWait_keeps : Maintains (HasWords words) (ataIoWait ports) := fun _ hs => hs

theorem ataWaitNotBusy_keeps {spins : Nat} :
    Maintains (HasWords words) (ataWaitNotBusy ports spins) := by
  induction spins with
  | zero => exact Maintains.raise
  | succ spins ih =>
    refine Maintains.bind Maintains.get fun s => ?_
    refine Maintains.bind ioIn8_keeps fun status => ?_
    exact Maintains.ite (fun _ => Maintains.pure) fun _ => ih

theorem ataWaitDrq_keeps {spins : Nat} : Maintains (HasWords words) (ataWaitDrq ports spins) := by
  induction spins with
  | zero => exact Maintains.raise
  | succ spins ih =>
    refine Maintains.bind Maintains.get fun s => ?_
    refine Maintains.bind ioIn8_keeps fun status => ?_
    exact Maintains.ite (fun _ => Maintains.raise) fun _ =>
      Maintains.ite (fun _ => Maintains.pure) fun _ => ih

theorem ataWriteWords_keeps {sector : Nat} {l : List Nat} :
    Maintains (HasWords words) (ataWriteWords sector l) := by
  induction l with
  | nil => exact Maintains.pure
  | cons i rest ih =>
    refine Maintains.bind Maintains.get fun s => ?_
    exact Maintains.bind (modify_keeps fun _ => rfl) fun _ => ih

theorem ataSelectSector_keeps {command : UInt8} :
    Maintains (HasWords words) (ataSelectSector ports command lba) := by
  refine Maintains.bind ataWaitNotBusy_keeps fun _ => ?_
  refine Maintains.bind Maintains.get fun s => ?_
  refine Maintains.bind (modify_keeps fun _ => rfl) fun _ => ?_
  refine Maintains.bind ataIoWait_keeps fun _ => ?_
  refine Maintains.bind (modify_keeps fun _ => rfl) fun _ => ?_
  refine Maintains.bind (modify_keeps fun _ => rfl) fun _ => ?_
  refine Maintains.bind (modify_keeps fun _ => rfl) fun _ => ?_
  refine Maintains.bind (modify_keeps fun _ => rfl) fun _ => ?_
  exact Maintains.bind (modify_keeps fun _ => rfl) fun _ => ataWaitDrq_keeps

theorem ataWriteSector_keeps {sector : Nat} :
    Maintains (HasWords words) (ataWriteSector ports lba sector) := by
  refine Maintains.bind ataSelectSector_keeps fun _ => ?_
  refine Maintains.bind ataWriteWords_keeps fun _ => ?_
  exact Maintains.bind ataIoWait_keeps fun _ => ataWaitNotBusy_keeps

/-- A write leaves the buffer. -/
theorem ataWriteSectors_keeps {count : UInt8} :
    Maintains (HasWords words) (ataWriteSectors ports lba count) := by
  have hsectors : ∀ l, Maintains (HasWords words) (ataSectors (ataWriteSector ports lba) l) := by
    intro l
    induction l with
    | nil => exact Maintains.pure
    | cons sector rest ih => exact Maintains.bind ataWriteSector_keeps fun _ => ih
  exact Maintains.ite (fun _ => Maintains.pure) fun _ =>
    Maintains.ite (fun _ => Maintains.raise) fun _ => hsectors _

end

section

variable {env : AhciEnv} {ports : Ports} {p : Nat} {pages : AhciPages} {s s' : BlockState}
  {t : Transfer (Nat × Nat) UInt8} {ok : Bool} {buffer : Nat} {count : UInt8} {lba : UInt32}
  {disk : List PortAccess → AtaDisk}

theorem onAhci_ok {x : Ahci Bool} (h : onAhci x s = .ok ok s') :
    x s.ahci = .ok ok s'.ahci ∧ s'.device = s.device := by
  unfold onAhci onPart at h
  cases hx : x s.ahci with
  | ok r ahci =>
    rw [hx] at h
    cases h
    exact ⟨rfl, rfl⟩
  | _ =>
    rw [hx] at h
    cases h

theorem onBuffer_ok {x : Ata Unit} (h : onBuffer buffer count x s = .ok ok s') :
    ∃ r ata, attempt x { s.ata with words := loadWords s.ahci.hba.memory buffer } = .ok r ata ∧
      r.isOk = ok ∧ s' = s.withBuffer buffer count ata := by
  unfold onBuffer at h
  unfold attempt
  cases hx : x { s.ata with words := loadWords s.ahci.hba.memory buffer } with
  | ok r ata =>
    rw [hx] at h
    cases h
    exact ⟨_, ata, rfl, rfl, rfl⟩
  | error e ata =>
    rw [hx] at h
    cases h
    exact ⟨_, ata, rfl, rfl, rfl⟩
  | _ =>
    rw [hx] at h
    cases h

theorem blockReadSectors_ahci (hd : s.device = ahciBlockDevice) :
    blockReadSectors env ports lba count buffer s =
      onAhci (ahciReadSectors env lba count buffer) s := by
  refine (bind_of_ok rfl).trans ?_
  simp only [hd]

theorem blockWriteSectors_ahci (hd : s.device = ahciBlockDevice) :
    blockWriteSectors env ports lba count buffer s =
      onAhci (ahciWriteSectors env lba count buffer) s := by
  refine (bind_of_ok rfl).trans ?_
  simp only [hd]

theorem blockReadSectors_ata (hd : s.device = ataBlockDevice) :
    blockReadSectors env ports lba count buffer s =
      onBuffer buffer count (ataReadSectors ports lba count) s := by
  refine (bind_of_ok rfl).trans ?_
  simp only [hd]

theorem blockWriteSectors_ata (hd : s.device = ataBlockDevice) :
    blockWriteSectors env ports lba count buffer s =
      onBuffer buffer count (ataWriteSectors ports lba count) s := by
  refine (bind_of_ok rfl).trans ?_
  simp only [hd]

/-- With the AHCI disk bound, a call is one of its driver. -/
theorem BlockCall.ahci (hd : s.device = ahciBlockDevice)
    (h : BlockCall env ports disk p pages s t s') :
    AhciCall env p pages s.ahci t s'.ahci ∧ s'.device = ahciBlockDevice := by
  cases h with
  | read lba count out hba ok _ hbetween hfeasible hcall =>
    have hd' : (s.withHba hba).device = ahciBlockDevice := hd
    obtain ⟨hx, hdevice⟩ := onAhci_ok ((blockReadSectors_ahci hd').symm.trans hcall)
    exact ⟨.read lba count out hba ok _ (hbetween hd) (hfeasible.spare hd) hx, hdevice.trans hd⟩
  | write lba count data hba ok _ hbetween hfeasible hcall =>
    have hd' : (s.withHba hba).device = ahciBlockDevice := hd
    obtain ⟨hx, hdevice⟩ := onAhci_ok ((blockWriteSectors_ahci hd').symm.trans hcall)
    have hunspoilt : s.unspoilt disk s' = true := by
      rw [BlockState.unspoilt, hd]
      rfl
    rw [hunspoilt, Bool.and_true]
    exact ⟨.write lba count data hba ok _ (hbetween hd) (hfeasible.spare hd) hx, hdevice.trans hd⟩

/-- The step of an ATA driver as one of the bytes in memory. -/
theorem bytes_step {known known' : Known (Nat × Nat) UInt16} {write ok : Bool}
    {words : Nat → UInt16} {memory : Nat → UInt8} (hfits : lba.toNat + count.toNat ≤ 2 ^ 28)
    (hmemory : ∀ i < count.toNat * 512, memory (buffer + i) = wordByte words i)
    (h : StoreStep known ⟨write, sectorCells lba 0 count.toNat,
      fun k => words (bufferPlace lba k), ok⟩ known') :
    StoreStep (known.through wordOf byteOfWord)
      ⟨write, (request lba count buffer write).cells, (request lba count buffer write).data memory,
        ok⟩ (known'.through wordOf byteOfWord) := by
  have hcells : (fun k => sectorCells lba 0 count.toNat (wordOf k)) =
      (request lba count buffer write).cells :=
    funext fun k => propext (sectorCells_through hfits)
  have hthrough : StoreStep (known.through wordOf byteOfWord)
      ⟨write, (request lba count buffer write).cells,
        fun k => byteOfWord k (words (bufferPlace lba (wordOf k))), ok⟩
      (known'.through wordOf byteOfWord) := hcells ▸ h.through
  refine hthrough.congr fun k hk => ?_
  obtain ⟨hle, hlt, ho⟩ := hk
  have hle : lba.toNat ≤ k.1 := hle
  have hlt : k.1 < lba.toNat + count.toNat := hlt
  have hin : (k.1 - lba.toNat + 1) * 512 ≤ count.toNat * 512 := Nat.mul_le_mul_right _ (by omega)
  rw [wordByte_place hfits hle hlt]
  have hplace : (k.1 - lba.toNat) * 512 + k.2 < count.toNat * 512 := by omega
  exact hmemory _ hplace

/-- A buffer that has been stored has the bytes of its words. -/
theorem withBuffer_memory {ata : AtaState} {i : Nat} (hi : i < count.toNat * 512) :
    (s.withBuffer buffer count ata).ahci.hba.memory (buffer + i) = wordByte ata.words i := by
  change overlay _ buffer (count.toNat * 512) _ (buffer + i) = _
  rw [overlay_inside (by omega), Nat.add_sub_cancel_left]

/-- With an ATA drive bound, a call is one of the ATA driver. -/
theorem BlockCall.ata (hd : s.device = ataBlockDevice)
    (h : BlockCall env ports disk p pages s t s') :
    ∃ t', AtaCall ports disk s.ata t' s'.ata ∧ s'.device = ataBlockDevice ∧ t'.ok = t.ok ∧
      ∀ known known', StoreStep known t' known' →
        StoreStep (known.through wordOf byteOfWord) t (known'.through wordOf byteOfWord) := by
  cases h with
  | read lba count out hba ok _ hbetween hfeasible hcall =>
    have hd' : (s.withHba hba).device = ataBlockDevice := hd
    obtain ⟨r, ata, hx, rfl, rfl⟩ := onBuffer_ok ((blockReadSectors_ata hd').symm.trans hcall)
    refine ⟨_, .read lba count _ r ata hx, hd, rfl, fun known known' hstep => ?_⟩
    exact bytes_step (hfeasible.fits hd) (fun i hi => withBuffer_memory hi) hstep
  | write lba count data hba ok _ hbetween hfeasible hcall =>
    have hd' : (s.withHba hba).device = ataBlockDevice := hd
    obtain ⟨r, ata, hx, rfl, rfl⟩ := onBuffer_ok ((blockWriteSectors_ata hd').symm.trans hcall)
    have hwords : ata.words = loadWords hba.memory data := by
      have hkeep : Maintains (HasWords (loadWords hba.memory data))
          (attempt (ataWriteSectors ports lba count)) := ataWriteSectors_keeps.attempt
      have hstate : HasWords (loadWords hba.memory data) (Outcome.ok r ata).state :=
        hx ▸ hkeep { s.ata with words := loadWords hba.memory data } rfl
      exact hstate
    have hunspoilt : s.unspoilt disk ((s.withHba hba).withBuffer data count ata) =
        unspoilt disk s.ata ata := by
      rw [BlockState.unspoilt, hd]
      rfl
    rw [hunspoilt]
    refine ⟨_, .write lba count _ r ata hx, hd, rfl, fun known known' hstep => ?_⟩
    refine bytes_step (hfeasible.fits hd) (fun i hi => (withBuffer_memory hi).trans ?_) hstep
    rw [hwords]
    rfl

end

/-! ## Runs -/

/-- The bound disk is in order, and this is known of it. -/
inductive BlockServes (p : Nat) (pages : AhciPages) (disk : List PortAccess → AtaDisk)
    (drive : AtaDrive) (known : Known (Nat × Nat) UInt8) (s : BlockState) : Prop
  | ahci (hd : s.device = ahciBlockDevice) (hserves : Serves p pages s.ahci)
      (htracked : Tracked p pages known s.ahci.hba)
  | ata (words : Known (Nat × Nat) UInt16) (hd : s.device = ataBlockDevice)
      (hdrive : s.ata.drive = drive) (hidle : (disk s.ata.history).phase = .idle)
      (hwords : words.Of (disk s.ata.history).medium.sectors)
      (hknown : known = words.through wordOf byteOfWord)

section

variable {env : AhciEnv} {ports : Ports} {p : Nat} {pages : AhciPages} {s s' : BlockState}
  {disk : List PortAccess → AtaDisk} {drive : AtaDrive} {known : Known (Nat × Nat) UInt8}
  {t : Transfer (Nat × Nat) UInt8} {ts : List (Transfer (Nat × Nat) UInt8)}

/-- A call is a step of the store. Only a failed one of the ATA driver may leave the disk in the
middle of a command. -/
theorem BlockCall.step (hconf : s.device = ahciBlockDevice → env.Conforms p)
    (hf : ports.Follow drive disk) (h : BlockServes p pages disk drive known s)
    (hcall : BlockCall env ports disk p pages s t s') :
    s'.device = s.device ∧ ∃ known', StoreStep known t known' ∧
      ((s.device = ataBlockDevice → t.ok = true) → BlockServes p pages disk drive known' s') := by
  cases h with
  | ahci hd hserves htracked =>
    obtain ⟨hdriver, hd'⟩ := hcall.ahci hd
    obtain ⟨hserves', known', hstep, htracked'⟩ := hdriver.step (hconf hd) hserves htracked
    exact ⟨hd'.trans hd.symm, known', hstep, fun _ => .ahci hd' hserves' htracked'⟩
  | ata words hd hdrive hidle hwords hknown =>
    obtain ⟨t', hdriver, hd', hok, hsteps⟩ := hcall.ata hd
    obtain ⟨hdrive', hidle', words', hstep, hwords'⟩ := hdriver.step hf hdrive hidle hwords
    refine ⟨hd'.trans hd.symm, _, hknown ▸ hsteps _ _ hstep, fun hsucceeds => ?_⟩
    exact .ata words' hd' hdrive' (hidle' (hok.trans (hsucceeds hd))) hwords' rfl

/-- A run in which no call of the ATA driver but the last one fails is a run of the store. -/
theorem BlockCall.run (hconf : s.device = ahciBlockDevice → env.Conforms p)
    (hf : ports.Follow drive disk) (hrun : Runs (BlockCall env ports disk p pages) s ts s')
    (h : BlockServes p pages disk drive known s)
    (hok : s.device = ataBlockDevice → ∀ t ∈ ts.dropLast, t.ok = true) :
    ∃ known', Runs StoreStep known ts known' := by
  induction hrun generalizing known with
  | nil s => exact ⟨known, .nil known⟩
  | @cons s s₁ s' t ts first rest ih =>
    obtain ⟨hd, known₁, hstep, hserves⟩ := first.step hconf hf h
    cases ts with
    | nil =>
      cases rest
      exact ⟨known₁, .cons hstep (.nil known₁)⟩
    | cons t₁ ts =>
      have hserves₁ := hserves fun hata => hok hata t List.mem_cons_self
      obtain ⟨known', hruns⟩ := ih (hd ▸ hconf) hserves₁ fun hata t' ht' =>
        hok (hd ▸ hata) t' (List.mem_cons_of_mem t ht')
      exact ⟨known', .cons hstep hruns⟩

/-- What `block_init` has bound is in order. -/
theorem blockInit_serves {info : BootInfo} {s₀ : BlockState}
    (hconf : ∀ device, namedAhci info s₀.ahci.pci = some device → env.Conforms device.port.toNat)
    (hfresh : env.FreshPages) (hbare : Bare s₀.ahci) (hinit : blockInit env info s₀ = .ok true s)
    (hserves : s.device = ahciBlockDevice → Serves p pages s.ahci)
    (hidle : s.device = ataBlockDevice → (disk s.ata.history).phase = .idle) :
    (s.device = ahciBlockDevice → env.Conforms p) ∧
      ∃ known, BlockServes p pages disk s.ata.drive known s := by
  obtain ⟨ataResult, latch, -, hbound⟩ := (blockInit_bound hinit).2 rfl
  cases hbound with
  | ahci device hnamed hstart hata hd =>
    obtain ⟨hport, hpages⟩ := hserves hd
    have hbare' : Bare (s₀.withLatch latch).ahci := hbare
    have hconforms := hconf device hnamed
    obtain ⟨hport', -⟩ := (ahciInit_returns hconforms hfresh hbare').of_ok hstart rfl
    obtain rfl : device.port.toNat = p := Option.some.inj (hport'.symm.trans hport)
    obtain ⟨hserves', htracked⟩ := served_of_init hconforms hfresh hbare' hstart hpages
    exact ⟨fun _ => hconforms, _, .ahci hd hserves' htracked⟩
  | ata hahci hstart hd =>
    refine ⟨fun hahci => ?_, _, .ata _ hd rfl (hidle hd) Known.of_all rfl⟩
    rw [hd] at hahci
    cases hahci

end

/-- A byte that is read is the one that has been written last, through whichever driver `block_init`
has bound: whatever happens between the calls, and whatever else is read, written, or fails to be
written, as long as no call to the ATA driver has failed or has had an error that it has missed. -/
theorem readsBack_of_block {env : AhciEnv} {ports : Ports} {info : BootInfo} {p : Nat}
    {pages : AhciPages} {disk : List PortAccess → AtaDisk} {s₀ s s' : BlockState}
    {before between : List (Transfer (Nat × Nat) UInt8)} {w r : Transfer (Nat × Nat) UInt8}
    {k : Nat × Nat}
    (hconf : ∀ device, namedAhci info s₀.ahci.pci = some device → env.Conforms device.port.toNat)
    (hfresh : env.FreshPages) (hbare : Bare s₀.ahci) (hinit : blockInit env info s₀ = .ok true s)
    (hserves : s.device = ahciBlockDevice → Serves p pages s.ahci)
    (hf : ports.Follow s.ata.drive disk)
    (hidle : s.device = ataBlockDevice → (disk s.ata.history).phase = .idle)
    (hrun : Runs (BlockCall env ports disk p pages) s (before ++ w :: (between ++ [r])) s')
    (hok : s.device = ataBlockDevice → ∀ t ∈ before ++ w :: between, t.ok = true)
    (hw : w.write = true ∧ w.ok = true ∧ w.cells k)
    (hr : r.write = false ∧ r.ok = true ∧ r.cells k)
    (hspared : ∀ t ∈ between, t.Spares k) : r.data k = w.data k := by
  obtain ⟨hconforms, known, h⟩ := blockInit_serves hconf hfresh hbare hinit hserves hidle
  have hlast : (before ++ w :: (between ++ [r])).dropLast = before ++ w :: between := by
    rw [← List.cons_append, ← List.append_assoc, List.dropLast_concat]
  obtain ⟨known', hruns⟩ := BlockCall.run hconforms hf hrun h (hlast ▸ hok)
  exact StoreStep.readsBack hruns hw.1 hw.2.1 hr.1 hr.2.1 hw.2.2 hr.2.2 hspared

/-- Calls between which nothing else happens, with the AHCI disk bound. -/
theorem BlockCall.writeNow {env : AhciEnv} {ports : Ports} {disk : List PortAccess → AtaDisk}
    {p : Nat} {pages : AhciPages} {s s' : BlockState} {lba : UInt32} {count : UInt8} {data : Nat}
    {ok : Bool}
    (hd : s.device = ahciBlockDevice) (hspare : pages.Spare (request lba count data true))
    (hcall : blockWriteSectors env ports lba count data s = .ok ok s') :
    BlockCall env ports disk p pages s ⟨true, (request lba count data true).cells,
      (request lba count data true).data s'.ahci.hba.memory, ok⟩ s' := by
  have hunspoilt : s.unspoilt disk s' = true := by
    rw [BlockState.unspoilt, hd]
    rfl
  have hwrite : BlockCall env ports disk p pages s _ s' := .write lba count data s.ahci.hba ok s'
    (fun _ => .refl) ⟨fun _ => hspare, fun hata => by rw [hd] at hata; cases hata⟩ hcall
  rwa [hunspoilt, Bool.and_true] at hwrite

theorem BlockCall.readNow {env : AhciEnv} {ports : Ports} {disk : List PortAccess → AtaDisk}
    {p : Nat} {pages : AhciPages} {s s' : BlockState} {lba : UInt32} {count : UInt8} {out : Nat}
    {ok : Bool}
    (hd : s.device = ahciBlockDevice) (hspare : pages.Spare (request lba count out false))
    (hcall : blockReadSectors env ports lba count out s = .ok ok s') :
    BlockCall env ports disk p pages s ⟨false, (request lba count out false).cells,
      (request lba count out false).data s'.ahci.hba.memory, ok⟩ s' :=
  .read lba count out s.ahci.hba ok s' (fun _ => .refl)
    ⟨fun _ => hspare, fun hata => by rw [hd] at hata; cases hata⟩ hcall

/-- The machine behind a write. -/
def writtenMachine : BlockState :=
  (blockWriteSectors promptEnv promptPorts 3 1 0x20000 bootedMachine).finalState bootedMachine

/-- A sector is written, and read to another buffer. -/
theorem readsBack_of_block_sata : ∃ w r s',
    Runs (BlockCall promptEnv promptPorts promptDisk 0 promptPages) bootedMachine [w, r] s' ∧
    r.data (3, 7) = w.data (3, 7) := by
  have hd : bootedMachine.device = ahciBlockDevice := by decide +kernel
  have hd' : writtenMachine.device = ahciBlockDevice := by decide +kernel
  have hwrite : blockWriteSectors promptEnv promptPorts 3 1 0x20000 bootedMachine
      = .ok true writtenMachine := eq_ok_of_result (by decide +kernel)
  have hread := eq_ok_of_result (d := writtenMachine)
    (show (blockReadSectors promptEnv promptPorts 3 1 0x21000 writtenMachine).result
      = some (.ok true) by decide +kernel)
  have hcallw : BlockCall promptEnv promptPorts promptDisk 0 promptPages bootedMachine _ _ :=
    .writeNow hd (promptPages_spare (by omega)) hwrite
  have hcallr : BlockCall promptEnv promptPorts promptDisk 0 promptPages writtenMachine _ _ :=
    .readNow hd' (promptPages_spare (by omega)) hread
  have hrun : Runs (BlockCall promptEnv promptPorts promptDisk 0 promptPages) bootedMachine
    ([] ++ _ :: ([] ++ [_])) _ := .cons hcallw (.cons hcallr (.nil _))
  have hcell : ∀ {buffer write}, (request 3 1 buffer write).cells (3, 7) :=
    ⟨le_rfl, show 3 < 3 + 1 by decide, show 7 < 512 by decide⟩
  have hnamed : namedAhci sataInfo bootMachine.ahci.pci = some ⟨⟨0, 1, 0⟩, 0⟩ := by decide +kernel
  have hconf : ∀ device, namedAhci sataInfo bootMachine.ahci.pci = some device →
      promptEnv.Conforms device.port.toNat := by
    intro device h
    rw [hnamed] at h
    cases h
    exact promptEnv_conforms
  have hport : bootedMachine.ahci.gPort = some 0 := by decide +kernel
  have hpages : HasPages promptPages bootedMachine.ahci := by constructor <;> decide +kernel
  have hdrive : bootedMachine.ata.drive = primaryMaster := by decide +kernel
  have hnone : bootedMachine.device = ataBlockDevice → False := fun h => by rw [hd] at h; cases h
  exact ⟨_, _, _, hrun, readsBack_of_block hconf promptEnv_freshPages ⟨rfl, rfl, rfl⟩
    bootedMachine_init (fun _ => ⟨hport, hpages⟩) (hdrive ▸ promptPorts_follow)
    (fun h => (hnone h).elim) hrun (fun h => (hnone h).elim) ⟨rfl, rfl, hcell⟩ ⟨rfl, rfl, hcell⟩
    fun t ht => absurd ht List.not_mem_nil⟩

end FunnyOS.Devices
