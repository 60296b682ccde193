import FunnyOS.Devices.Ata

/-!
# The sector addresses that the ATA driver asks for

A request for several sectors is a sequence of commands, one for each sector, with the address that
the drive's registers hold at that moment. The driver looks at the first address only, and each
register write keeps what fits: the addresses are those of the request exactly as long as the
request ends below 2^28.
-/

namespace FunnyOS.Devices

open Prog

/-! ## What the drive is given -/

/-- The registers of a drive that make up a sector address. -/
structure AtaRegisters where
  low : UInt8
  mid : UInt8
  high : UInt8
  head : UInt8
deriving DecidableEq, Repr

/-- The 28-bit address in the registers. -/
def AtaRegisters.address (r : AtaRegisters) : Nat :=
  (r.head &&& 0x0F).toNat * 2 ^ 24 + r.high.toNat * 2 ^ 16 + r.mid.toNat * 2 ^ 8 + r.low.toNat

/-- What the registers at `base` hold after the accesses. -/
def ataRegisters (base : Nat) : List PortAccess → AtaRegisters
  | [] => ⟨0, 0, 0, 0⟩
  | .out8 port value :: earlier =>
    let r := ataRegisters base earlier
    if port = base + ataLbaLowOffset then { r with low := value }
    else if port = base + ataLbaMidOffset then { r with mid := value }
    else if port = base + ataLbaHighOffset then { r with high := value }
    else if port = base + ataDriveOffset then { r with head := value }
    else r
  | _ :: earlier => ataRegisters base earlier

/-- The addresses of the commands among the accesses, in the order of the commands. -/
def ataAddresses (base : Nat) : List PortAccess → List Nat
  | [] => []
  | .out8 port _ :: earlier =>
    if port = base + ataCommandOffset then
      ataAddresses base earlier ++ [(ataRegisters base earlier).address]
    else ataAddresses base earlier
  | _ :: earlier => ataAddresses base earlier

/-- The addresses that the selected drive has been given so far. -/
def AtaState.addresses (s : AtaState) : List Nat := ataAddresses s.drive.ioBase s.history

/-! ## Accesses that ask for nothing -/

/-- The drive has not been asked for a sector, and its address registers are as they were. -/
structure Unasked (s s' : AtaState) : Prop where
  drive : s'.drive = s.drive
  registers : ataRegisters s.drive.ioBase s'.history = ataRegisters s.drive.ioBase s.history
  addresses : s'.addresses = s.addresses

/-- The drive has been asked for the sector `a`. -/
structure Asked (s s' : AtaState) (a : Nat) : Prop where
  drive : s'.drive = s.drive
  addresses : s'.addresses = s.addresses ++ [a]

section

variable {ports : Ports} {s s₁ s₂ : AtaState} {port a : Nat} {command : UInt8} {lba : UInt32}

theorem Unasked.refl : Unasked s s := ⟨rfl, rfl, rfl⟩

theorem Unasked.trans (h : Unasked s s₁) (h' : Unasked s₁ s₂) : Unasked s s₂ where
  drive := h'.drive.trans h.drive
  registers := by
    have hregisters := h'.registers
    rw [h.drive] at hregisters
    exact hregisters.trans h.registers
  addresses := h'.addresses.trans h.addresses

theorem Asked.unasked (h : Asked s s₁ a) (h' : Unasked s₁ s₂) : Asked s s₂ a :=
  ⟨h'.drive.trans h.drive, h'.addresses.trans h.addresses⟩

theorem ioIn8_sat : Sat (ioIn8 ports port) s (fun _ s' => Unasked s s') (fun _ _ => False) :=
  ⟨rfl, rfl, rfl⟩

theorem ioIn8_defined : Defined (ioIn8 ports port) := by
  refine Defined.bind Defined.get fun s => ?_
  exact Defined.bind Defined.modify fun _ => Defined.pure

theorem ataIoWait_sat : Sat (ataIoWait ports) s (fun _ s' => Unasked s s') (fun _ _ => False) :=
  ⟨rfl, rfl, rfl⟩

theorem ataIoWait_defined : Defined (ataIoWait ports) := by
  refine Defined.bind Defined.get fun s => ?_
  refine Defined.bind ioIn8_defined fun _ => ?_
  refine Defined.bind ioIn8_defined fun _ => ?_
  refine Defined.bind ioIn8_defined fun _ => ?_
  exact Defined.bind ioIn8_defined fun _ => Defined.pure

theorem ataWaitNotBusy_sat {spins : Nat} : Sat (ataWaitNotBusy ports spins) s
    (fun _ s' => Unasked s s') (fun _ s' => Unasked s s') := by
  induction spins generalizing s with
  | zero => exact Sat.raise .refl
  | succ spins ih =>
    refine Sat.get_bind (Sat.bind ioIn8_sat (fun _ _ h => h.elim) fun status s₁ h => ?_)
    refine Sat.ite (fun _ => Sat.pure h) fun _ => ?_
    exact Sat.mono ih (fun _ _ h' => h.trans h') fun _ _ h' => h.trans h'

theorem ataWaitNotBusy_defined {spins : Nat} : Defined (ataWaitNotBusy ports spins) := by
  induction spins with
  | zero => exact Defined.raise
  | succ spins ih =>
    refine Defined.bind Defined.get fun s => Defined.bind ioIn8_defined fun status => ?_
    exact Defined.ite Defined.pure ih

theorem ataWaitDrq_sat {spins : Nat} : Sat (ataWaitDrq ports spins) s
    (fun _ s' => Unasked s s') (fun _ s' => Unasked s s') := by
  induction spins generalizing s with
  | zero => exact Sat.raise .refl
  | succ spins ih =>
    refine Sat.get_bind (Sat.bind ioIn8_sat (fun _ _ h => h.elim) fun status s₁ h => ?_)
    refine Sat.ite (fun _ => Sat.raise h) fun _ => Sat.ite (fun _ => Sat.pure h) fun _ => ?_
    exact Sat.mono ih (fun _ _ h' => h.trans h') fun _ _ h' => h.trans h'

theorem ataWaitDrq_defined {spins : Nat} : Defined (ataWaitDrq ports spins) := by
  induction spins with
  | zero => exact Defined.raise
  | succ spins ih =>
    refine Defined.bind Defined.get fun s => Defined.bind ioIn8_defined fun status => ?_
    exact Defined.ite Defined.raise (Defined.ite Defined.pure ih)

theorem ataReadWords_sat {sector : Nat} {words : List Nat} : Sat (ataReadWords ports sector words) s
    (fun _ s' => Unasked s s') (fun _ _ => False) := by
  induction words generalizing s with
  | nil => exact Sat.pure .refl
  | cons i rest ih =>
    refine Sat.mono ih (fun _ _ h => Unasked.trans ?_ h) fun _ _ h => h
    exact ⟨rfl, rfl, rfl⟩

theorem ataReadWords_defined {sector : Nat} {words : List Nat} :
    Defined (ataReadWords ports sector words) := by
  induction words with
  | nil => exact Defined.pure
  | cons i rest ih =>
    refine Defined.bind Defined.get fun s => Defined.bind ?_ fun word => ?_
    · refine Defined.bind Defined.get fun s => ?_
      exact Defined.bind Defined.modify fun _ => Defined.pure
    · exact Defined.bind Defined.modify fun _ => ih

theorem ataWriteWords_sat {sector : Nat} {words : List Nat} : Sat (ataWriteWords sector words) s
    (fun _ s' => Unasked s s') (fun _ _ => False) := by
  induction words generalizing s with
  | nil => exact Sat.pure .refl
  | cons i rest ih =>
    refine Sat.mono ih (fun _ _ h => Unasked.trans ?_ h) fun _ _ h => h
    exact ⟨rfl, rfl, rfl⟩

theorem ataWriteWords_defined {sector : Nat} {words : List Nat} :
    Defined (ataWriteWords sector words) := by
  induction words with
  | nil => exact Defined.pure
  | cons i rest ih =>
    refine Defined.bind Defined.get fun s => ?_
    exact Defined.bind Defined.modify fun _ => ih

end

-- The loops stay closed below: a goal about a sector need not run through its words.
attribute [local irreducible] ataWaitNotBusy ataWaitDrq ataReadWords ataWriteWords

/-! ## One sector -/

section

variable {ports : Ports} {s s₁ s₂ : AtaState} {command : UInt8} {lba : UInt32}

theorem toUInt8_and_255 {x : UInt32} : (x &&& 0xFF).toUInt8.toNat = x.toNat % 2 ^ 8 := by
  have hmask := Nat.and_two_pow_sub_one_eq_mod x.toNat 8
  simp only [UInt32.toNat_toUInt8, UInt32.toNat_and, UInt32.reduceToNat]
  norm_num at hmask ⊢
  rw [hmask]
  omega

theorem toUInt8_and_15 {x : UInt32} : (x &&& 0x0F).toUInt8.toNat = x.toNat % 2 ^ 4 := by
  have hmask := Nat.and_two_pow_sub_one_eq_mod x.toNat 4
  simp only [UInt32.toNat_toUInt8, UInt32.toNat_and, UInt32.reduceToNat]
  norm_num at hmask ⊢
  rw [hmask]
  omega

/-- The lower half of the drive and head register is what has been put there. -/
theorem head_and_15 {drive : AtaDrive} {x : UInt32} :
    ((drive.driveHead ||| (x &&& 0x0F).toUInt8) &&& 0x0F).toNat = x.toNat % 2 ^ 4 := by
  have hlow : drive.driveHead.toNat &&& 15 = 0 := congrArg UInt8.toNat drive.head_low
  have hmask := Nat.and_two_pow_sub_one_eq_mod (x.toNat % 2 ^ 4) 4
  rw [UInt8.toNat_and, UInt8.toNat_or, toUInt8_and_15]
  calc (drive.driveHead.toNat ||| x.toNat % 2 ^ 4) &&& 15
      = (drive.driveHead.toNat &&& 15) ||| (x.toNat % 2 ^ 4 &&& (2 ^ 4 - 1)) :=
        Nat.and_or_distrib_right ..
    _ = x.toNat % 2 ^ 4 % 2 ^ 4 := by rw [hlow, hmask, Nat.zero_or]
    _ = x.toNat % 2 ^ 4 := Nat.mod_mod ..

/-- As much of a sector number as fits in the registers. -/
def maskedAddress (lba : UInt32) : Nat := lba.toNat % 2 ^ 28

/-- What is written to the registers makes up the address as far as 28 bits go. -/
theorem registers_address {drive : AtaDrive} : AtaRegisters.address
    ⟨(lba &&& 0xFF).toUInt8, ((lba >>> 8) &&& 0xFF).toUInt8, ((lba >>> 16) &&& 0xFF).toUInt8,
      drive.driveHead ||| ((lba >>> 24) &&& 0x0F).toUInt8⟩ = maskedAddress lba := by
  simp only [maskedAddress, AtaRegisters.address, head_and_15, toUInt8_and_255, UInt32.toNat_shiftRight,
    UInt32.reduceToNat, Nat.reduceMod, Nat.shiftRight_eq_div_pow]
  omega

/-- The drive and head register has been written. -/
def AtaState.withHead (s : AtaState) (lba : UInt32) : AtaState :=
  let head := s.drive.driveHead ||| ((lba >>> 24) &&& 0x0F).toUInt8
  { s with history := .out8 (s.drive.ioBase + ataDriveOffset) head :: s.history }

/-- The other registers have been written, and the command last. -/
def AtaState.withCommand (s : AtaState) (lba : UInt32) (command : UInt8) : AtaState :=
  let base := s.drive.ioBase
  { s with history := .out8 (base + ataCommandOffset) command ::
      .out8 (base + ataLbaHighOffset) ((lba >>> 16) &&& 0xFF).toUInt8 ::
      .out8 (base + ataLbaMidOffset) ((lba >>> 8) &&& 0xFF).toUInt8 ::
      .out8 (base + ataLbaLowOffset) (lba &&& 0xFF).toUInt8 ::
      .out8 (base + ataSectorCountOffset) 1 :: s.history }

theorem withHead_registers : (ataRegisters s.drive.ioBase (s.withHead lba).history).head
    = s.drive.driveHead ||| ((lba >>> 24) &&& 0x0F).toUInt8 := by
  simp [AtaState.withHead, ataRegisters]

theorem withHead_addresses : (s.withHead lba).addresses = s.addresses := by
  simp [AtaState.withHead, AtaState.addresses, ataAddresses]

theorem withCommand_addresses : (s.withCommand lba command).addresses = s.addresses ++
    [AtaRegisters.address ⟨(lba &&& 0xFF).toUInt8, ((lba >>> 8) &&& 0xFF).toUInt8,
      ((lba >>> 16) &&& 0xFF).toUInt8, (ataRegisters s.drive.ioBase s.history).head⟩] := by
  simp [AtaState.withCommand, AtaState.addresses, ataAddresses, ataRegisters]

/-- The command is given when all four registers hold the address. -/
theorem asked_of_registers (h : Unasked s s₁) (h' : Unasked (s₁.withHead lba) s₂) :
    Asked s (s₂.withCommand lba command) (maskedAddress lba) where
  drive := h'.drive.trans h.drive
  addresses := by
    have hhead : (ataRegisters s₂.drive.ioBase s₂.history).head
        = s₁.drive.driveHead ||| ((lba >>> 24) &&& 0x0F).toUInt8 := by
      rw [h'.drive]
      exact (congrArg AtaRegisters.head h'.registers).trans withHead_registers
    rw [withCommand_addresses, hhead, registers_address, h'.addresses, withHead_addresses,
      h.addresses]

/-- For a sector the drive is asked once, or not at all where it does not become ready. -/
theorem ataSelectSector_sat : Sat (ataSelectSector ports command lba) s
    (fun _ s' => Asked s s' (maskedAddress lba))
    (fun _ s' => Unasked s s' ∨ Asked s s' (maskedAddress lba)) := by
  refine Sat.bind ataWaitNotBusy_sat (fun _ _ h => .inl h) fun _ s₁ h₁ => ?_
  refine Sat.get_bind (Sat.modify_bind ?_)
  refine Sat.bind ataIoWait_sat (fun _ _ h => h.elim) fun _ s₂ h₂ => ?_
  have hbase : s₁.drive.ioBase = s₂.drive.ioBase := congrArg AtaDrive.ioBase h₂.drive.symm
  rw [hbase]
  have hasked : Asked s (s₂.withCommand lba command) (maskedAddress lba) :=
    asked_of_registers h₁ h₂
  refine Sat.modify_bind (Sat.modify_bind (Sat.modify_bind (Sat.modify_bind (Sat.modify_bind ?_))))
  refine Sat.mono ataWaitDrq_sat (fun _ _ h => ?_) fun _ _ h => .inr ?_
  · exact hasked.unasked h
  · exact hasked.unasked h

theorem ataSelectSector_defined : Defined (ataSelectSector ports command lba) := by
  refine Defined.bind ataWaitNotBusy_defined fun _ => Defined.bind Defined.get fun s => ?_
  refine Defined.bind Defined.modify fun _ => Defined.bind ataIoWait_defined fun _ => ?_
  refine Defined.bind Defined.modify fun _ => Defined.bind Defined.modify fun _ => ?_
  refine Defined.bind Defined.modify fun _ => Defined.bind Defined.modify fun _ => ?_
  exact Defined.bind Defined.modify fun _ => ataWaitDrq_defined

/-- The address that a round of either loop asks for. -/
def sectorAddress (lba : UInt32) (sector : Nat) : Nat := maskedAddress (lba + .ofNat sector)

/-- A round asks the drive for its sector, once or, where it fails, at most once. -/
def AsksOnce (round : Nat → Ata Unit) (address : Nat → Nat) : Prop :=
  ∀ sector s, Sat (round sector) s (fun _ s' => Asked s s' (address sector))
    (fun _ s' => Unasked s s' ∨ Asked s s' (address sector))

theorem ataReadSector_asksOnce : AsksOnce (ataReadSector ports lba) (sectorAddress lba) := by
  intro sector s
  have hselect : Sat (ataSelectSector ports 0x20 (lba + .ofNat sector)) s
      (fun _ s' => Asked s s' (sectorAddress lba sector))
      (fun _ s' => Unasked s s' ∨ Asked s s' (sectorAddress lba sector)) := ataSelectSector_sat
  refine Sat.bind hselect (fun _ _ h => h) fun _ s₁ h₁ => ?_
  refine Sat.bind ataReadWords_sat (fun _ _ h => h.elim) fun _ s₂ h₂ => ?_
  exact Sat.mono ataIoWait_sat (fun _ _ h => (h₁.unasked h₂).unasked h) fun _ _ h => h.elim

theorem ataReadSector_defined {sector : Nat} : Defined (ataReadSector ports lba sector) := by
  refine Defined.bind ataSelectSector_defined fun _ => ?_
  exact Defined.bind ataReadWords_defined fun _ => ataIoWait_defined

theorem ataWriteSector_asksOnce : AsksOnce (ataWriteSector ports lba) (sectorAddress lba) := by
  intro sector s
  have hselect : Sat (ataSelectSector ports 0x30 (lba + .ofNat sector)) s
      (fun _ s' => Asked s s' (sectorAddress lba sector))
      (fun _ s' => Unasked s s' ∨ Asked s s' (sectorAddress lba sector)) := ataSelectSector_sat
  refine Sat.bind hselect (fun _ _ h => h) fun _ s₁ h₁ => ?_
  refine Sat.bind ataWriteWords_sat (fun _ _ h => h.elim) fun _ s₂ h₂ => ?_
  refine Sat.bind ataIoWait_sat (fun _ _ h => h.elim) fun _ s₃ h₃ => ?_
  have hasked := (h₁.unasked h₂).unasked h₃
  exact Sat.mono ataWaitNotBusy_sat (fun _ _ h => hasked.unasked h)
    fun _ _ h => .inr (hasked.unasked h)

theorem ataWriteSector_defined {sector : Nat} : Defined (ataWriteSector ports lba sector) := by
  refine Defined.bind ataSelectSector_defined fun _ => Defined.bind ataWriteWords_defined fun _ => ?_
  exact Defined.bind ataIoWait_defined fun _ => ataWaitNotBusy_defined

/-! ## A request -/

/-- The addresses of `n` sectors have been asked for. -/
structure AskedFor (s s' : AtaState) (addresses : List Nat) : Prop where
  drive : s'.drive = s.drive
  addresses : s'.addresses = s.addresses ++ addresses

/-- The loop asks for its sectors in order, as far as it gets. -/
theorem ataSectors_sat {round : Nat → Ata Unit} {address : Nat → Nat}
    (h : AsksOnce round address) {sectors : List Nat} : Sat (ataSectors round sectors) s
      (fun _ s' => AskedFor s s' (sectors.map address))
      (fun _ s' => ∃ n, AskedFor s s' ((sectors.take n).map address)) := by
  induction sectors generalizing s with
  | nil => exact Sat.pure ⟨rfl, by simp⟩
  | cons sector rest ih =>
    refine Sat.bind (h sector s) ?_ fun _ s₁ h₁ => ?_
    · rintro _ s' (hnot | hasked)
      · exact ⟨0, hnot.drive, by simpa using hnot.addresses⟩
      · exact ⟨1, hasked.drive, by simpa using hasked.addresses⟩
    · refine Sat.mono ih (fun _ s' hrest => ?_) fun _ s' hrest => ?_
      · refine ⟨hrest.drive.trans h₁.drive, ?_⟩
        rw [hrest.addresses, h₁.addresses, List.append_assoc]
        rfl
      · obtain ⟨n, hrest⟩ := hrest
        refine ⟨n + 1, hrest.drive.trans h₁.drive, ?_⟩
        rw [hrest.addresses, h₁.addresses, List.append_assoc]
        rfl

theorem ataSectors_defined {round : Nat → Ata Unit} (h : ∀ sector, Defined (round sector))
    {sectors : List Nat} : Defined (ataSectors round sectors) := by
  induction sectors with
  | nil => exact Defined.pure
  | cons sector rest ih => exact Defined.bind (h sector) fun _ => ih

/-- The drive has been asked for the first sectors of the request in order, and for all of them
where the call has returned true. -/
def AsksInOrder (lba : UInt32) (count : UInt8) (s : AtaState) (o : Outcome AtaState Unit Unit) :
    Prop :=
  ∃ n ≤ count.toNat, o.state.addresses = s.addresses ++ (List.range n).map (lba.toNat + ·) ∧
    (o.isOk = true → n = count.toNat)

/-- A request that begins below 2^28 does not get past 2^32. -/
theorem sectorAddress_eq {sector : Nat} (hlba : ¬ lba > 0x0FFFFFFF) (hsector : sector < 256) :
    sectorAddress lba sector = (lba.toNat + sector) % 2 ^ 28 := by
  have hle : lba.toNat ≤ 0x0FFFFFFF := by
    simpa [UInt32.lt_iff_toNat_lt] using hlba
  rw [sectorAddress, maskedAddress, UInt32.toNat_add, UInt32.toNat_ofNat_of_lt' (by
    rw [UInt32.size]
    omega)]
  omega

variable {round : Nat → Ata Unit} {count : UInt8}

/-- A request that is refused asks for nothing, and one of no sectors too. -/
theorem ataRequest_refused (h : count = 0 ∨ lba > 0x0FFFFFFF) :
    AsksInOrder lba count s (ataRequest lba count round s) := by
  unfold ataRequest
  refine ⟨0, Nat.zero_le _, ?_, ?_⟩
  · by_cases hcount : count = 0
    · simp [hcount, Outcome.state, Pure.pure]
    · rw [if_neg hcount, if_pos (h.resolve_left hcount)]
      simp [Outcome.state, raise]
  · by_cases hcount : count = 0
    · simp [hcount]
    · rw [if_neg hcount, if_pos (h.resolve_left hcount)]
      intro hok
      cases hok

/-- What a request that is not refused asks for. -/
theorem ataRequest_sat (h : AsksOnce round (sectorAddress lba)) (hcount : count ≠ 0)
    (hlba : ¬ lba > 0x0FFFFFFF) : Sat (ataRequest lba count round) s
      (fun _ s' => AskedFor s s' ((List.range count.toNat).map fun i => (lba.toNat + i) % 2 ^ 28))
      (fun _ s' => ∃ n ≤ count.toNat,
        AskedFor s s' ((List.range n).map fun i => (lba.toNat + i) % 2 ^ 28)) := by
  have hmap : ∀ n ≤ count.toNat, (List.range n).map (sectorAddress lba)
      = (List.range n).map fun i => (lba.toNat + i) % 2 ^ 28 := by
    intro n hn
    have hlt := count.toNat_lt
    refine List.map_congr_left fun i hi => sectorAddress_eq hlba ?_
    rw [List.mem_range] at hi
    omega
  unfold ataRequest
  rw [if_neg hcount, if_neg hlba]
  refine Sat.mono (ataSectors_sat h) (fun _ s' hs => ?_) fun _ s' hs => ?_
  · rw [← hmap _ le_rfl]
    exact hs
  · obtain ⟨n, hs⟩ := hs
    rw [List.take_range] at hs
    refine ⟨min n count.toNat, Nat.min_le_right .., ?_⟩
    rw [← hmap _ (Nat.min_le_right ..)]
    exact hs

/-- A request that ends below 2^28 asks for its sectors. -/
theorem ataRequest_asksInOrder (h : AsksOnce round (sectorAddress lba))
    (hdef : ∀ sector, Defined (round sector))
    (hend : count = 0 ∨ 2 ^ 28 ≤ lba.toNat ∨ lba.toNat + count.toNat ≤ 2 ^ 28) :
    AsksInOrder lba count s (ataRequest lba count round s) := by
  by_cases hrefused : count = 0 ∨ lba > 0x0FFFFFFF
  · exact ataRequest_refused hrefused
  obtain ⟨hcount, hlba⟩ := not_or.mp hrefused
  have hle : lba.toNat ≤ 0x0FFFFFFF := by
    simpa [UInt32.lt_iff_toNat_lt] using hlba
  have hfits : lba.toNat + count.toNat ≤ 2 ^ 28 := by
    rcases hend with hzero | hlarge | hfits
    · exact absurd hzero hcount
    · omega
    · exact hfits
  have hmap : ∀ n ≤ count.toNat, ((List.range n).map fun i => (lba.toNat + i) % 2 ^ 28)
      = (List.range n).map (lba.toNat + ·) := by
    intro n hn
    refine List.map_congr_left fun i hi => Nat.mod_eq_of_lt ?_
    rw [List.mem_range] at hi
    omega
  have hsat := ataRequest_sat (s := s) h hcount hlba
  have hdefined : Defined (ataRequest lba count round) := by
    unfold ataRequest
    rw [if_neg hcount, if_neg hlba]
    exact ataSectors_defined hdef
  unfold Sat at hsat
  cases hrun : ataRequest lba count round s with
  | ok value s' =>
    rw [hrun] at hsat
    exact ⟨count.toNat, le_rfl, by rw [← hmap _ le_rfl]; exact hsat.addresses, fun _ => rfl⟩
  | error code s' =>
    rw [hrun] at hsat
    obtain ⟨n, hn, hs⟩ := hsat
    exact ⟨n, hn, by rw [← hmap _ hn]; exact hs.addresses, fun hok => by cases hok⟩
  | fault s' => exact absurd hrun (hdefined s s')
  | timeout s' =>
    rw [hrun] at hsat
    exact hsat.elim

/-- A request across 2^28 that returns true has asked for sector 0. -/
theorem not_asksInOrder (h : AsksOnce round (sectorAddress lba)) (hcount : count ≠ 0)
    (hlba : lba.toNat < 2 ^ 28) (hend : 2 ^ 28 < lba.toNat + count.toNat) {s' : AtaState}
    (hrun : ataRequest lba count round s = .ok () s') :
    ¬ AsksInOrder lba count s (ataRequest lba count round s) := by
  have hnot : ¬ lba > 0x0FFFFFFF := by
    simp [UInt32.lt_iff_toNat_lt]
    omega
  have hasked := ((ataRequest_sat h hcount hnot).of_ok hrun).addresses
  rw [hrun]
  rintro ⟨n, -, heq, hn⟩
  rw [hn rfl, Outcome.state, hasked] at heq
  have hmap := List.append_cancel_left heq
  -- the sector behind the limit
  have hget := congrArg (·[2 ^ 28 - lba.toNat]?) hmap
  simp only [List.getElem?_map, List.getElem?_range (show 2 ^ 28 - lba.toNat < count.toNat by omega),
    Option.map_some, Option.some.injEq] at hget
  omega

end

/-! ## A drive that is ready -/

/-- A drive that is ready for data at any time. -/
def readyPorts : Ports := ⟨fun _ _ => 0x08, fun _ _ => 0⟩

section

variable {s : AtaState} {command : UInt8} {lba : UInt32} {count : UInt8}

/-- The program cannot fail. -/
def Succeeds (x : Ata Unit) : Prop := ∀ s, Sat x s (fun _ _ => True) (fun _ _ => False)

theorem Succeeds.bind {x : Ata Unit} {f : Unit → Ata Unit} (hx : Succeeds x)
    (hf : ∀ a, Succeeds (f a)) : Succeeds (x >>= f) :=
  fun s => Sat.bind (hx s) (fun _ _ h => h) fun a s' _ => hf a s'

theorem ioIn8_ready {port : Nat} : Sat (ioIn8 readyPorts port) s (fun status _ => status = 0x08)
    (fun _ _ => False) := rfl

theorem ataIoWait_ready : Succeeds (ataIoWait readyPorts) :=
  fun _ => Sat.mono ataIoWait_sat (fun _ _ _ => trivial) fun _ _ h => h

theorem ataWaitNotBusy_ready : Succeeds (ataWaitNotBusy readyPorts ataSpins) := by
  intro s
  unfold ataWaitNotBusy
  refine Sat.get_bind (Sat.bind ioIn8_ready (fun _ _ h => h) ?_)
  rintro _ s₁ rfl
  exact Sat.ite (fun _ => Sat.pure trivial) fun hbusy => absurd (by decide) hbusy

theorem ataWaitDrq_ready : Succeeds (ataWaitDrq readyPorts ataSpins) := by
  intro s
  unfold ataWaitDrq
  refine Sat.get_bind (Sat.bind ioIn8_ready (fun _ _ h => h) ?_)
  rintro _ s₁ rfl
  refine Sat.ite (fun herr => absurd (by decide) herr) fun _ => ?_
  exact Sat.ite (fun _ => Sat.pure trivial) fun hdrq => absurd (by decide) hdrq

theorem ataReadWords_ready {sector : Nat} {words : List Nat} :
    Succeeds (ataReadWords readyPorts sector words) :=
  fun _ => Sat.mono ataReadWords_sat (fun _ _ _ => trivial) fun _ _ h => h

theorem ataWriteWords_ready {sector : Nat} {words : List Nat} :
    Succeeds (ataWriteWords sector words) :=
  fun _ => Sat.mono ataWriteWords_sat (fun _ _ _ => trivial) fun _ _ h => h

theorem ataSelectSector_ready : Succeeds (ataSelectSector readyPorts command lba) := by
  refine Succeeds.bind ataWaitNotBusy_ready fun _ s => ?_
  refine Sat.get_bind (Sat.modify_bind ?_)
  refine Sat.bind (ataIoWait_ready _) (fun _ _ h => h) fun _ s₁ _ => ?_
  refine Sat.modify_bind (Sat.modify_bind (Sat.modify_bind (Sat.modify_bind (Sat.modify_bind ?_))))
  exact ataWaitDrq_ready _

theorem ataReadSector_ready {sector : Nat} : Succeeds (ataReadSector readyPorts lba sector) := by
  refine Succeeds.bind ataSelectSector_ready fun _ => ?_
  exact Succeeds.bind ataReadWords_ready fun _ => ataIoWait_ready

theorem ataWriteSector_ready {sector : Nat} : Succeeds (ataWriteSector readyPorts lba sector) := by
  refine Succeeds.bind ataSelectSector_ready fun _ => ?_
  refine Succeeds.bind ataWriteWords_ready fun _ => ?_
  exact Succeeds.bind ataIoWait_ready fun _ => ataWaitNotBusy_ready

theorem ataSectors_ready {round : Nat → Ata Unit} (h : ∀ sector, Succeeds (round sector))
    {sectors : List Nat} : Succeeds (ataSectors round sectors) := by
  induction sectors with
  | nil => exact fun s => Sat.pure trivial
  | cons sector rest ih => exact Succeeds.bind (h sector) fun _ => ih

/-- A request on a drive that is ready returns true. -/
theorem ataRequest_ready {round : Nat → Ata Unit} (h : ∀ sector, Succeeds (round sector))
    (hdef : ∀ sector, Defined (round sector)) (hlba : lba.toNat < 2 ^ 28) :
    ∃ s', ataRequest lba count round s = .ok () s' := by
  have hnot : ¬ lba > 0x0FFFFFFF := by
    simp [UInt32.lt_iff_toNat_lt]
    omega
  unfold ataRequest
  rw [if_neg hnot]
  split
  · exact ⟨s, rfl⟩
  · obtain ⟨value, s', hrun, -⟩ := (ataSectors_ready h s).exists_ok (ataSectors_defined hdef)
    exact ⟨s', hrun⟩

theorem ataReadSectors_ready (hlba : lba.toNat < 2 ^ 28) :
    ∃ s', ataReadSectors readyPorts lba count s = .ok () s' :=
  ataRequest_ready (fun _ => ataReadSector_ready) (fun _ => ataReadSector_defined) hlba

theorem ataWriteSectors_ready (hlba : lba.toNat < 2 ^ 28) :
    ∃ s', ataWriteSectors readyPorts lba count s = .ok () s' :=
  ataRequest_ready (fun _ => ataWriteSector_ready) (fun _ => ataWriteSector_defined) hlba

/-- The driver before its first access. -/
def ataStart : AtaState := ⟨primaryMaster, [], fun _ => 0⟩

/-- The sectors are those asked for, whatever the drive does, exactly if the request is empty,
refused or ends at 2^28 or below. -/
theorem asksInOrder_iff (lba : UInt32) (count : UInt8) :
    ((∀ ports s, AsksInOrder lba count s (ataReadSectors ports lba count s)) ↔
      count = 0 ∨ 2 ^ 28 ≤ lba.toNat ∨ lba.toNat + count.toNat ≤ 2 ^ 28) ∧
    ((∀ ports s, AsksInOrder lba count s (ataWriteSectors ports lba count s)) ↔
      count = 0 ∨ 2 ^ 28 ≤ lba.toNat ∨ lba.toNat + count.toNat ≤ 2 ^ 28) := by
  constructor
  · refine ⟨fun h => ?_, fun h ports s =>
      ataRequest_asksInOrder ataReadSector_asksOnce (fun _ => ataReadSector_defined) h⟩
    by_contra hend
    obtain ⟨hcount, hlba, hlong⟩ := not_or.mp hend |>.imp id not_or.mp
    obtain ⟨s', hrun⟩ := ataReadSectors_ready (s := ataStart) (not_le.mp hlba)
    exact not_asksInOrder ataReadSector_asksOnce hcount (not_le.mp hlba) (not_le.mp hlong) hrun
      (h readyPorts ataStart)
  · refine ⟨fun h => ?_, fun h ports s =>
      ataRequest_asksInOrder ataWriteSector_asksOnce (fun _ => ataWriteSector_defined) h⟩
    by_contra hend
    obtain ⟨hcount, hlba, hlong⟩ := not_or.mp hend |>.imp id not_or.mp
    obtain ⟨s', hrun⟩ := ataWriteSectors_ready (s := ataStart) (not_le.mp hlba)
    exact not_asksInOrder ataWriteSector_asksOnce hcount (not_le.mp hlba) (not_le.mp hlong) hrun
      (h readyPorts ataStart)

/-- Of two sectors from the last one on, the second is written at the start of the disk. -/
theorem ataWriteSectors_wraps :
    ∃ s', ataWriteSectors readyPorts 0x0FFFFFFF 2 ataStart = .ok () s' ∧
      s'.addresses = [0x0FFFFFFF, 0] ∧
      ¬ AsksInOrder 0x0FFFFFFF 2 ataStart (ataWriteSectors readyPorts 0x0FFFFFFF 2 ataStart) := by
  have hready : ∃ s', ataWriteSectors readyPorts 0x0FFFFFFF 2 ataStart = .ok () s' :=
    ataWriteSectors_ready (by decide)
  obtain ⟨s', hrun⟩ := hready
  refine ⟨s', hrun, ?_, not_asksInOrder ataWriteSector_asksOnce (by decide) (by decide) (by decide)
    hrun⟩
  have hasked := (ataRequest_sat ataWriteSector_asksOnce (by decide) (by decide)).of_ok hrun
  rw [hasked.addresses]
  rfl

end

end FunnyOS.Devices
