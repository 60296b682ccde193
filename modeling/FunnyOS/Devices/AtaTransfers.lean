import FunnyOS.Devices.AtaProtocol
import FunnyOS.Lib.Overlay

/-!
# Transfers through the ATA ports

A request that finds the drive idle moves the words of its sectors. If it fails, the drive has
refused a command, or the driver has given up on one that the drive may still be at.
-/

namespace FunnyOS.Devices

open Prog AtaDisk

section

variable {ports : Ports} {drive : AtaDrive} {disk : List PortAccess → AtaDisk}
  {P R : AtaDisk → Prop} {s s₁ s₂ : AtaState} {m : AtaMedium} {port : Nat}

/-- The driver has waited: of the drive it knows `P`, and the rest is as it was. -/
structure Waited (disk : List PortAccess → AtaDisk) (P : AtaDisk → Prop) (s s' : AtaState) : Prop
    where
  drive : s'.drive = s.drive
  words : s'.words = s.words
  registers : ataRegisters s.drive.ioBase s'.history = ataRegisters s.drive.ioBase s.history
  knows : P (disk s'.history)

theorem Waited.trans (h : Waited disk P s s₁) (h' : Waited disk R s₁ s₂) : Waited disk R s s₂ where
  drive := h'.drive.trans h.drive
  words := h'.words.trans h.words
  registers := by rw [← h.registers, ← h.drive, h'.registers]
  knows := h'.knows

theorem Waited.selected (h : Waited disk P s s₁) (hs : s.drive = drive) :
    drive.Selected s₁.history ↔ drive.Selected s.history := by
  have := h.registers
  rw [hs] at this
  rw [AtaDrive.Selected, AtaDrive.Selected, this]

/-- What is known of the drive before a register is read is known after it. -/
theorem ioIn8_waited (hf : ports.Follow drive disk) :
    Sat (ioIn8 ports port) s (fun value s' => value = ports.in8 s.history port ∧
      ∀ P, Steady P → P (disk s.history) → Waited disk P s s') (fun _ _ => False) :=
  ⟨rfl, fun _ hP h => ⟨rfl, rfl, rfl, hP _ _ h (hf.passes s.history (.in8 port _))⟩⟩

theorem ataIoWait_waited (hf : ports.Follow drive disk) (hP : Steady P) (h : P (disk s.history)) :
    Sat (ataIoWait ports) s (fun _ s' => Waited disk P s s') (fun _ _ => False) := by
  have hread : ∀ {port s₀}, Waited disk P s s₀ →
      Sat (ioIn8 ports port) s₀ (fun _ s' => Waited disk P s s') (fun _ _ => False) :=
    fun h₀ => Sat.mono (ioIn8_waited hf) (fun _ _ h' => h₀.trans (h'.2 P hP h₀.knows))
      fun _ _ h' => h'
  refine Sat.get_bind (Sat.bind (hread ⟨rfl, rfl, rfl, h⟩) (fun _ _ h => h.elim) fun _ s₁ h₁ => ?_)
  refine Sat.bind (hread h₁) (fun _ _ h => h.elim) fun _ s₂ h₂ => ?_
  refine Sat.bind (hread h₂) (fun _ _ h => h.elim) fun _ s₃ h₃ => ?_
  exact Sat.bind (hread h₃) (fun _ _ h => h.elim) fun _ s₄ h₄ => Sat.pure h₄

/-- A wait that ends has seen a status with which the drive is not busy. -/
theorem ataWaitNotBusy_waited {spins : Nat} (hf : ports.Follow drive disk) (hP : Steady P)
    (hR : Steady R) (hs : s.drive = drive) (h : P (disk s.history))
    (hfree : ∀ d status, P d → (drive.Selected s.history → d.Shows status) → status &&& 0x80 = 0 →
      R d) :
    Sat (ataWaitNotBusy ports spins) s (fun _ s' => Waited disk R s s')
      (fun _ s' => Waited disk P s s') := by
  induction spins generalizing s with
  | zero => exact Sat.raise ⟨rfl, rfl, rfl, h⟩
  | succ spins ih =>
    subst hs
    refine Sat.get_bind (Sat.bind (ioIn8_waited hf) (fun _ _ h => h.elim) ?_)
    rintro status s₁ ⟨rfl, hknows⟩
    refine Sat.ite (fun hbusy => Sat.pure ?_) fun _ => ?_
    · exact hknows R hR (hfree _ _ h (hf.status s.history) hbusy)
    · have h₁ := hknows P hP h
      refine Sat.mono (ih h₁.drive h₁.knows fun d status hd hshows => hfree d status hd fun hsel =>
        hshows ((h₁.selected rfl).mpr hsel)) (fun _ _ h' => h₁.trans h') fun _ _ h' => h₁.trans h'

/-- So has a wait for data: the drive is not busy, and asks for it without an error. -/
theorem ataWaitDrq_waited {spins : Nat} (hf : ports.Follow drive disk) (hP : Steady P)
    (hR : Steady R) (hs : s.drive = drive) (h : P (disk s.history))
    (hasks : ∀ d status, P d → (drive.Selected s.history → d.Shows status) →
      status &&& (0x01 ||| 0x20) = 0 → status &&& 0x80 = 0 → status &&& 0x08 ≠ 0 → R d) :
    Sat (ataWaitDrq ports spins) s (fun _ s' => Waited disk R s s')
      (fun _ s' => Waited disk P s s') := by
  induction spins generalizing s with
  | zero => exact Sat.raise ⟨rfl, rfl, rfl, h⟩
  | succ spins ih =>
    subst hs
    refine Sat.get_bind (Sat.bind (ioIn8_waited hf) (fun _ _ h => h.elim) ?_)
    rintro status s₁ ⟨rfl, hknows⟩
    have h₁ := hknows P hP h
    refine Sat.ite (fun _ => Sat.raise h₁) fun herror =>
      Sat.ite (fun hready => Sat.pure ?_) fun _ => ?_
    · exact hknows R hR (hasks _ _ h (hf.status s.history) (not_not.mp herror) hready.1 hready.2)
    · refine Sat.mono (ih h₁.drive h₁.knows fun d status hd hshows => hasks d status hd fun hsel =>
        hshows ((h₁.selected rfl).mpr hsel)) (fun _ _ h' => h₁.trans h') fun _ _ h' => h₁.trans h'

end

/-! ## A command -/

/-- The upper half of the drive and head register is what the driver has for it. -/
theorem head_and_240 {drive : AtaDrive} {x : UInt32} :
    (drive.driveHead ||| (x &&& 0x0F).toUInt8) &&& 0xF0 = drive.driveHead := by
  have hhigh : ∀ b : UInt8, b &&& 0x0F = 0 → b.toNat &&& 240 = b.toNat := by decide +kernel
  have hlow : ∀ n < 16, n &&& 240 = 0 := by decide
  have hmod : x.toNat % 2 ^ 4 < 16 := Nat.mod_lt _ (by decide)
  apply UInt8.toNat_inj.mp
  rw [UInt8.toNat_and, UInt8.toNat_or, toUInt8_and_15]
  calc (drive.driveHead.toNat ||| x.toNat % 2 ^ 4) &&& 240
      = (drive.driveHead.toNat &&& 240) ||| (x.toNat % 2 ^ 4 &&& 240) :=
        Nat.and_or_distrib_right ..
    _ = drive.driveHead.toNat := by rw [hhigh _ drive.head_low, hlow _ hmod, Nat.or_zero]

section

variable {ports : Ports} {drive : AtaDrive} {disk : List PortAccess → AtaDisk} {s : AtaState}
  {m : AtaMedium} {write : Bool} {lba : UInt32} {port : Nat} {value : UInt8}
  {earlier : List PortAccess}

/-- `command` of a transfer. -/
def transferCommand (write : Bool) : UInt8 := if write then 0x30 else 0x20

theorem settled_out8 (hf : ports.Follow drive disk) (h : Settled m (disk earlier))
    (hport : port ≠ drive.ioBase + ataCommandOffset) :
    Settled m (disk (.out8 port value :: earlier)) := by
  refine Settled.steady _ _ ?_ (hf.passes earlier _)
  rw [access, if_neg hport, if_pos h.phase]
  exact h

/-- The accesses when the registers have been written for a command. -/
def AtaState.addressed (s : AtaState) (lba : UInt32) : List PortAccess :=
  let base := s.drive.ioBase
  .out8 (base + ataLbaHighOffset) ((lba >>> 16) &&& 0xFF).toUInt8 ::
    .out8 (base + ataLbaMidOffset) ((lba >>> 8) &&& 0xFF).toUInt8 ::
    .out8 (base + ataLbaLowOffset) (lba &&& 0xFF).toUInt8 ::
    .out8 (base + ataSectorCountOffset) 1 :: s.history

theorem addressed_registers (hhead : (ataRegisters s.drive.ioBase s.history).head
      = s.drive.driveHead ||| ((lba >>> 24) &&& 0x0F).toUInt8) :
    (ataRegisters s.drive.ioBase (s.addressed lba)).address = maskedAddress lba ∧
      s.drive.Selected (s.addressed lba) ∧
      ataSectorCount s.drive.ioBase (s.addressed lba) = 1 := by
  have hregisters : ataRegisters s.drive.ioBase (s.addressed lba)
      = ⟨(lba &&& 0xFF).toUInt8, ((lba >>> 8) &&& 0xFF).toUInt8, ((lba >>> 16) &&& 0xFF).toUInt8,
        s.drive.driveHead ||| ((lba >>> 24) &&& 0x0F).toUInt8⟩ := by
    rw [← hhead]
    simp [AtaState.addressed, ataRegisters]
  refine ⟨?_, ?_, by simp [AtaState.addressed, ataSectorCount]⟩
  · rw [hregisters, registers_address]
  · rw [AtaDrive.Selected, hregisters]
    exact head_and_240

theorem addressed_settled (hf : ports.Follow s.drive disk)
    (h : Settled m (disk s.history)) : Settled m (disk (s.addressed lba)) := by
  refine settled_out8 hf (settled_out8 hf (settled_out8 hf (settled_out8 hf h ?_) ?_) ?_) ?_
  all_goals simp

/-- The command is written when the registers hold the address, a count of one, and the drive. -/
theorem withCommand_underway (hf : ports.Follow s.drive disk)
    (h : Settled m (disk s.history)) (hhead : (ataRegisters s.drive.ioBase s.history).head
      = s.drive.driveHead ||| ((lba >>> 24) &&& 0x0F).toUInt8) :
    Underway write (maskedAddress lba) m
        (disk (s.withCommand lba (transferCommand write)).history) ∧
      s.drive.Selected (s.withCommand lba (transferCommand write)).history := by
  obtain ⟨haddress, hsel, hcount⟩ := addressed_registers hhead
  have hidle : Settled m (disk (s.addressed lba)) := addressed_settled hf h
  constructor
  · refine Underway.steady _ _ ?_ (hf.passes (s.addressed lba) _)
    rw [access, if_pos rfl, if_pos hsel, AtaDisk.command, if_neg (by simp [hidle.phase, hcount]),
      haddress]
    cases write with
    | false => exact ⟨.inl rfl, hidle.medium⟩
    | true => exact ⟨.inl rfl, hidle.medium⟩
  · rw [AtaDrive.Selected, ← hsel, AtaState.withCommand, ataRegisters]
    simp [AtaState.addressed]

/-- The drive is asked for a sector, and asks for its first word. -/
theorem ataSelectSector_first (hf : ports.Follow drive disk) (hs : s.drive = drive)
    (h : Settled m (disk s.history)) :
    Sat (ataSelectSector ports (transferCommand write) lba) s
      (fun _ s' => s'.drive = drive ∧ s'.words = s.words ∧ drive.Selected s'.history ∧
        Ready write (maskedAddress lba) m (disk s'.history))
      (fun _ s' => s'.drive = drive ∧ s'.words = s.words ∧
        Underway write (maskedAddress lba) m (disk s'.history)) := by
  subst hs
  refine Sat.bind (ataWaitNotBusy_waited hf Settled.steady Settled.steady rfl h
    fun _ _ hd _ _ => hd) ?_ fun _ s₁ h₁ => ?_
  · exact fun _ s₁ h₁ => ⟨h₁.drive, h₁.words, .inr (.inr (.inr h₁.knows.phase)), h₁.knows.medium⟩
  refine Sat.get_bind (Sat.modify_bind ?_)
  have hhead : Settled m (disk (s₁.withHead lba).history) := by
    refine settled_out8 hf h₁.knows ?_
    rw [h₁.drive]
    simp
  refine Sat.bind (ataIoWait_waited hf Settled.steady hhead) (fun _ _ h => h.elim) fun _ s₂ h₂ => ?_
  have hdrive : s₂.drive = s.drive := h₂.drive.trans h₁.drive
  have hregister : (ataRegisters s₂.drive.ioBase s₂.history).head
      = s₂.drive.driveHead ||| ((lba >>> 24) &&& 0x0F).toUInt8 := by
    rw [h₂.drive]
    exact (congrArg AtaRegisters.head h₂.registers).trans withHead_registers
  rw [← hdrive] at hf ⊢
  have hbase : s₁.drive.ioBase = s₂.drive.ioBase := congrArg AtaDrive.ioBase h₂.drive.symm
  rw [hbase]
  have hcommand : Underway write (maskedAddress lba) m
        (disk (s₂.withCommand lba (transferCommand write)).history) ∧
      s₂.drive.Selected (s₂.withCommand lba (transferCommand write)).history :=
    withCommand_underway hf h₂.knows hregister
  have hwait : Sat (ataWaitDrq ports ataSpins) (s₂.withCommand lba (transferCommand write))
      (fun _ s' => Waited disk (Ready write (maskedAddress lba) m)
        (s₂.withCommand lba (transferCommand write)) s')
      (fun _ s' => Waited disk (Underway write (maskedAddress lba) m)
        (s₂.withCommand lba (transferCommand write)) s') :=
    ataWaitDrq_waited hf Underway.steady Ready.steady rfl hcommand.1
      fun _ _ hd hshows herror hbusy hdrq => hd.ready (hshows hcommand.2) herror hbusy hdrq
  have hwords : s₂.words = s.words := h₂.words.trans h₁.words
  refine Sat.modify_bind (Sat.modify_bind (Sat.modify_bind (Sat.modify_bind (Sat.modify_bind ?_))))
  refine Sat.mono hwait (fun _ s' h' => ?_) fun _ s' h' => ?_
  · exact ⟨h'.drive, h'.words.trans hwords, (h'.selected rfl).mpr hcommand.2, h'.knows⟩
  · exact ⟨h'.drive, h'.words.trans hwords, h'.knows⟩

end

/-! ## The words of a sector -/

section

variable {ports : Ports} {drive : AtaDrive} {disk : List PortAccess → AtaDisk} {s : AtaState}
  {m : AtaMedium} {address sector k n : Nat} {words : List UInt16}

/-- The words that are still offered come to their places in the buffer. -/
theorem ataReadWords_moves (hf : ports.Follow drive disk) (hs : s.drive = drive)
    (hsel : drive.Selected s.history) (hk : k + n = 256)
    (h : Offering address k m (disk s.history)) :
    Sat (ataReadWords ports sector (List.range' k n)) s
      (fun _ s' => s'.drive = drive ∧ s'.words = overlay s.words (sector * 256 + k) n
        (fun i => m.sectors (address, k + i)) ∧ Settled m (disk s'.history))
      (fun _ _ => False) := by
  induction n generalizing k s with
  | zero =>
    refine Sat.pure ⟨hs, overlay_zero.symm, ?_, h.medium⟩
    rw [h.phase, offeringFrom, if_neg (by omega)]
  | succ n ih =>
    subst hs
    have hphase : (disk s.history).phase = .offering address k := by
      rw [h.phase, offeringFrom, if_pos (by omega)]
    have hword := hf.data s.history address k hsel hphase
    have hnext : Offering address (k + 1) m
        (disk (.in16 (s.drive.ioBase + ataDataOffset) (ports.in16 s.history
          (s.drive.ioBase + ataDataOffset)) :: s.history)) := by
      refine Offering.steady _ _ ?_ (hf.passes s.history _)
      rw [access, if_pos ⟨rfl, hsel⟩, give, hphase]
      exact ⟨rfl, h.medium⟩
    have hread : ioIn16 ports (s.drive.ioBase + ataDataOffset) s
        = .ok (ports.in16 s.history (s.drive.ioBase + ataDataOffset)) _ := rfl
    refine Sat.get_bind (Sat.of_bind_ok hread (Sat.modify_bind ?_))
    refine Sat.mono (ih (k := k + 1) rfl hsel (by omega) hnext) ?_ fun _ _ h' => h'
    rintro _ s' ⟨hdrive, hwords, hdone⟩
    refine ⟨hdrive, hwords.trans ?_, hdone⟩
    rw [← overlay_update, hword, h.medium]
    simp only [Nat.add_zero, Nat.add_assoc, Nat.add_comm 1]

/-- The words of the buffer are handed over. -/
theorem ataWriteWords_moves (hf : ports.Follow drive disk) (hs : s.drive = drive)
    (hsel : drive.Selected s.history) (hk : k + n = 256) (hlen : words.length = k)
    (h : Given address words m (disk s.history)) :
    Sat (ataWriteWords sector (List.range' k n)) s
      (fun _ s' => s'.drive = drive ∧ s'.words = s.words ∧ drive.Selected s'.history ∧
        Storing address (words ++ (List.range' k n).map fun i => s.words (sector * 256 + i)) m
          (disk s'.history))
      (fun _ _ => False) := by
  induction n generalizing k s words with
  | zero =>
    refine Sat.pure ⟨hs, rfl, hsel, ?_⟩
    rw [List.range'_zero, List.map_nil, List.append_nil]
    exact h.whole (by omega)
  | succ n ih =>
    subst hs
    obtain ⟨hphase, hmedium⟩ := h.part (by omega)
    have hnext : Given address (words ++ [s.words (sector * 256 + k)]) m
        (disk (.out16 (s.drive.ioBase + ataDataOffset) (s.words (sector * 256 + k)) :: s.history))
        := by
      refine Given.steady _ _ ?_ (hf.passes s.history _)
      rw [access, if_pos ⟨rfl, hsel⟩, take, hphase]
      refine ⟨fun hlt => ⟨if_pos hlt, hmedium⟩, fun hle => .inl ⟨if_neg (by omega), hmedium⟩⟩
    refine Sat.get_bind (Sat.modify_bind ?_)
    refine Sat.mono (ih (k := k + 1) rfl hsel (by omega) (by simp [hlen]) hnext) ?_ fun _ _ h' => h'
    rintro _ s' ⟨hdrive, hwords, hsel', hdone⟩
    refine ⟨hdrive, hwords, hsel', ?_⟩
    rw [List.append_assoc] at hdone
    exact hdone

end

-- The loops stay closed below.
attribute [local irreducible] ataWaitNotBusy ataWaitDrq ataReadWords ataWriteWords ataSelectSector

/-! ## A sector -/

section

variable {ports : Ports} {drive : AtaDrive} {disk : List PortAccess → AtaDisk} {s : AtaState}
  {m : AtaMedium} {lba : UInt32} {sector : Nat}

/-- The words of a sector in the buffer. -/
def sectorWords (words : Nat → UInt16) (sector : Nat) : List UInt16 :=
  (List.range 256).map fun i => words (sector * 256 + i)

theorem ataReadSector_moves (hf : ports.Follow drive disk) (hs : s.drive = drive)
    (h : Settled m (disk s.history)) :
    Sat (ataReadSector ports lba sector) s
      (fun _ s' => s'.drive = drive ∧ s'.words = overlay s.words (sector * 256) 256
        (fun i => m.sectors (sectorAddress lba sector, i)) ∧ Settled m (disk s'.history))
      (fun _ s' => s'.drive = drive ∧ (disk s'.history).medium = m) := by
  have hselect : Sat (ataSelectSector ports (transferCommand false) (lba + .ofNat sector)) s _ _ :=
    ataSelectSector_first hf hs h
  refine Sat.bind hselect (fun _ _ h' => ⟨h'.1, h'.2.2.medium⟩) fun _ s₁ h₁ => ?_
  obtain ⟨hdrive, hwords, hsel, hready⟩ := h₁
  rw [List.range_eq_range']
  have hoffers : Offering (sectorAddress lba sector) 0 m (disk s₁.history) :=
    ⟨hready.phase, hready.medium⟩
  refine Sat.bind (ataReadWords_moves hf hdrive hsel (by omega) hoffers) (fun _ _ h => h.elim)
    fun _ s₂ h₂ => ?_
  obtain ⟨hdrive', hwords', hdone⟩ := h₂
  refine Sat.mono (ataIoWait_waited hf Settled.steady hdone) (fun _ s' h' => ?_)
    fun _ _ h' => h'.elim
  refine ⟨h'.drive.trans hdrive', ?_, h'.knows⟩
  rw [h'.words, hwords', hwords]
  simp only [Nat.zero_add, Nat.add_zero]

/-- The last wait does not look at the error bits: also a write that has ended with an error is one
that the driver goes on behind. -/
theorem ataWriteSector_moves (hf : ports.Follow drive disk) (hs : s.drive = drive)
    (h : Settled m (disk s.history)) :
    Sat (ataWriteSector ports lba sector) s
      (fun _ s' => s'.drive = drive ∧ s'.words = s.words ∧
        Ended (sectorAddress lba sector) (sectorWords s.words sector) m (disk s'.history))
      (fun _ s' => s'.drive = drive ∧ ((disk s'.history).medium = m ∨
        m.Ends (sectorAddress lba sector) (sectorWords s.words sector)
          (disk s'.history).medium)) := by
  have hselect : Sat (ataSelectSector ports (transferCommand true) (lba + .ofNat sector)) s _ _ :=
    ataSelectSector_first hf hs h
  refine Sat.bind hselect (fun _ _ h' => ⟨h'.1, .inl h'.2.2.medium⟩) fun _ s₁ h₁ => ?_
  obtain ⟨hdrive, hwords, hsel, hready⟩ := h₁
  rw [List.range_eq_range']
  have hgiven : Given (sectorAddress lba sector) [] m (disk s₁.history) :=
    ⟨fun _ => ⟨hready.phase, hready.medium⟩, fun hle => absurd hle (by decide)⟩
  refine Sat.bind (ataWriteWords_moves hf hdrive hsel (by omega) rfl hgiven) (fun _ _ h => h.elim)
    fun _ s₂ h₂ => ?_
  obtain ⟨hdrive', hwords', hsel', hstoring⟩ := h₂
  rw [List.nil_append, ← List.range_eq_range', hwords] at hstoring
  refine Sat.bind (ataIoWait_waited hf Storing.steady hstoring) (fun _ _ h => h.elim)
    fun _ s₃ h₃ => ?_
  have hdrive₃ : s₃.drive = drive := h₃.drive.trans hdrive'
  have hsel₃ := (h₃.selected hdrive').mpr hsel'
  have hwords₃ : s₃.words = s.words := h₃.words.trans (hwords'.trans hwords)
  refine Sat.mono (ataWaitNotBusy_waited hf Storing.steady Ended.steady hdrive₃ h₃.knows
    fun _ _ hd hshows hbusy => hd.ended (hshows hsel₃) hbusy)
    (fun _ s' h' => ?_) fun _ s' h' => ?_
  · exact ⟨h'.drive.trans hdrive₃, h'.words.trans hwords₃, h'.knows⟩
  · refine ⟨h'.drive.trans hdrive₃, ?_⟩
    rcases h'.knows with ⟨-, hmedium⟩ | ⟨m', hends, hsettled⟩
    · exact .inl hmedium
    · exact .inr (hsettled.medium ▸ hends)

end

end FunnyOS.Devices
