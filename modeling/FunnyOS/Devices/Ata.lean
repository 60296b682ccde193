import FunnyOS.Lib.Prog

/-!
# The ATA driver

`src/kernel/ata.c`: the driver talks to a drive through I/O ports. A sector is asked for with a
28-bit address, which is put together from four register writes before each command. What the
drive answers is up to the drive: every read of a port may give any value. `return false` is an
error outcome here.
-/

namespace FunnyOS.Devices

open Prog

/-! ## Ports -/

/-- An access to an I/O port. -/
inductive PortAccess
  | in8 (port : Nat) (value : UInt8)
  | in16 (port : Nat) (value : UInt16)
  | out8 (port : Nat) (value : UInt8)
  | out16 (port : Nat) (value : UInt16)
deriving DecidableEq, Repr

/-- What the ports answer, after the accesses so far (the last one first). -/
structure Ports where
  in8 : List PortAccess → Nat → UInt8
  in16 : List PortAccess → Nat → UInt16

/-! ## The driver's state -/

/-- The selected drive, `g_ata_io_base`, `g_ata_ctrl_base` and `g_ata_drive_head`. The lower half
of the drive and head register is left to the sector address. -/
structure AtaDrive where
  ioBase : Nat
  ctrlBase : Nat
  driveHead : UInt8
  head_low : driveHead &&& 0x0F = 0
deriving DecidableEq

/-- `ATA_PRIMARY_IO_BASE`. -/
abbrev ataPrimaryIoBase : Nat := 0x1F0

/-- `ATA_PRIMARY_CTRL_BASE`. -/
abbrev ataPrimaryCtrlBase : Nat := 0x3F6

/-- `ATA_SECONDARY_IO_BASE`. -/
abbrev ataSecondaryIoBase : Nat := 0x170

/-- `ATA_SECONDARY_CTRL_BASE`. -/
abbrev ataSecondaryCtrlBase : Nat := 0x376

/-- The drive that is selected at the start. -/
def primaryMaster : AtaDrive := ⟨ataPrimaryIoBase, ataPrimaryCtrlBase, 0xE0, by decide⟩

/-- The drive, the accesses so far (the last one first), and the words of the caller's buffer. -/
structure AtaState where
  drive : AtaDrive
  history : List PortAccess
  words : Nat → UInt16

/-- A step of the driver. -/
abbrev Ata (α : Type) : Type := Prog AtaState Unit α

/-- `AtaDeviceAddress`. -/
structure AtaDeviceAddress where
  channel : UInt8
  drive : UInt8
deriving DecidableEq, Repr

/-- `ata_init`. -/
def ataInit (device : Option AtaDeviceAddress) : Ata Unit :=
  match device with
  | none => raise ()
  | some device =>
    if device.channel > 1 ∨ device.drive > 1 then raise ()
    else match (device.channel.toNat <<< 1) ||| device.drive.toNat with
      | 0 => modify fun s =>
        { s with drive := ⟨ataPrimaryIoBase, ataPrimaryCtrlBase, 0xE0, by decide⟩ }
      | 1 => modify fun s =>
        { s with drive := ⟨ataPrimaryIoBase, ataPrimaryCtrlBase, 0xF0, by decide⟩ }
      | 2 => modify fun s =>
        { s with drive := ⟨ataSecondaryIoBase, ataSecondaryCtrlBase, 0xE0, by decide⟩ }
      | 3 => modify fun s =>
        { s with drive := ⟨ataSecondaryIoBase, ataSecondaryCtrlBase, 0xF0, by decide⟩ }
      | _ => raise ()

/-! ## Port accesses -/

section

variable (ports : Ports)

/-- `io_in8`. -/
def ioIn8 (port : Nat) : Ata UInt8 := do
  let s ← get
  let value := ports.in8 s.history port
  modify fun s => { s with history := .in8 port value :: s.history }
  pure value

/-- `io_in16`. -/
def ioIn16 (port : Nat) : Ata UInt16 := do
  let s ← get
  let value := ports.in16 s.history port
  modify fun s => { s with history := .in16 port value :: s.history }
  pure value

/-- `io_out8`. -/
def ioOut8 (port : Nat) (value : UInt8) : Ata Unit :=
  modify fun s => { s with history := .out8 port value :: s.history }

/-- `io_out16`. -/
def ioOut16 (port : Nat) (value : UInt16) : Ata Unit :=
  modify fun s => { s with history := .out16 port value :: s.history }

/-! ## The offsets of the registers -/

/-- `ATA_DATA_OFFSET`. -/
abbrev ataDataOffset : Nat := 0

/-- `ATA_SECTOR_COUNT_OFFSET`. -/
abbrev ataSectorCountOffset : Nat := 2

/-- `ATA_LBA_LOW_OFFSET`. -/
abbrev ataLbaLowOffset : Nat := 3

/-- `ATA_LBA_MID_OFFSET`. -/
abbrev ataLbaMidOffset : Nat := 4

/-- `ATA_LBA_HIGH_OFFSET`. -/
abbrev ataLbaHighOffset : Nat := 5

/-- `ATA_DRIVE_OFFSET`. -/
abbrev ataDriveOffset : Nat := 6

/-- `ATA_STATUS_OFFSET`. -/
abbrev ataStatusOffset : Nat := 7

/-- `ATA_COMMAND_OFFSET`. -/
abbrev ataCommandOffset : Nat := 7

/-! ## The driver -/

/-- `ata_io_wait`. -/
def ataIoWait : Ata Unit := do
  let s ← get
  let _ ← ioIn8 ports s.drive.ctrlBase
  let _ ← ioIn8 ports s.drive.ctrlBase
  let _ ← ioIn8 ports s.drive.ctrlBase
  let _ ← ioIn8 ports s.drive.ctrlBase

/-- `ata_wait_not_busy`, with the spins that are left. -/
def ataWaitNotBusy : Nat → Ata Unit
  | 0 => raise ()
  | spins + 1 => do
    let s ← get
    let status ← ioIn8 ports (s.drive.ioBase + ataStatusOffset)
    if status &&& 0x80 = 0 then pure ()
    else ataWaitNotBusy spins

/-- `ata_wait_drq`, with the spins that are left. -/
def ataWaitDrq : Nat → Ata Unit
  | 0 => raise ()
  | spins + 1 => do
    let s ← get
    let status ← ioIn8 ports (s.drive.ioBase + ataStatusOffset)
    if status &&& (0x01 ||| 0x20) ≠ 0 then raise ()
    else if status &&& 0x80 = 0 ∧ status &&& 0x08 ≠ 0 then pure ()
    else ataWaitDrq spins

/-- The spins of both waits. -/
abbrev ataSpins : Nat := 100000

/-- What `ata_read_sectors` and `ata_write_sectors` do for a sector before its data is moved. -/
def ataSelectSector (command : UInt8) (currentLba : UInt32) : Ata Unit := do
  ataWaitNotBusy ports ataSpins
  let s ← get
  let base := s.drive.ioBase
  ioOut8 (base + ataDriveOffset) (s.drive.driveHead ||| ((currentLba >>> 24) &&& 0x0F).toUInt8)
  ataIoWait ports
  ioOut8 (base + ataSectorCountOffset) 1
  ioOut8 (base + ataLbaLowOffset) (currentLba &&& 0xFF).toUInt8
  ioOut8 (base + ataLbaMidOffset) ((currentLba >>> 8) &&& 0xFF).toUInt8
  ioOut8 (base + ataLbaHighOffset) ((currentLba >>> 16) &&& 0xFF).toUInt8
  ioOut8 (base + ataCommandOffset) command
  ataWaitDrq ports ataSpins

/-- The loop that fills a sector of the buffer, over the numbers of its words. -/
def ataReadWords (sector : Nat) : List Nat → Ata Unit
  | [] => pure ()
  | i :: rest => do
    let s ← get
    let word ← ioIn16 ports (s.drive.ioBase + ataDataOffset)
    modify fun s => { s with words := Function.update s.words (sector * 256 + i) word }
    ataReadWords sector rest

/-- The loop that hands a sector of the buffer to the drive, over the numbers of its words. -/
def ataWriteWords (sector : Nat) : List Nat → Ata Unit
  | [] => pure ()
  | i :: rest => do
    let s ← get
    ioOut16 (s.drive.ioBase + ataDataOffset) (s.words (sector * 256 + i))
    ataWriteWords sector rest

/-- A round of the loop of `ata_read_sectors`. -/
def ataReadSector (lba : UInt32) (sector : Nat) : Ata Unit := do
  ataSelectSector ports 0x20 (lba + .ofNat sector)
  ataReadWords ports sector (List.range 256)
  ataIoWait ports

/-- A round of the loop of `ata_write_sectors`. -/
def ataWriteSector (lba : UInt32) (sector : Nat) : Ata Unit := do
  ataSelectSector ports 0x30 (lba + .ofNat sector)
  ataWriteWords sector (List.range 256)
  ataIoWait ports
  ataWaitNotBusy ports ataSpins

/-- The loop over the sectors of a request. -/
def ataSectors (round : Nat → Ata Unit) : List Nat → Ata Unit
  | [] => pure ()
  | sector :: rest => do
    round sector
    ataSectors round rest

/-- The checks and the loop of a request. -/
def ataRequest (lba : UInt32) (count : UInt8) (round : Nat → Ata Unit) : Ata Unit :=
  if count = 0 then pure ()
  else if lba > 0x0FFFFFFF then raise ()
  else ataSectors round (List.range count.toNat)

/-- `ata_read_sectors`. -/
def ataReadSectors (lba : UInt32) (count : UInt8) : Ata Unit :=
  ataRequest lba count (ataReadSector ports lba)

/-- `ata_write_sectors`. -/
def ataWriteSectors (lba : UInt32) (count : UInt8) : Ata Unit :=
  ataRequest lba count (ataWriteSector ports lba)

end

end FunnyOS.Devices
