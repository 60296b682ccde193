import FunnyOS.Boot.DevicePathWalk
import FunnyOS.Devices.AhciRuns
import FunnyOS.Devices.AtaRuns
import FunnyOS.Devices.Driver
import FunnyOS.Devices.PciFunctions

/-!
# The block layer

`src/kernel/block.c`: the boot device path names the disk. A disk behind an AHCI controller is tried
first, then one behind the ATA ports; what the path does not name is the primary master. Every
transfer goes to the driver that has been bound.
-/

namespace FunnyOS.Devices

open Boot (AhciDeviceAddress AhciPath BlockPciPathHop BootInfo PathError PciAddress PciBus
  WalkState ahciWalk blockBootPathToAta blockResolvePciPath devicePathNodeSize)
open Prog

/-- `BlockBackendKind`. -/
inductive BlockBackendKind
  | none
  | ataPio
  | ahci
deriving DecidableEq, Repr

/-- The functions that `BlockReadFn` and `BlockWriteFn` point to. -/
inductive BlockDriver
  | ata
  | ahci
deriving DecidableEq, Repr

/-- `BlockDevice`. -/
structure BlockDevice where
  backend : BlockBackendKind
  readSectors : Option BlockDriver
  writeSectors : Option BlockDriver
deriving DecidableEq, Repr

/-- The variables of the two drivers, and `g_block_device`. The memory is the one that the AHCI
controller sees. -/
structure BlockState where
  ahci : AhciState
  ata : AtaState
  device : BlockDevice

/-- A step of the block layer. -/
abbrev Block (α : Type) : Type := Prog BlockState Unit α

/-- The program of the AHCI driver. -/
def onAhci {α : Type} (x : Ahci α) : Block α :=
  onPart BlockState.ahci (fun s ahci => { s with ahci := ahci }) x

/-- The program of the ATA driver. -/
def onAta {α : Type} (x : Ata α) : Block α :=
  onPart BlockState.ata (fun s ata => { s with ata := ata }) x

/-- The device that is bound. -/
def bindDevice (device : BlockDevice) : Block Unit := modify fun s => { s with device := device }

/-! ## The drivers -/

/-- `BLOCK_DRIVER_KIND_AHCI`. -/
abbrev blockDriverKindAhci : UInt32 := 1

/-- `BLOCK_DRIVER_KIND_ATA`. -/
abbrev blockDriverKindAta : UInt32 := 2

/-- `block_driver_match_ahci`. -/
def blockDriverMatchAhci (device : DriverDevice) : Bool :=
  device.classType = .block ∧ device.payload[0] = blockDriverKindAhci

/-- `block_driver_probe_ahci`. -/
def blockDriverProbeAhci (env : AhciEnv) (device : DriverDevice) : Block Bool := do
  let address : AhciDeviceAddress :=
    ⟨⟨device.payload[1].toUInt8, device.payload[2].toUInt8, device.payload[3].toUInt8⟩,
      device.progIf⟩
  if !(← onAhci (ahciInit env address)) then pure false
  else do
    bindDevice ⟨.ahci, some .ahci, some .ahci⟩
    pure true

/-- `block_driver_match_ata`. -/
def blockDriverMatchAta (device : DriverDevice) : Bool :=
  device.classType = .block ∧ device.payload[0] = blockDriverKindAta

/-- `block_driver_probe_ata`. -/
def blockDriverProbeAta (device : DriverDevice) : Block Bool := do
  let address : AtaDeviceAddress := ⟨device.payload[1].toUInt8, device.payload[2].toUInt8⟩
  match ← attempt (onAta (ataInit (some address))) with
  | .error _ => pure false
  | .ok _ => do
    bindDevice ⟨.ataPio, some .ata, some .ata⟩
    pure true

/-- `g_block_driver_ahci`. -/
def gBlockDriverAhci (env : AhciEnv) : DriverOps BlockState :=
  ⟨"ahci", blockDriverMatchAhci, blockDriverProbeAhci env⟩

/-- `g_block_driver_ata`. -/
def gBlockDriverAta : DriverOps BlockState := ⟨"ata", blockDriverMatchAta, blockDriverProbeAta⟩

/-! ## The boot device -/

/-- `block_resolve_pci_path`, from the bus that the hops so far have led to. -/
def resolvePciPath (bus : UInt8) : List BlockPciPathHop → Pci (Option PciAddress)
  | [] => pure none
  | hop :: rest => do
    let address : PciAddress := ⟨bus, hop.device, hop.function⟩
    match ← pciReadDeviceInfo address with
    | none => pure none
    | some info =>
      if rest = [] then pure (some address)
      else if info.classCode ≠ 0x06 ∨ info.subclass ≠ 0x04 then pure none
      else do
        let next ← pciReadConfig8 address 0x19
        if next = 0xFF then pure none else resolvePciPath next rest

/-- A walk along the boot device path. -/
def onPath {α : Type} (info : BootInfo) (x : Boot.Walk α) : Block (Except PathError α) := fun s =>
  match x (.start info) with
  | .ok a _ => .ok (.ok a) s
  | .error e _ => .ok (.error e) s
  | .fault _ => .fault s
  | .timeout _ => .timeout s

/-- `block_boot_path_to_ahci`. -/
def bootPathToAhci (info : BootInfo) : Block (Option AhciDeviceAddress) :=
  if info.bootDevicePathSize < devicePathNodeSize then pure none
  else do
    match ← onPath info ahciWalk with
    | .error _ => pure none
    | .ok path =>
      match path.port with
      | none => pure none
      | some port =>
        match ← onAhci (onPci (resolvePciPath 0 path.hops)) with
        | none => pure none
        | some controller => pure (some ⟨controller, port⟩)

/-- The candidate for an AHCI disk. -/
def ahciCandidate (device : AhciDeviceAddress) : DriverDevice :=
  ⟨.pci, .block, 0, 0, 0, 0, device.port, 0,
    #v[blockDriverKindAhci, device.controller.bus.toUInt32, device.controller.device.toUInt32,
      device.controller.function.toUInt32]⟩

/-- The candidate for an ATA disk. -/
def ataCandidate (device : AtaDeviceAddress) : DriverDevice :=
  ⟨.firmware, .block, 0, 0, 0, 0, 0, 0,
    #v[blockDriverKindAta, device.channel.toUInt32, device.drive.toUInt32, 0]⟩

/-- `block_default_ata_device`. -/
def blockDefaultAtaDevice : AtaDeviceAddress := ⟨0, 0⟩

/-- `block_init`. -/
def blockInit (env : AhciEnv) (info : BootInfo) : Block Bool := do
  bindDevice ⟨.none, none, none⟩
  match driverCoreRegister driverCoreReset (gBlockDriverAhci env) with
  | none => pure false
  | some registry =>
    match driverCoreRegister registry gBlockDriverAta with
    | none => pure false
    | some registry => do
      let ahciDevice ← bootPathToAhci info
      match ← onPath info blockBootPathToAta with
      | .error _ => pure false
      | .ok ataResult => do
        let candidates := (ahciDevice.map ahciCandidate).toList ++
          [ataCandidate (ataResult.getD blockDefaultAtaDevice)]
        match ← driverCoreProbe registry candidates with
        | none => pure false
        | some _ => do
          let s ← get
          pure (s.device.readSectors.isSome && s.device.writeSectors.isSome)

/-! ## Transfers -/

/-- The words in memory from an address on. -/
def loadWords (memory : Nat → UInt8) (buffer : Nat) : Nat → UInt16 := fun p =>
  (memory (buffer + 2 * p)).toUInt16 ||| ((memory (buffer + 2 * p + 1)).toUInt16 <<< 8)

/-- Byte `i` of some words. -/
def wordByte (words : Nat → UInt16) (i : Nat) : UInt8 :=
  if i % 2 = 0 then (words (i / 2)).toUInt8 else (words (i / 2) >>> 8).toUInt8

/-- The ATA driver is done with the sectors in a buffer. -/
def BlockState.withBuffer (s : BlockState) (buffer : Nat) (count : UInt8) (ata : AtaState) :
    BlockState :=
  { s with
    ahci := { s.ahci with
      hba := s.ahci.hba.store buffer (count.toNat * 512) (wordByte ata.words) }
    ata := ata }

/-- The program of the ATA driver with a buffer in memory. -/
def onBuffer (buffer : Nat) (count : UInt8) (x : Ata Unit) : Block Bool := fun s =>
  match x { s.ata with words := loadWords s.ahci.hba.memory buffer } with
  | .ok _ ata => .ok true (s.withBuffer buffer count ata)
  | .error _ ata => .ok false (s.withBuffer buffer count ata)
  | .fault ata => .fault (s.withBuffer buffer count ata)
  | .timeout ata => .timeout (s.withBuffer buffer count ata)

section

variable (env : AhciEnv) (ports : Ports)

/-- `block_read_sectors`. -/
def blockReadSectors (lba : UInt32) (count : UInt8) (out : Nat) : Block Bool := do
  let s ← get
  match s.device.readSectors with
  | none => pure false
  | some .ahci => onAhci (ahciReadSectors env lba count out)
  | some .ata => onBuffer out count (ataReadSectors ports lba count)

/-- `block_write_sectors`. -/
def blockWriteSectors (lba : UInt32) (count : UInt8) (data : Nat) : Block Bool := do
  let s ← get
  match s.device.writeSectors with
  | none => pure false
  | some .ahci => onAhci (ahciWriteSectors env lba count data)
  | some .ata => onBuffer data count (ataWriteSectors ports lba count)

end

/-- `block_backend_kind`. -/
def blockBackendKind : Block BlockBackendKind := do
  let s ← get
  pure s.device.backend

end FunnyOS.Devices
