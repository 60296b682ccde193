import FunnyOS.Devices.Pci
import FunnyOS.Lib.Overlay
import FunnyOS.Lib.Parts

/-!
# The AHCI driver

`src/kernel/ahci.c`: the driver tells the controller of a SATA disk through the registers of a port
where in memory a command list, a command table and a place for received frames are. A transfer is
written into the table, issued through a register, and then waited for. What the controller does
meanwhile is up to the controller: it may move before every access to one of its registers.
-/

namespace FunnyOS.Devices

open Boot (AhciDeviceAddress)
open Prog

/-! ## Constants -/

/-- `AHCI_BAR_INDEX`. -/
abbrev ahciBarIndex : UInt8 := 5

/-- `AHCI_PORT_COUNT`. -/
abbrev ahciPortCount : UInt8 := 32

/-- `HBA_GHC_AE`. -/
abbrev hbaGhcAe : UInt32 := 0x80000000

/-- `HBA_PXIS_TFES`. -/
abbrev hbaPxisTfes : UInt32 := 0x40000000

/-- `HBA_PXCMD_ST`. -/
abbrev hbaPxcmdSt : UInt32 := 0x1

/-- `HBA_PXCMD_SUD`. -/
abbrev hbaPxcmdSud : UInt32 := 0x2

/-- `HBA_PXCMD_FRE`. -/
abbrev hbaPxcmdFre : UInt32 := 0x10

/-- `HBA_PXCMD_FR`. -/
abbrev hbaPxcmdFr : UInt32 := 0x4000

/-- `HBA_PXCMD_CR`. -/
abbrev hbaPxcmdCr : UInt32 := 0x8000

/-- `HBA_PXTFD_BSY` and `HBA_PXTFD_DRQ`. -/
abbrev hbaPxtfdBusy : UInt32 := 0x88

/-- `SATA_SIG_ATA`. -/
abbrev sataSigAta : UInt32 := 0x101

/-- `FIS_TYPE_REG_H2D`. -/
abbrev fisTypeRegH2d : UInt8 := 0x27

/-- `ATA_CMD_READ_DMA_EXT`. -/
abbrev ataCmdReadDmaExt : UInt8 := 0x25

/-- `ATA_CMD_WRITE_DMA_EXT`. -/
abbrev ataCmdWriteDmaExt : UInt8 := 0x35

/-- The rounds of the loops that wait. -/
abbrev ahciSpins : Nat := 1000000

/-- `AHCI_MAX_PRDT_BYTES`. -/
abbrev ahciMaxPrdtBytes : Nat := 4 * 1024 * 1024

/-! ## The controller and the memory -/

/-- `HbaPort`, the registers that the driver uses. -/
structure HbaPort where
  clb : UInt32
  clbu : UInt32
  fb : UInt32
  fbu : UInt32
  is : UInt32
  ie : UInt32
  cmd : UInt32
  tfd : UInt32
  sig : UInt32
  ssts : UInt32
  serr : UInt32
  sact : UInt32
  ci : UInt32

/-- A port, whether it has stopped at an error, whether the kernel has written to memory since the
last command was issued, and the sectors of the disk behind it. -/
structure AhciPort where
  regs : HbaPort
  halted : Bool
  disturbed : Bool
  sectors : Nat → Nat → UInt8

/-- The physical memory, and the controller (`HbaMemory`, the registers that the driver uses). -/
structure Hba where
  memory : Nat → UInt8
  ghc : UInt32
  pi : UInt32
  ports : Nat → AhciPort

namespace Hba

/-- The port `p` changes. -/
def setPort (hba : Hba) (p : Nat) (f : AhciPort → AhciPort) : Hba :=
  { hba with ports := Function.update hba.ports p (f (hba.ports p)) }

/-- `count` bytes from an address on, of which byte `i` is `value i`. -/
def store (hba : Hba) (address count : Nat) (value : Nat → UInt8) : Hba :=
  { hba with memory := overlay hba.memory address count value }

end Hba

/-- Byte `i` of a number. -/
def byteOf (n : Nat) (i : Nat) : UInt8 := .ofNat (n / 256 ^ i)

/-! ## What a write to a register does -/

namespace HbaPort

/-- A write to `is` clears the bits that are set in the value. -/
def writeIs (port : HbaPort) (value : UInt32) : HbaPort := { port with is := port.is &&& ~~~value }

/-- A write to `serr` clears as well. -/
def writeSerr (port : HbaPort) (value : UInt32) : HbaPort :=
  { port with serr := port.serr &&& ~~~value }

/-- A write to `sact` sets bits. -/
def writeSact (port : HbaPort) (value : UInt32) : HbaPort :=
  { port with sact := port.sact ||| value }

/-- A write to `ci` issues commands, where the port is started. -/
def writeCi (port : HbaPort) (value : UInt32) : HbaPort :=
  if port.cmd &&& hbaPxcmdSt = 0 then port else { port with ci := port.ci ||| value }

end HbaPort

@[inherit_doc HbaPort.writeCi]
def AhciPort.writeCi (port : AhciPort) (value : UInt32) : AhciPort :=
  { port with regs := port.regs.writeCi value, disturbed := false }

/-- A write to `cmd` leaves the bits that the port itself sets. A port that is not started has no
commands and is at no error. -/
def AhciPort.writeCmd (port : AhciPort) (value : UInt32) : AhciPort :=
  let own := hbaPxcmdFr ||| hbaPxcmdCr
  let cmd := (value &&& ~~~own) ||| (port.regs.cmd &&& own)
  if value &&& hbaPxcmdSt = 0 then
    { port with regs := { port.regs with cmd := cmd, ci := 0 }, halted := false }
  else { port with regs := { port.regs with cmd := cmd } }

/-! ## The driver -/

/-- The controller and the memory, the accesses to registers so far, the pages that `alloc_pages`
has been asked for so far, the PCI bus, and `g_port`, `g_command_list`, `g_received_fis` and
`g_command_table`. -/
structure AhciState where
  hba : Hba
  accesses : Nat
  allocations : Nat
  pci : PciState
  gPort : Option Nat
  commandList : Option Nat
  receivedFis : Option Nat
  commandTable : Option Nat

/-- A step of the driver. -/
abbrev Ahci (α : Type) : Type := Prog AhciState Unit α

/-- What is around the driver: the moves of the controller before its accesses, the pages that
`alloc_pages` gives, and whether `paging_map_range` maps the registers. -/
structure AhciEnv where
  moves : Nat → Hba → Hba
  allocPages : Nat → Option Nat
  pagingMapRange : Nat → Bool

/-- The program on the PCI bus. -/
def onPci {α : Type} (x : Pci α) : Ahci α :=
  onPart AhciState.pci (fun s pci => { s with pci := pci }) x

section

variable (env : AhciEnv)

/-- The controller moves. -/
def controllerMoves : Ahci Unit :=
  modify fun s => { s with hba := env.moves s.accesses s.hba, accesses := s.accesses + 1 }

/-- A register of a port is read. -/
def readPort (p : Nat) (register : HbaPort → UInt32) : Ahci UInt32 := do
  controllerMoves env
  let s ← get
  pure (register (s.hba.ports p).regs)

/-- A register of a port is written. -/
def writePort (p : Nat) (f : AhciPort → AhciPort) : Ahci Unit := do
  controllerMoves env
  modify fun s => { s with hba := s.hba.setPort p f }

/-- The same, of a register that only changes the registers. -/
def writeRegs (p : Nat) (f : HbaPort → HbaPort) : Ahci Unit :=
  writePort env p fun port => { port with regs := f port.regs }

/-- Memory is written. -/
def writeMemory (address count : Nat) (value : Nat → UInt8) : Ahci Unit :=
  modify fun s => { s with hba := s.hba.store address count value }

/-- `ahci_wait_port_mask_clear`. -/
def ahciWaitPortMaskClear (p : Nat) (mask : UInt32) : Nat → Ahci Bool
  | 0 => pure false
  | spins + 1 => do
    let cmd ← readPort env p HbaPort.cmd
    if cmd &&& mask = 0 then pure true else ahciWaitPortMaskClear p mask spins

/-- `ahci_wait_port_ready`. -/
def ahciWaitPortReady (p : Nat) : Nat → Ahci Bool
  | 0 => pure false
  | spins + 1 => do
    let tfd ← readPort env p HbaPort.tfd
    if tfd &&& hbaPxtfdBusy = 0 then pure true else ahciWaitPortReady p spins

/-- `port->cmd &= mask` and `port->cmd |= mask`. -/
def changeCmd (p : Nat) (f : UInt32 → UInt32) : Ahci Unit := do
  let cmd ← readPort env p HbaPort.cmd
  writePort env p (·.writeCmd (f cmd))

/-- `ahci_stop_port`. -/
def ahciStopPort (p : Nat) : Ahci Unit := do
  changeCmd env p (· &&& ~~~hbaPxcmdSt)
  changeCmd env p (· &&& ~~~hbaPxcmdFre)
  let _ ← ahciWaitPortMaskClear env p (hbaPxcmdFr ||| hbaPxcmdCr) ahciSpins

/-- `ahci_start_port`. -/
def ahciStartPort (p : Nat) : Ahci Unit := do
  let _ ← ahciWaitPortMaskClear env p hbaPxcmdCr ahciSpins
  changeCmd env p (· ||| (hbaPxcmdFre ||| hbaPxcmdSud))
  changeCmd env p (· ||| hbaPxcmdSt)

/-- `ahci_port_has_sata_drive`. -/
def ahciPortHasSataDrive (p : Nat) : Ahci Bool := do
  let ssts ← readPort env p HbaPort.ssts
  if ssts &&& 0x0F ≠ 0x03 ∨ (ssts >>> 8) &&& 0x0F ≠ 0x01 then pure false
  else do
    let sig ← readPort env p HbaPort.sig
    pure (sig = sataSigAta)

/-- A page of the driver: the one that it has, or a new one. -/
def ahciPage (page : AhciState → Option Nat) (keep : Nat → AhciState → AhciState) : Ahci Bool := do
  let s ← get
  match page s with
  | some _ => pure true
  | none => do
    modify fun s => { s with allocations := s.allocations + 1 }
    match env.allocPages s.allocations with
    | none => pure false
    | some address => do
      modify (keep address)
      pure true

/-- The pages are filled with zeroes. -/
def ahciClearPage (page : AhciState → Option Nat) : Ahci Unit := do
  let s ← get
  match page s with
  | none => fault
  | some address => writeMemory address 4096 fun _ => 0

/-- `ahci_prepare_memory`. -/
def ahciPrepareMemory : Ahci Bool := do
  if !(← ahciPage env AhciState.commandList fun a s => { s with commandList := some a }) then
    pure false
  else if !(← ahciPage env AhciState.receivedFis fun a s => { s with receivedFis := some a }) then
    pure false
  else if !(← ahciPage env AhciState.commandTable fun a s => { s with commandTable := some a }) then
    pure false
  else do
    ahciClearPage AhciState.commandList
    ahciClearPage AhciState.receivedFis
    ahciClearPage AhciState.commandTable
    pure true

/-- `header->flags` up to `header->prdbc`, with `flags`. -/
def storeHeader (list : Nat) (flags : UInt8) : Ahci Unit := do
  writeMemory list 1 fun _ => flags
  writeMemory (list + 1) 1 fun _ => 0
  writeMemory (list + 2) 2 (byteOf 1)
  writeMemory (list + 4) 4 fun _ => 0

/-- `ahci_configure_port`. -/
def ahciConfigurePort (p : Nat) : Ahci Bool := do
  if !(← ahciPrepareMemory env) then pure false
  else do
    ahciStopPort env p
    let s ← get
    match s.commandList, s.receivedFis, s.commandTable with
    | some list, some fis, some table => do
      writeRegs env p fun port => { port with clb := .ofNat list }
      writeRegs env p fun port => { port with clbu := 0 }
      writeRegs env p fun port => { port with fb := .ofNat fis }
      writeRegs env p fun port => { port with fbu := 0 }
      writeRegs env p (·.writeIs 0xFFFFFFFF)
      writeRegs env p fun port => { port with ie := 0 }
      writeRegs env p (·.writeSerr 0xFFFFFFFF)
      writeRegs env p (·.writeSact 0)
      writeRegs env p (·.writeCi 0)
      storeHeader list 5
      writeMemory (list + 8) 4 (byteOf (table % 2 ^ 32))
      writeMemory (list + 12) 4 fun _ => 0
      ahciStartPort env p
      ahciWaitPortReady env p ahciSpins
    | _, _, _ => fault

/-- The frame of a command (`FisRegH2D`). -/
def fisRegH2D (lba : UInt32) (count : UInt8) (write : Bool) : List UInt8 :=
  [fisTypeRegH2d, 0x80, if write then ataCmdWriteDmaExt else ataCmdReadDmaExt, 0,
    (lba &&& 0xFF).toUInt8, ((lba >>> 8) &&& 0xFF).toUInt8, ((lba >>> 16) &&& 0xFF).toUInt8, 0x40,
    ((lba >>> 24) &&& 0xFF).toUInt8, 0, 0, 0, count, 0, 0, 0]

/-- The command table and the command header of a transfer. -/
def storeCommand (list table : Nat) (lba : UInt32) (count : UInt8) (buffer : Nat) (write : Bool) :
    Ahci Unit := do
  writeMemory table 144 fun _ => 0
  storeHeader list (if write then (5 : UInt8) ||| ((1 : UInt8) <<< 6) else 5)
  writeMemory (table + 128) 4 (byteOf (buffer % 2 ^ 32))
  writeMemory (table + 132) 4 fun _ => 0
  writeMemory (table + 136) 4 fun _ => 0
  writeMemory (table + 140) 4 (byteOf (count.toNat * 512 - 1))
  writeMemory table 16 fun i => (fisRegH2D lba count write).getD i 0

/-- The loop that waits for the command: false where the driver returns from it. -/
def ahciWaitIssued (p : Nat) : Nat → Ahci Bool
  | 0 => pure true
  | spins + 1 => do
    let ci ← readPort env p HbaPort.ci
    if ci &&& 1 = 0 then pure true
    else do
      let is ← readPort env p HbaPort.is
      if is &&& hbaPxisTfes ≠ 0 then pure false else ahciWaitIssued p spins

/-- The end of `ahci_issue_io`. -/
def ahciFinish (p : Nat) : Ahci Bool := do
  let ci ← readPort env p HbaPort.ci
  if ci &&& 1 ≠ 0 then pure false
  else do
    let is ← readPort env p HbaPort.is
    pure (is &&& hbaPxisTfes = 0)

/-- `ahci_issue_io`. -/
def ahciIssueIo (lba : UInt32) (count : UInt8) (buffer : Nat) (write : Bool) : Ahci Bool := do
  let s ← get
  match s.gPort with
  | none => pure false
  | some p =>
    if count = 0 then pure true
    else if count.toNat * 512 > ahciMaxPrdtBytes then pure false
    else if buffer >>> 32 ≠ 0 then pure false
    else if !(← ahciWaitPortReady env p ahciSpins) then pure false
    else match s.commandList, s.commandTable with
      | some list, some table => do
        storeCommand list table lba count buffer write
        writeRegs env p (·.writeIs 0xFFFFFFFF)
        writePort env p (·.writeCi 1)
        if ← ahciWaitIssued env p ahciSpins then ahciFinish env p else pure false
      | _, _ => fault

/-- `ahci_read_sectors`. -/
def ahciReadSectors (lba : UInt32) (count : UInt8) (out : Nat) : Ahci Bool :=
  ahciIssueIo env lba count out false

/-- `ahci_write_sectors`. -/
def ahciWriteSectors (lba : UInt32) (count : UInt8) (data : Nat) : Ahci Bool :=
  ahciIssueIo env lba count data true

/-- The registers of the controller are read and written. -/
def readHba (register : Hba → UInt32) : Ahci UInt32 := do
  controllerMoves env
  let s ← get
  pure (register s.hba)

@[inherit_doc readHba]
def writeGhc (value : UInt32) : Ahci Unit := do
  controllerMoves env
  modify fun s => { s with hba := { s.hba with ghc := value } }

/-- `ahci_init`. -/
def ahciInit (device : AhciDeviceAddress) : Ahci Bool := do
  if device.port ≥ ahciPortCount then pure false
  else match ← onPci (pciReadDeviceInfo device.controller) with
    | none => pure false
    | some info =>
      if info.classCode ≠ 0x01 ∨ info.subclass ≠ 0x06 ∨ info.progIf ≠ 0x01 then pure false
      else do
        let command ← onPci (pciReadConfig16 device.controller 0x04)
        onPci (pciWriteConfig16 device.controller 0x04 (command ||| (0x0002 ||| 0x0004)))
        let abar ← onPci (pciReadBar64 device.controller ahciBarIndex)
        if abar &&& 1 ≠ 0 then pure false
        else
          let abarBase := (abar &&& ~~~0x0F).toNat
          if abarBase < 0x1000 then pure false
          else if !env.pagingMapRange abarBase then pure false
          else do
            let ghc ← readHba env Hba.ghc
            writeGhc env (ghc ||| hbaGhcAe)
            let pi ← readHba env Hba.pi
            if pi &&& (1 <<< device.port.toUInt32) = 0 then pure false
            else do
              modify fun s => { s with gPort := some device.port.toNat }
              if !(← ahciPortHasSataDrive env device.port.toNat) then pure false
              else ahciConfigurePort env device.port.toNat

end

end FunnyOS.Devices
