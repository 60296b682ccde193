import FunnyOS.Lib.Parts
import FunnyOS.Boot.DevicePath
import FunnyOS.Boot.KernelImage

/-!
# The loader

`efi_main` (`src/boot/uefi/boot.c`) reads the kernel from the boot volume, loads it, gathers what
the kernel is told about the machine, leaves the boot services and jumps to the kernel's entry. What
the firmware answers is given: a run asks each of its questions at most once, but for the modes of a
graphics output, the handles of a buffer and the last attempts, which are counted. An interface that
the loader uses without a look at the pointer is there whenever the status that came with it is no
error. What `FreePool`, `Close` and `OutputString` answer is not looked at.
-/

namespace FunnyOS.Boot

open Prog
open Programs (littleEndian)

/-! ## Statuses -/

/-- `EFI_STATUS`, a number of 64 bits. -/
abbrev EfiStatus : Type := Nat

/-- `EFI_SUCCESS`. -/
abbrev efiSuccess : EfiStatus := 0

/-- `EFI_BUFFER_TOO_SMALL`. -/
abbrev efiBufferTooSmall : EfiStatus := 5

/-- `EFI_ERROR`. -/
def efiError (status : EfiStatus) : Bool := status >>> 63 ≠ 0

/-! ## What the firmware answers -/

/-- `EFI_GRAPHICS_OUTPUT_MODE_INFORMATION`. -/
structure ModeInformation where
  horizontalResolution : Nat
  verticalResolution : Nat
  pixelFormat : Nat
  redMask : Nat
  greenMask : Nat
  blueMask : Nat
  pixelsPerScanLine : Nat
deriving DecidableEq, Repr

/-- `EFI_GRAPHICS_OUTPUT_PROTOCOL_MODE`. -/
structure GraphicsMode where
  maxMode : Nat
  mode : Nat
  info : Option ModeInformation
  frameBufferBase : Nat
deriving DecidableEq, Repr

/-- `EFI_GRAPHICS_OUTPUT_PROTOCOL`: what `Mode` points to, and what the functions answer. `SetMode`
leaves the `Mode` that is given with its status. -/
structure GraphicsOutput where
  mode : Option GraphicsMode
  queryMode : Nat → EfiStatus × Option ModeInformation
  setMode : Nat → EfiStatus × Option GraphicsMode

/-- The answers that `gather_graphics_info` gets: the output of the console, and the outputs of the
handles in the buffer. -/
structure GraphicsAnswers where
  consoleOutput : EfiStatus × Option GraphicsOutput
  handleBuffer : EfiStatus × Option (List (EfiStatus × Option GraphicsOutput))

/-- `EFI_BLOCK_IO_MEDIA`. -/
structure BlockMedia where
  blockSize : Nat
  lastBlock : Nat
deriving DecidableEq, Repr

/-- `EFI_GUID`. -/
structure EfiGuid where
  data1 : Nat
  data2 : Nat
  data3 : Nat
  data4 : List Nat
deriving DecidableEq, Repr

/-- `EFI_CONFIGURATION_TABLE`. -/
structure ConfigurationTable where
  vendorGuid : EfiGuid
  vendorTable : Nat
deriving DecidableEq, Repr

/-- The answers that `read_file` gets for the kernel, the buffer and what is read to it. -/
structure FileAnswers where
  openFile : EfiStatus
  allocateInfo : EfiStatus
  getInfo : EfiStatus
  allocateInfoAgain : EfiStatus
  getInfoAgain : EfiStatus
  allocateData : EfiStatus
  read : EfiStatus
  image : KernelImage
  bytes : Nat → UInt8

/-- The console: the columns and the rows come with the status of `QueryMode`, if the console has a
`Mode`. -/
structure ConsoleAnswers where
  queryMode : Option (EfiStatus × Nat × Nat)

/-- `BootMemoryMap`. -/
structure BootMemoryMap where
  base : Nat
  size : Nat
  descriptorSize : Nat
  descriptorVersion : Nat
deriving DecidableEq, Repr

/-- The answers to an attempt to leave the boot services. -/
structure ExitAnswers where
  getMemoryMap : EfiStatus × BootMemoryMap
  exitBootServices : EfiStatus

/-- The answers that the loader gets for the device that it has been started from. The pointers to
the path, to the block device and to its medium may be null. -/
structure DeviceAnswers where
  fileSystem : EfiStatus
  openVolume : EfiStatus
  kernelFile : FileAnswers
  devicePath : EfiStatus × Option (Nat → UInt8)
  blockIo : EfiStatus × Option (Option BlockMedia)

/-- The answers that `efi_main` gets. -/
structure BootAnswers where
  console : Option ConsoleAnswers
  loadedImage : EfiStatus × Option (Option DeviceAnswers)
  segments : Firmware
  bootInfoPool : EfiStatus
  graphics : GraphicsAnswers
  configuration : Option (List ConfigurationTable)
  exits : Nat → ExitAnswers

/-! ## The state of the loader -/

/-- `BootInfo`, with its fields beside the device path. -/
structure LoaderInfo extends BootInfo where
  magic : Nat
  bytesPerSector : Nat
  partitionLbaStart : Nat
  partitionSectorCount : Nat
  acpiRsdp : Nat
  acpiRevision : Nat
  consoleFlags : Nat
  screenColumns : Nat
  screenRows : Nat
  framebufferBase : Nat
  framebufferWidth : Nat
  framebufferHeight : Nat
  framebufferPixelsPerScanline : Nat
  framebufferFormat : Nat
  memoryMap : BootMemoryMap

/-- `mem_set` of the boot information to zeros. -/
def LoaderInfo.zeros : LoaderInfo where
  bootDevicePathSize := 0
  bootDevicePath _ := 0
  magic := 0
  bytesPerSector := 0
  partitionLbaStart := 0
  partitionSectorCount := 0
  acpiRsdp := 0
  acpiRevision := 0
  consoleFlags := 0
  screenColumns := 0
  screenRows := 0
  framebufferBase := 0
  framebufferWidth := 0
  framebufferHeight := 0
  framebufferPixelsPerScanline := 0
  framebufferFormat := 0
  memoryMap := ⟨0, 0, 0, 0⟩

/-- The routines whose results decide about the boot. -/
inductive BootRoutine
  | loadKernelElf
  | gatherGraphicsInfo
  | gatherBootDeviceInfo
  | gatherBlockInfo
deriving DecidableEq, Repr

/-- What a run does: a text on the console, a status that a routine of the loader has returned and
that `EFI_ERROR` is asked about, what one of the routines above has returned, the console flag for
the VGA text mode cleared, and the jump to the kernel. -/
inductive BootEvent
  | put (text : String)
  | tested (status : EfiStatus)
  | returned (routine : BootRoutine) (status : EfiStatus)
  | vgaCleared
  | entered (entry : Nat)
deriving DecidableEq, Repr

/-- What the loader has loaded, the boot information, and what it has done, the last first. -/
structure BootState where
  kernel : KernelLoadState
  info : LoaderInfo
  events : List BootEvent

/-- A step of the loader, with the status that it returns early with. -/
abbrev Loader (α : Type) : Type := Prog BootState EfiStatus α

/-- Something is done. -/
def logEvent (event : BootEvent) : Loader Unit :=
  modify fun s => { s with events := event :: s.events }

/-- `puts16`. -/
def puts16 (answers : BootAnswers) (text : String) : Loader Unit :=
  if answers.console.isSome then logEvent (.put text) else pure ()

/-- A change of the boot information. -/
def setInfo (f : LoaderInfo → LoaderInfo) : Loader Unit :=
  modify fun s => { s with info := f s.info }

/-- `EFI_ERROR` of what a routine of the loader has returned. -/
def testStatus (status : EfiStatus) : Loader Bool := do
  logEvent (.tested status)
  pure (efiError status)

/-- What a routine returns: the status of an early `return`, or `EFI_SUCCESS`. -/
def statusOf (x : Loader Unit) : Loader EfiStatus := do
  match ← attempt x with
  | .ok _ => pure efiSuccess
  | .error status => pure status

/-! ## The kernel -/

/-- The status of `GetInfo`, which is asked again with a buffer of the size that it has wanted. -/
def readInfo (file : FileAnswers) : Loader EfiStatus :=
  if file.getInfo = efiBufferTooSmall then
    if efiError file.allocateInfoAgain then raise file.allocateInfoAgain
    else pure file.getInfoAgain
  else pure file.getInfo

/-- `read_file`. -/
def readFile (answers : BootAnswers) (file : FileAnswers) : Loader KernelImage :=
  if efiError file.openFile then do
    puts16 answers "open file failed\r\n"
    raise file.openFile
  else if efiError file.allocateInfo then raise file.allocateInfo
  else do
    let status ← readInfo file
    if efiError status then do
      puts16 answers "getinfo data failed\r\n"
      raise status
    else if efiError file.allocateData then raise file.allocateData
    else if efiError file.read then do
      puts16 answers "read file failed\r\n"
      raise file.read
    else do
      modify fun s => { s with kernel.memory := file.image.filled file.bytes s.kernel.memory }
      pure file.image

/-- The call of `load_kernel_elf`: its status, and `kernel_entry`, which is 0 before. -/
def callLoadKernelElf (answers : BootAnswers) (image : KernelImage) : Loader (EfiStatus × Nat) := do
  match ← attempt (onPart (·.kernel) (fun s kernel => { s with kernel := kernel })
      (loadKernelElf image answers.segments)) with
  | .ok entry => do
    logEvent (.returned .loadKernelElf efiSuccess)
    pure (efiSuccess, entry)
  | .error status => do
    logEvent (.returned .loadKernelElf status)
    pure (status, 0)

/-! ## The console -/

/-- `query_console`. -/
def queryConsole (answers : BootAnswers) : EfiStatus × Nat × Nat :=
  match answers.console.bind (·.queryMode) with
  | none => (1, 80, 25)
  | some (status, columns, rows) =>
    if efiError status then (1, 80, 25) else (efiSuccess, columns, rows)

/-! ## The framebuffer -/

/-- The output that a handle has, if it is one that the loader takes. -/
def usableOutput (answer : EfiStatus × Option GraphicsOutput) : Option GraphicsOutput :=
  answer.2.filter fun gop => !efiError answer.1 && (gop.mode.bind (·.info)).isSome

/-- `locate_graphics_output_protocol`, with what it stores to `gop_out`. -/
def locateGraphicsOutputProtocol (answers : GraphicsAnswers) : EfiStatus × Option GraphicsOutput :=
  match usableOutput answers.consoleOutput with
  | some gop => (efiSuccess, some gop)
  | none =>
    if efiError answers.handleBuffer.1 then (answers.handleBuffer.1, none)
    else
      match answers.handleBuffer.2 with
      | none => (1, none)
      | some handles =>
        match handles.findSome? usableOutput with
        | some gop => (efiSuccess, some gop)
        | none => (1, none)

/-- `BOOTINFO_FRAMEBUFFER_FORMAT_BGRX`. -/
abbrev bootinfoFramebufferFormatBgrx : Nat := 1

/-- `BOOTINFO_FRAMEBUFFER_FORMAT_RGBX`. -/
abbrev bootinfoFramebufferFormatRgbx : Nat := 2

/-- `map_framebuffer_format`, with what it stores to `format_out`. -/
def mapFramebufferFormat (info : ModeInformation) : EfiStatus × Option Nat :=
  if info.pixelFormat = 0 then (efiSuccess, some bootinfoFramebufferFormatRgbx)
  else if info.pixelFormat = 1 then (efiSuccess, some bootinfoFramebufferFormatBgrx)
  else if info.pixelFormat = 2 ∧ info.redMask = 0x000000FF ∧ info.greenMask = 0x0000FF00 ∧
      info.blueMask = 0x00FF0000 then (efiSuccess, some bootinfoFramebufferFormatRgbx)
  else if info.pixelFormat = 2 ∧ info.redMask = 0x00FF0000 ∧ info.greenMask = 0x0000FF00 ∧
      info.blueMask = 0x000000FF then (efiSuccess, some bootinfoFramebufferFormatBgrx)
  else (1, none)

/-- `(uint64_t)width * (uint64_t)height`, which fits. -/
def ModeInformation.area (info : ModeInformation) : Nat :=
  info.horizontalResolution * info.verticalResolution

/-- The mode is at most `preferred_max_width` wide and `preferred_max_height` high. -/
def ModeInformation.preferred (info : ModeInformation) : Bool :=
  info.horizontalResolution ≤ 1024 ∧ info.verticalResolution ≤ 768

/-- The best modes so far and their areas; `found_preferred` and `found_fallback` are that they are
there. -/
structure ModeScan where
  preferred : Option (Nat × Nat)
  fallback : Option (Nat × Nat)
deriving DecidableEq, Repr

/-- The mode is taken for the best one, or not. -/
def considerMode (scan : ModeScan) (mode : Nat) (info : ModeInformation) : ModeScan :=
  if info.preferred then
    if ∀ best ∈ scan.preferred, best.2 < info.area then
      { scan with preferred := some (mode, info.area) }
    else scan
  else if ∀ best ∈ scan.fallback, info.area < best.2 then
    { scan with fallback := some (mode, info.area) }
  else scan

/-- A round of the loop of `select_graphics_mode`. -/
def scanMode (gop : GraphicsOutput) (scan : ModeScan) (mode : Nat) : Loader ModeScan :=
  match gop.queryMode mode with
  | (_, none) => pure scan
  | (status, some info) =>
    if efiError status then pure scan
    else do
      if ¬ (← testStatus (mapFramebufferFormat info).1) then pure (considerMode scan mode info)
      else pure scan

/-- `select_graphics_mode`, with the `Mode` that the output has afterwards. -/
def selectGraphicsMode (gop : GraphicsOutput) (current : GraphicsMode) :
    Loader (EfiStatus × Option GraphicsMode) := do
  let scan ← (List.range current.maxMode).foldlM (scanMode gop) ⟨none, none⟩
  match scan.preferred <|> scan.fallback with
  | none => pure (1, some current)
  | some (mode, _) =>
    if current.mode = mode then pure (efiSuccess, some current)
    else pure (gop.setMode mode)

/-- `BOOTINFO_CONSOLE_TEXT`. -/
abbrev bootinfoConsoleText : Nat := 1

/-- `BOOTINFO_CONSOLE_VGA_TEXT`. -/
abbrev bootinfoConsoleVgaText : Nat := 2

/-- `BOOTINFO_CONSOLE_FRAMEBUFFER`. -/
abbrev bootinfoConsoleFramebuffer : Nat := 4

/-- The frame buffer fields that `gather_graphics_info` refuses. -/
def unusableFrame (mode : GraphicsMode) (info : ModeInformation) : Bool :=
  mode.frameBufferBase = 0 ∨ info.horizontalResolution = 0 ∨ info.verticalResolution = 0 ∨
    info.pixelsPerScanLine < info.horizontalResolution

/-- The end of `gather_graphics_info`, when a mode has been selected. -/
def storeFrame (mode : GraphicsMode) (info : ModeInformation) : Loader Unit := do
  setInfo fun i => { i with
    framebufferBase := mode.frameBufferBase
    framebufferWidth := info.horizontalResolution
    framebufferHeight := info.verticalResolution
    framebufferPixelsPerScanline := info.pixelsPerScanLine }
  if unusableFrame mode info then raise 1
  else do
    let (status, format) := mapFramebufferFormat info
    setInfo fun i => { i with framebufferFormat := format.getD i.framebufferFormat }
    if ← testStatus status then raise 1
    else setInfo fun i =>
      { i with consoleFlags := i.consoleFlags ||| bootinfoConsoleFramebuffer }

/-- `gather_graphics_info` from the test of what `select_graphics_mode` has returned. -/
def takeFrame (status : EfiStatus) (settled : Option GraphicsMode) : Loader Unit := do
  if ← testStatus status then raise status
  else
    match settled.bind fun mode => mode.info.map fun info => (mode, info) with
    | none => raise 1
    | some (mode, info) => storeFrame mode info

/-- `gather_graphics_info` from the test of what `locate_graphics_output_protocol` has returned. -/
def takeOutput (status : EfiStatus) (gop : Option GraphicsOutput) : Loader Unit := do
  if ← testStatus status then raise status
  else
    match gop.bind fun gop => gop.mode.map fun mode => (gop, mode) with
    | none => raise status
    | some (gop, mode) =>
      if mode.info.isNone then raise status
      else do
        let (status, settled) ← selectGraphicsMode gop mode
        takeFrame status settled

/-- `gather_graphics_info`. -/
def gatherGraphicsInfo (answers : GraphicsAnswers) : Loader Unit :=
  let (status, gop) := locateGraphicsOutputProtocol answers
  takeOutput status gop

/-! ## The boot device -/

/-- `gather_block_info`. -/
def gatherBlockInfo (blockIo : EfiStatus × Option (Option BlockMedia)) : Loader Unit :=
  if efiError blockIo.1 then raise blockIo.1
  else
    match blockIo.2.join with
    | none => raise blockIo.1
    | some media => setInfo fun i => { i with
        bytesPerSector := media.blockSize % 2 ^ 16
        partitionSectorCount := (media.lastBlock + 1) % 2 ^ 32 }

/-- `sizeof(HardDriveDevicePath)`. -/
abbrev hardDriveDevicePathSize : Nat := 42

/-- `DEVICE_PATH_TYPE_MEDIA`. -/
abbrev devicePathTypeMedia : UInt8 := 0x04

/-- `DEVICE_PATH_SUBTYPE_HARDDRIVE`. -/
abbrev devicePathSubtypeHarddrive : UInt8 := 0x01

/-- The node is a `HardDriveDevicePath`. -/
def isHardDrive (memory : Nat → UInt8) (node : Nat) : Bool :=
  memory node = devicePathTypeMedia ∧ memory (node + 1) = devicePathSubtypeHarddrive ∧
    hardDriveDevicePathSize ≤ devicePathLength memory node

/-- `partition_start`. -/
def partitionStart (memory : Nat → UInt8) (node : Nat) : Nat :=
  littleEndian ((List.range 8).map fun i => memory (node + 8 + i)) 0 8

/-- The start of the partition is taken from the node of a hard drive. -/
def takePartition (memory : Nat → UInt8) (node : Nat) : Loader Unit :=
  if isHardDrive memory node then
    if partitionStart memory node > 0xFFFFFFFF then raise 1
    else setInfo fun i => { i with partitionLbaStart := partitionStart memory node }
  else pure ()

/-- A round of the loop of `gather_boot_device_info`. -/
def readPartition (memory : Nat → UInt8) (node : Nat) : Loader (LoopStep Nat Unit) :=
  if devicePathIsEnd memory node then pure (.done ())
  else if devicePathLength memory node < devicePathNodeSize then raise 1
  else do
    takePartition memory node
    pure (.again (node + devicePathLength memory node))

/-- `gather_boot_device_info`. Its loop goes on until a node ends the path; it is cut off after
`rounds` rounds more than a path in the capacity has nodes. -/
def gatherBootDeviceInfo (rounds : Nat) (devicePath : EfiStatus × Option (Nat → UInt8)) :
    Loader Unit := do
  if efiError devicePath.1 then raise devicePath.1
  else
    match devicePath.2 with
    | none => raise 1
    | some memory => do
      setInfo fun i => { i with partitionLbaStart := 0 }
      let status ← statusOf (onPart (·.info.toBootInfo)
        (fun s path => { s with info := { s.info with toBootInfo := path } })
        (copyBootDevicePath (some memory)))
      if ← testStatus status then raise status
      else loop (readPartition memory) (pathRounds + rounds) 0

/-! ## The end of the boot -/

/-- `gEfiAcpi20TableGuid`. -/
def efiAcpi20TableGuid : EfiGuid :=
  ⟨0x8868E871, 0xE4F1, 0x11D3, [0xBC, 0x22, 0x00, 0x80, 0xC7, 0x3C, 0x88, 0x81]⟩

/-- `gEfiAcpi10TableGuid`. -/
def efiAcpi10TableGuid : EfiGuid :=
  ⟨0xEB9D2D30, 0x2D88, 0x11D3, [0x9A, 0x16, 0x00, 0x00, 0x98, 0x3C, 0x97, 0x3C]⟩

/-- One of the two loops of `gather_acpi_info`. -/
def findTable (tables : List ConfigurationTable) (guid : EfiGuid) : Option ConfigurationTable :=
  tables.find? fun table => table.vendorGuid = guid ∧ table.vendorTable ≠ 0

/-- `gather_acpi_info`. -/
def gatherAcpiInfo (configuration : Option (List ConfigurationTable)) : Loader Unit :=
  match configuration with
  | none => raise 1
  | some tables =>
    match findTable tables efiAcpi20TableGuid with
    | some table => setInfo fun i => { i with acpiRsdp := table.vendorTable, acpiRevision := 2 }
    | none =>
      match findTable tables efiAcpi10TableGuid with
      | some table => setInfo fun i => { i with acpiRsdp := table.vendorTable, acpiRevision := 1 }
      | none => raise 1

/-- `exit_boot_services_with_map` at its loop head, with the attempts that are left and `status`. -/
def exitBootServicesWithMap (answers : Nat → ExitAnswers) : Nat → EfiStatus → Loader EfiStatus
  | 0, status => pure status
  | left + 1, _ =>
    let answer := answers (8 - (left + 1))
    if answer.getMemoryMap.1 = efiBufferTooSmall then pure answer.getMemoryMap.1
    else if efiError answer.getMemoryMap.1 then pure answer.getMemoryMap.1
    else do
      setInfo fun i => { i with memoryMap := answer.getMemoryMap.2 }
      if ¬ efiError answer.exitBootServices then pure answer.exitBootServices
      else exitBootServicesWithMap answers left answer.exitBootServices

/-- The call of one of the routines that decide about the boot. -/
def callRoutine (routine : BootRoutine) (x : Loader EfiStatus) : Loader EfiStatus := do
  let status ← x
  logEvent (.returned routine status)
  pure status

/-- `efi_main` up to the kernel image, with the boot device. -/
def readKernel (answers : BootAnswers) : Loader (DeviceAnswers × KernelImage) := do
  puts16 answers "FunnyOS UEFI boot\r\n"
  if efiError answers.loadedImage.1 then raise answers.loadedImage.1
  else do
    puts16 answers "loaded image\r\n"
    match answers.loadedImage.2.join with
    | none => raise 1
    | some device =>
      if efiError device.fileSystem then raise device.fileSystem
      else do
        puts16 answers "opened fs\r\n"
        if efiError device.openVolume then raise device.openVolume
        else do
          puts16 answers "opened volume\r\n"
          match ← attempt (readFile answers device.kernelFile) with
          | .error status => do
            puts16 answers "Missing KERNEL.ELF\r\n"
            raise status
          | .ok image => do
            puts16 answers "read kernel\r\n"
            pure (device, image)

/-- The size of the console goes to the boot information. -/
def storeConsole (answers : BootAnswers) : Loader Unit :=
  let (status, columns, rows) := queryConsole answers
  if efiError status then pure ()
  else setInfo fun i =>
    { i with screenColumns := columns % 2 ^ 16, screenRows := rows % 2 ^ 16 }

/-- The VGA text mode is given up when there is a framebuffer. -/
def takeGraphics (answers : GraphicsAnswers) : Loader Unit := do
  let status ← callRoutine .gatherGraphicsInfo (statusOf (gatherGraphicsInfo answers))
  if ← testStatus status then pure ()
  else do
    setInfo fun i =>
      { i with consoleFlags := i.consoleFlags &&& (2 ^ 16 - 1 - bootinfoConsoleVgaText) }
    logEvent .vgaCleared

/-- The end of `efi_main`, when everything has been gathered that has to be. -/
def enterKernel (answers : BootAnswers) (entry : Nat) : Loader EfiStatus := do
  let _ ← statusOf (gatherAcpiInfo answers.configuration)
  puts16 answers "gathered device info\r\n"
  let status ← exitBootServicesWithMap answers.exits 8 efiSuccess
  if efiError status then raise status
  else do
    logEvent (.entered entry)
    pure efiSuccess

/-- `efi_main` from the boot information on. -/
def startKernel (answers : BootAnswers) (rounds : Nat) (device : DeviceAnswers) (entry : Nat) :
    Loader EfiStatus := do
  setInfo fun _ => { LoaderInfo.zeros with
    magic := 0x534f4e46
    consoleFlags := bootinfoConsoleText ||| bootinfoConsoleVgaText }
  storeConsole answers
  takeGraphics answers.graphics
  let status ← callRoutine .gatherBootDeviceInfo
    (statusOf (gatherBootDeviceInfo rounds device.devicePath))
  if ← testStatus status then raise status
  else do
    let status ← callRoutine .gatherBlockInfo (statusOf (gatherBlockInfo device.blockIo))
    if ← testStatus status then raise status
    else enterKernel answers entry

/-- `efi_main` for a kernel that has not been loaded. -/
def refuseKernel (answers : BootAnswers) (status : EfiStatus) : Loader EfiStatus := do
  puts16 answers (if status = efiOutOfResources then "Kernel load address unavailable\r\n"
    else "Invalid kernel ELF\r\n")
  raise 1

/-- `efi_main`. -/
def efiMain (answers : BootAnswers) (rounds : Nat) : Loader EfiStatus := do
  let (device, image) ← readKernel answers
  let (status, entry) ← callLoadKernelElf answers image
  if ← testStatus status then refuseKernel answers status
  else do
    puts16 answers "loaded kernel\r\n"
    if efiError answers.bootInfoPool then raise answers.bootInfoPool
    else do
      puts16 answers "allocated bootinfo\r\n"
      startKernel answers rounds device entry

end FunnyOS.Boot
