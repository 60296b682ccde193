import FunnyOS.Lib.Prog
import FunnyOS.Lib.Overlay
import FunnyOS.Devices.Ata

/-!
# The boot device path

The firmware describes the boot device by a list of nodes of different lengths, which ends with a
node of its own. `copy_boot_device_path` (`src/boot/uefi/boot.c`) walks the list to its end and
copies it to the 128 bytes that `BootInfo` has for it. `block_boot_path_to_ata` and
`block_boot_path_to_ahci` (`src/kernel/block.c`) walk the copy as far as its recorded size goes.
`return BLOCK_PATH_PARSE_INVALID` and `return false` are error outcomes here, which say what they
have been returned for.
-/

namespace FunnyOS.Boot

open Prog

/-! ## The loader -/

/-- `BOOTINFO_DEVICE_PATH_CAPACITY`. -/
abbrev bootinfoDevicePathCapacity : Nat := 128

/-- `sizeof(EFI_DEVICE_PATH_PROTOCOL)` and `sizeof(DevicePathNode)`. -/
abbrev devicePathNodeSize : Nat := 4

/-- `DEVICE_PATH_TYPE_END`. -/
abbrev devicePathTypeEnd : UInt8 := 0x7F

/-- `DEVICE_PATH_SUBTYPE_END_ENTIRE`. -/
abbrev devicePathSubtypeEndEntire : UInt8 := 0xFF

/-- `BootInfo`, the fields for the device path. The bytes are those from `boot_device_path` on. -/
structure BootInfo where
  bootDevicePathSize : Nat
  bootDevicePath : Nat → UInt8

/-- A 16-bit number in two bytes, the lower one first. -/
def bytesToHalf (low high : UInt8) : Nat := low.toNat ||| (high.toNat <<< 8)

/-- `device_path_length`. -/
def devicePathLength (memory : Nat → UInt8) (node : Nat) : Nat :=
  bytesToHalf (memory (node + 2)) (memory (node + 3))

/-- `device_path_is_end`. -/
def devicePathIsEnd (memory : Nat → UInt8) (node : Nat) : Bool :=
  memory node == devicePathTypeEnd && memory (node + 1) == devicePathSubtypeEndEntire

/-- More rounds than nodes fit in the capacity. -/
abbrev pathRounds : Nat := 33

/-- A round of the loop of `copy_boot_device_path`, with `node` and `total_size`. -/
def measureNode (memory : Nat → UInt8) (cursor : Nat × Nat) :
    Prog BootInfo Nat (LoopStep (Nat × Nat) (Nat × Nat)) :=
  if devicePathIsEnd memory cursor.1 then pure (.done cursor)
  else
    let nodeLength := devicePathLength memory cursor.1
    if nodeLength < devicePathNodeSize then raise 1
    else if cursor.2 + nodeLength > bootinfoDevicePathCapacity then raise 1
    else pure (.again (cursor.1 + nodeLength, cursor.2 + nodeLength))

/-- `copy_boot_device_path`. The firmware's memory is given by the bytes from the path on. -/
def copyBootDevicePath (devicePath : Option (Nat → UInt8)) : Prog BootInfo Nat Unit :=
  match devicePath with
  | none => raise 1
  | some memory => do
    let cursor ← loop (measureNode memory) pathRounds (0, 0)
    let totalSize := cursor.2 + devicePathLength memory cursor.1
    if totalSize > bootinfoDevicePathCapacity then raise 1
    else modify fun info =>
      { bootDevicePathSize := totalSize
        bootDevicePath := overlay info.bootDevicePath 0 totalSize memory }

/-! ## The kernel's walk -/

/-- What the kernel reads of the path: the boot information, the offsets it has read and the
structures that it has taken bytes for (offset and size), the last ones first, and the nodes it has
come to, with their bytes. -/
structure WalkState where
  info : BootInfo
  reads : List Nat
  casts : List (Nat × Nat)
  visited : List (List UInt8)

/-- What a walk is given up for. -/
inductive PathError
  | nodeTooShort
  | nodePastEnd
  | rejected
deriving DecidableEq, Repr

/-- A step of a walk. -/
abbrev Walk (α : Type) : Type := Prog WalkState PathError α

/-- `DevicePathNode`. -/
structure DevicePathNode where
  type : UInt8
  subtype : UInt8
  length : Nat
deriving DecidableEq, Repr

/-- The byte at an offset from `boot_device_path`. -/
def readByte (offset : Nat) : Walk UInt8 := do
  modify fun s => { s with reads := offset :: s.reads }
  let s ← get
  pure (s.info.bootDevicePath offset)

/-- The `uint16_t` at an offset from `boot_device_path`. -/
def readHalf (offset : Nat) : Walk Nat := do
  let low ← readByte offset
  let high ← readByte (offset + 1)
  pure (bytesToHalf low high)

/-- The bytes from an offset on are taken for a structure. -/
def castBytes (offset size : Nat) : Walk Unit :=
  modify fun s => { s with casts := (offset, size) :: s.casts }

/-- The header of the node at an offset. -/
def readNode (node : Nat) : Walk DevicePathNode := do
  castBytes node devicePathNodeSize
  let length ← readHalf (node + 2)
  let type ← readByte node
  let subtype ← readByte (node + 1)
  pure ⟨type, subtype, length⟩

/-- The bytes of a node. -/
def nodeBytes (memory : Nat → UInt8) (node length : Nat) : List UInt8 :=
  (List.range length).map fun i => memory (node + i)

/-- The walk has come to a node. -/
def visit (node length : Nat) : Walk Unit := modify fun s =>
  { s with visited := s.visited ++ [nodeBytes s.info.bootDevicePath node length] }

/-- A round of the two loops, which differ in what they do with a node. -/
def walkNode {α β : Type} (pathEnd : Nat) (look : Nat → DevicePathNode → β → Walk (LoopStep β α))
    (finish : β → α) (cursor : Nat × β) : Walk (LoopStep (Nat × β) α) :=
  if ¬ (cursor.1 + devicePathNodeSize ≤ pathEnd ∧ cursor.1 < pathEnd) then
    pure (.done (finish cursor.2))
  else do
    let node ← readNode cursor.1
    if node.length < devicePathNodeSize then raise .nodeTooShort
    else if cursor.1 + node.length > pathEnd then raise .nodePastEnd
    else if node.type = devicePathTypeEnd ∧ node.subtype = devicePathSubtypeEndEntire then
      pure (.done (finish cursor.2))
    else do
      visit cursor.1 node.length
      match ← look cursor.1 node cursor.2 with
      | .again found => pure (.again (cursor.1 + node.length, found))
      | .done result => pure (.done result)

/-! ## The ATA walk -/

/-- `DEVICE_PATH_TYPE_HARDWARE`. -/
abbrev devicePathTypeHardware : UInt8 := 0x01

/-- `DEVICE_PATH_TYPE_MESSAGING`. -/
abbrev devicePathTypeMessaging : UInt8 := 0x03

/-- `DEVICE_PATH_SUBTYPE_PCI`. -/
abbrev devicePathSubtypePci : UInt8 := 0x01

/-- `DEVICE_PATH_SUBTYPE_ATAPI`. -/
abbrev devicePathSubtypeAtapi : UInt8 := 0x01

/-- `DEVICE_PATH_SUBTYPE_SATA`. -/
abbrev devicePathSubtypeSata : UInt8 := 0x12

/-- A node that is an `AtapiDevicePath`, of 8 bytes. -/
def DevicePathNode.isAtapi (node : DevicePathNode) : Bool :=
  node.type = devicePathTypeMessaging ∧ node.subtype = devicePathSubtypeAtapi ∧ 8 ≤ node.length

/-- What `block_boot_path_to_ata` does with a node. -/
def lookForAtapi (offset : Nat) (node : DevicePathNode) (_ : Unit) :
    Walk (LoopStep Unit (Option Devices.AtaDeviceAddress)) :=
  if node.isAtapi then do
    castBytes offset 8
    let primarySecondary ← readByte (offset + 4)
    let slaveMaster ← readByte (offset + 5)
    if primarySecondary > 1 ∨ slaveMaster > 1 then raise .rejected
    else pure (.done (some ⟨primarySecondary, slaveMaster⟩))
  else pure (.again ())

/-- `block_boot_path_to_ata`. `BLOCK_PATH_PARSE_ABSENT` is a path without an address. -/
def blockBootPathToAta : Walk (Option Devices.AtaDeviceAddress) := do
  let s ← get
  if s.info.bootDevicePathSize < devicePathNodeSize then pure none
  else loop (walkNode s.info.bootDevicePathSize lookForAtapi fun _ => none) pathRounds (0, ())

/-! ## The AHCI walk -/

/-- `BLOCK_MAX_PCI_PATH_DEPTH`. -/
abbrev blockMaxPciPathDepth : Nat := 8

/-- `BlockPciPathHop`. -/
structure BlockPciPathHop where
  device : UInt8
  function : UInt8
deriving DecidableEq, Repr

/-- `PciAddress`. -/
structure PciAddress where
  bus : UInt8
  device : UInt8
  function : UInt8
deriving DecidableEq, Repr

/-- `AhciDeviceAddress`. -/
structure AhciDeviceAddress where
  controller : PciAddress
  port : UInt8
deriving DecidableEq, Repr

/-- What the kernel asks the PCI devices: their class and subclass, where there is a device
(`pci_read_device_info`), and bytes of their configuration (`pci_read_config8`). -/
structure PciBus where
  deviceInfo : PciAddress → Option (UInt8 × UInt8)
  config8 : PciAddress → UInt8 → UInt8

/-- `block_resolve_pci_path`, from the bus that the hops so far have led to. -/
def blockResolvePciPath (pci : PciBus) (bus : UInt8) : List BlockPciPathHop → Option PciAddress
  | [] => none
  | hop :: rest =>
    let address : PciAddress := ⟨bus, hop.device, hop.function⟩
    match pci.deviceInfo address with
    | none => none
    | some (classCode, subclass) =>
      if rest = [] then some address
      else if classCode ≠ 0x06 ∨ subclass ≠ 0x04 then none
      else
        let next := pci.config8 address 0x19
        if next = 0xFF then none else blockResolvePciPath pci next rest

/-- `hops`, and `out->port` where `found_sata`. -/
structure AhciPath where
  hops : List BlockPciPathHop
  port : Option UInt8
deriving DecidableEq, Repr

/-- A node that is a `PciDevicePath`, of 6 bytes. -/
def DevicePathNode.isPci (node : DevicePathNode) : Bool :=
  node.type = devicePathTypeHardware ∧ node.subtype = devicePathSubtypePci ∧ 6 ≤ node.length

/-- A node that is a `SataDevicePath`, of 10 bytes. -/
def DevicePathNode.isSata (node : DevicePathNode) : Bool :=
  node.type = devicePathTypeMessaging ∧ node.subtype = devicePathSubtypeSata ∧ 10 ≤ node.length

/-- What `block_boot_path_to_ahci` does with a node. -/
def lookForSata (offset : Nat) (node : DevicePathNode) (path : AhciPath) :
    Walk (LoopStep AhciPath AhciPath) :=
  if node.isPci then
    if path.hops.length ≥ blockMaxPciPathDepth then raise .rejected
    else do
      castBytes offset 6
      let device ← readByte (offset + 5)
      let function ← readByte (offset + 4)
      pure (.again { path with hops := path.hops ++ [⟨device, function⟩] })
  else if node.isSata then do
    castBytes offset 10
    let hbaPortNumber ← readHalf (offset + 4)
    if hbaPortNumber ≥ 32 then raise .rejected
    else do
      let portMultiplierPortNumber ← readHalf (offset + 6)
      if portMultiplierPortNumber ≠ 0 ∧ portMultiplierPortNumber ≠ 0xFFFF then raise .rejected
      else do
        let lun ← readHalf (offset + 8)
        if lun ≠ 0 then raise .rejected
        else pure (.again { path with port := some (.ofNat hbaPortNumber) })
  else pure (.again path)

/-- The loop of `block_boot_path_to_ahci`. -/
def ahciWalk : Walk AhciPath := do
  let s ← get
  loop (walkNode s.info.bootDevicePathSize lookForSata id) pathRounds (0, ⟨[], none⟩)

/-- `block_boot_path_to_ahci`. -/
def blockBootPathToAhci (pci : PciBus) : Walk AhciDeviceAddress := do
  let s ← get
  if s.info.bootDevicePathSize < devicePathNodeSize then raise .rejected
  else do
    let path ← ahciWalk
    match path.port with
    | none => raise .rejected
    | some port =>
      match blockResolvePciPath pci 0 path.hops with
      | none => raise .rejected
      | some controller => pure ⟨controller, port⟩

end FunnyOS.Boot
