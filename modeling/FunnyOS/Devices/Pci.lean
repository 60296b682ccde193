import FunnyOS.Boot.DevicePath
import FunnyOS.Lib.Prog

/-!
# The configuration space of PCI

`src/kernel/pci.c`: a function of a device has 256 bytes of configuration. The kernel gets at them
through two ports: it writes to one which four bytes it means, and accesses them through the other.
-/

namespace FunnyOS.Devices

open Boot (PciAddress)
open Prog

/-- `PCI_INVALID_VENDOR_ID`. -/
abbrev pciInvalidVendorId : UInt16 := 0xFFFF

/-- `PCI_MAX_DEVICE_COUNT`. -/
abbrev pciMaxDeviceCount : UInt8 := 32

/-- `PCI_MAX_FUNCTION_COUNT`. -/
abbrev pciMaxFunctionCount : UInt8 := 8

/-- `PCI_MAX_BAR_COUNT`. -/
abbrev pciMaxBarCount : UInt8 := 6

/-- The configuration of all functions. -/
abbrev PciConfig := PciAddress → UInt8 → UInt8

/-- `g_pci_available`, what the address port holds, and the configurations. `stored` is what they
become when a byte is written. -/
structure PciState where
  available : Bool
  latch : UInt32
  config : PciConfig
  stored : PciConfig → PciAddress → UInt8 → UInt8 → PciConfig

/-- A step of the kernel with the PCI bus. -/
abbrev Pci (α : Type) : Type := Prog PciState Unit α

/-! ## The host bridge -/

namespace PciState

/-- The function that the address port selects. -/
def selected (s : PciState) : PciAddress :=
  ⟨(s.latch >>> 16).toUInt8, ((s.latch >>> 11) &&& 0x1F).toUInt8, ((s.latch >>> 8) &&& 7).toUInt8⟩

/-- The first of the four bytes that it selects. -/
def register (s : PciState) : UInt8 := (s.latch &&& 0xFC).toUInt8

/-- Byte `k` behind the data port. -/
def dataByte (s : PciState) (k : UInt8) : UInt8 :=
  if s.latch &&& 0x80000000 = 0 then 0xFF else s.config s.selected (s.register + k)

/-- A byte is written behind the data port. -/
def setByte (s : PciState) (k value : UInt8) : PciState :=
  if s.latch &&& 0x80000000 = 0 then s
  else { s with config := s.stored s.config s.selected (s.register + k) value }

end PciState

/-- `io_out32` to the address port. -/
def outAddress (value : UInt32) : Pci Unit := modify fun s => { s with latch := value }

/-- `io_in8`, `io_in16` and `io_in32` from the data port and the ports behind it. -/
def inData8 (k : UInt8) : Pci UInt8 := do
  let s ← get
  pure (s.dataByte k)

@[inherit_doc inData8]
def inData16 (k : UInt8) : Pci UInt16 := do
  let s ← get
  pure ((s.dataByte k).toUInt16 ||| ((s.dataByte (k + 1)).toUInt16 <<< 8))

@[inherit_doc inData8]
def inData32 : Pci UInt32 := do
  let s ← get
  pure ((s.dataByte 0).toUInt32 ||| ((s.dataByte 1).toUInt32 <<< 8) |||
    ((s.dataByte 2).toUInt32 <<< 16) ||| ((s.dataByte 3).toUInt32 <<< 24))

/-- `io_out16` to the data port or the port two behind it. -/
def outData16 (k : UInt8) (value : UInt16) : Pci Unit :=
  modify fun s => (s.setByte k value.toUInt8).setByte (k + 1) (value >>> 8).toUInt8

/-! ## The functions of the kernel -/

/-- `pci_config_address`. -/
def pciConfigAddress (address : PciAddress) (offset : UInt8) : UInt32 :=
  (0x80000000 : UInt32) ||| (address.bus.toUInt32 <<< 16) ||| (address.device.toUInt32 <<< 11) |||
    (address.function.toUInt32 <<< 8) ||| (offset.toUInt32 &&& 0xFC)

/-- `pci_init`. -/
def pciInit : Pci Bool := do
  modify fun s => { s with available := true }
  pure true

/-- `pci_available`. -/
def pciAvailable : Pci Bool := do
  let s ← get
  pure s.available

/-- `pci_read_config8`. -/
def pciReadConfig8 (address : PciAddress) (offset : UInt8) : Pci UInt8 := do
  let s ← get
  if !s.available then pure 0xFF
  else do
    outAddress (pciConfigAddress address offset)
    inData8 (offset &&& 3)

/-- `pci_read_config16`. -/
def pciReadConfig16 (address : PciAddress) (offset : UInt8) : Pci UInt16 := do
  let s ← get
  if !s.available then pure 0xFFFF
  else do
    outAddress (pciConfigAddress address offset)
    inData16 (offset &&& 2)

/-- `pci_read_config32`. -/
def pciReadConfig32 (address : PciAddress) (offset : UInt8) : Pci UInt32 := do
  let s ← get
  if !s.available then pure 0xFFFFFFFF
  else do
    outAddress (pciConfigAddress address offset)
    inData32

/-- `pci_write_config16`. -/
def pciWriteConfig16 (address : PciAddress) (offset : UInt8) (value : UInt16) : Pci Unit := do
  let s ← get
  if !s.available then pure ()
  else do
    outAddress (pciConfigAddress address offset)
    outData16 (offset &&& 2) value

/-- `PciDeviceInfo`. -/
structure PciDeviceInfo where
  address : PciAddress
  vendorId : UInt16
  deviceId : UInt16
  revisionId : UInt8
  progIf : UInt8
  subclass : UInt8
  classCode : UInt8
  headerType : UInt8
deriving DecidableEq

/-- `pci_read_device_info`. -/
def pciReadDeviceInfo (address : PciAddress) : Pci (Option PciDeviceInfo) := do
  let s ← get
  if !s.available then pure none
  else if address.device ≥ pciMaxDeviceCount ∨ address.function ≥ pciMaxFunctionCount then
    pure none
  else do
    let vendorId ← pciReadConfig16 address 0x00
    if vendorId = pciInvalidVendorId then pure none
    else do
      let deviceId ← pciReadConfig16 address 0x02
      let revisionId ← pciReadConfig8 address 0x08
      let progIf ← pciReadConfig8 address 0x09
      let subclass ← pciReadConfig8 address 0x0A
      let classCode ← pciReadConfig8 address 0x0B
      let headerType ← pciReadConfig8 address 0x0E
      pure (some ⟨address, vendorId, deviceId, revisionId, progIf, subclass, classCode, headerType⟩)

/-- `pci_read_bar`. -/
def pciReadBar (address : PciAddress) (barIndex : UInt8) : Pci UInt32 := do
  let s ← get
  if !s.available ∨ barIndex ≥ pciMaxBarCount then pure 0
  else pciReadConfig32 address (0x10 + barIndex * 4)

/-- `pci_read_bar64`. -/
def pciReadBar64 (address : PciAddress) (barIndex : UInt8) : Pci UInt64 := do
  let s ← get
  if !s.available ∨ barIndex ≥ pciMaxBarCount then pure 0
  else do
    let low ← pciReadBar address barIndex
    if low &&& 1 ≠ 0 then pure low.toUInt64
    else if low &&& 6 = 4 then
      if barIndex + 1 ≥ pciMaxBarCount then pure 0
      else do
        let high ← pciReadBar address (barIndex + 1)
        pure ((high.toUInt64 <<< 32) ||| low.toUInt64)
    else pure low.toUInt64

section

variable {κ : Type} (visit : PciDeviceInfo → κ → κ × Bool)

/-- The loop of `pci_enumerate` over the functions behind the first one: the context, and whether to
go on. -/
def pciVisitFunctions (bus device : UInt8) : List UInt8 → κ → Pci (κ × Bool)
  | [], context => pure (context, true)
  | function :: rest, context => do
    match ← pciReadDeviceInfo ⟨bus, device, function⟩ with
    | none => pciVisitFunctions bus device rest context
    | some info =>
      let (context, more) := visit info context
      if more then pciVisitFunctions bus device rest context else pure (context, false)

/-- The loop over the devices of a bus. -/
def pciVisitDevices (bus : UInt8) : List UInt8 → κ → Pci (κ × Bool)
  | [], context => pure (context, true)
  | device :: rest, context => do
    match ← pciReadDeviceInfo ⟨bus, device, 0⟩ with
    | none => pciVisitDevices bus rest context
    | some info =>
      let (context, more) := visit info context
      if !more then pure (context, false)
      else do
        let functions := if info.headerType &&& 0x80 ≠ 0 then [1, 2, 3, 4, 5, 6, 7] else []
        let (context, more) ← pciVisitFunctions visit bus device functions context
        if more then pciVisitDevices bus rest context else pure (context, false)

/-- The loop over the buses. -/
def pciVisitBuses : List UInt8 → κ → Pci κ
  | [], context => pure context
  | bus :: rest, context => do
    let (context, more) ← pciVisitDevices visit bus ((List.range 32).map UInt8.ofNat) context
    if more then pciVisitBuses rest context else pure context

/-- `pci_enumerate`. -/
def pciEnumerate (context : κ) : Pci κ := do
  let s ← get
  if !s.available then pure context
  else pciVisitBuses visit ((List.range 256).map UInt8.ofNat) context

end

end FunnyOS.Devices
