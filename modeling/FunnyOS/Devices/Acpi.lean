import FunnyOS.Lib.Prog
import FunnyOS.Programs.Image

/-!
# ACPI tables

`src/kernel/acpi.c`: from the root pointer that the firmware has left, the kernel goes to the root
table, from there to the tables that it lists, and through the records of the MADT to the first IO
APIC. The memory is what the firmware has put there. `return false` is the value `false` here.
-/

namespace FunnyOS.Devices

open Prog
open Programs (littleEndian)

/-! ## The memory -/

/-- `ACPI_MAX_IDENTITY_ADDRESS`. -/
abbrev acpiMaxIdentityAddress : Nat := 2 ^ 32

/-- `ACPI_SIG_RSDT`. -/
abbrev acpiSigRsdt : Nat := 0x54445352

/-- `ACPI_SIG_XSDT`. -/
abbrev acpiSigXsdt : Nat := 0x54445358

/-- `ACPI_SIG_FADT`. -/
abbrev acpiSigFadt : Nat := 0x50434146

/-- `ACPI_SIG_MADT`. -/
abbrev acpiSigMadt : Nat := 0x43495041

/-- The number in `count` bytes of the memory. -/
def acpiField (memory : Nat → UInt8) (address count : Nat) : Nat :=
  littleEndian ((List.range count).map fun i => memory (address + i)) 0 count

/-- `acpi_memory_readable`. -/
def acpiMemoryReadable (address size : Nat) : Bool :=
  if address = 0 ∨ size = 0 then false
  else if (address + size) % 2 ^ 64 < address then false
  else (address + size) % 2 ^ 64 ≤ acpiMaxIdentityAddress

/-- The sum of `acpi_checksum_ok`. -/
def acpiSum (memory : Nat → UInt8) (address size : Nat) : UInt8 :=
  (List.range size).foldl (fun sum i => sum + memory (address + i)) 0

/-- `acpi_checksum_ok`. -/
def acpiChecksumOk (memory : Nat → UInt8) (address size : Nat) : Bool :=
  if address = 0 ∨ size = 0 then false else acpiSum memory address size = 0

/-- `acpi_rsdp_signature_valid`: the bytes `RSD PTR `. -/
def acpiRsdpSignatureValid (memory : Nat → UInt8) (rsdp : Nat) : Bool :=
  (List.range 8).map (fun i => memory (rsdp + i)) = [0x52, 0x53, 0x44, 0x20, 0x50, 0x54, 0x52, 0x20]

/-- `sizeof(AcpiRsdpV1)`. -/
abbrev acpiRsdpV1Size : Nat := 20

/-- `sizeof(AcpiRsdpV2)`. -/
abbrev acpiRsdpV2Size : Nat := 36

/-- `sizeof(AcpiSdtHeader)`. -/
abbrev acpiSdtHeaderSize : Nat := 36

/-- `length` of a table. -/
def acpiTableLength (memory : Nat → UInt8) (table : Nat) : Nat := acpiField memory (table + 4) 4

/-- `acpi_validate_header`, whether it returns the header. -/
def acpiValidateHeader (memory : Nat → UInt8) (address expectedSignature : Nat) : Bool :=
  if !acpiMemoryReadable address acpiSdtHeaderSize then false
  else if acpiField memory address 4 ≠ expectedSignature then false
  else if acpiTableLength memory address < acpiSdtHeaderSize then false
  else if !acpiMemoryReadable address (acpiTableLength memory address) then false
  else acpiChecksumOk memory address (acpiTableLength memory address)

/-! ## The platform information -/

/-- `AcpiPlatformInfo`. -/
structure AcpiPlatformInfo where
  present : Bool
  rsdp : Nat
  sdtRoot : Nat
  madt : Nat
  fadt : Nat
  lapicAddress : Nat
  ioapicAddress : Nat
  ioapicGsiBase : Nat
  ioapicId : Nat
deriving DecidableEq, Repr

/-- Bytes that a value is taken from, or a record of the MADT is read from: the first address, their
number, and the address of the table that they are read as a part of. -/
structure AcpiRead where
  first : Nat
  count : Nat
  table : Nat
deriving DecidableEq, Repr

/-- `g_acpi`, and the reads, the last one first. -/
structure AcpiState where
  info : AcpiPlatformInfo
  reads : List AcpiRead

/-- A step of the search. -/
abbrev Acpi (α : Type) : Type := Prog AcpiState Unit α

/-- A field of a table is read. -/
def readTable (memory : Nat → UInt8) (table first count : Nat) : Acpi Nat := do
  modify fun s => { s with reads := ⟨first, count, table⟩ :: s.reads }
  pure (acpiField memory first count)

/-- A field of `g_acpi` is set. -/
def setInfo (f : AcpiPlatformInfo → AcpiPlatformInfo) : Acpi Unit :=
  modify fun s => { s with info := f s.info }

/-! ## The MADT -/

/-- `ACPI_MADT_ENTRY_IOAPIC`. -/
abbrev acpiMadtEntryIoapic : Nat := 1

/-- `ACPI_MAX_MADT_SCAN_BYTES`. -/
abbrev acpiMaxMadtScanBytes : Nat := 4096

/-- `sizeof(AcpiMadt)`. -/
abbrev acpiMadtSize : Nat := 44

/-- `sizeof(AcpiMadtEntryHeader)`. -/
abbrev acpiMadtEntryHeaderSize : Nat := 2

/-- `sizeof(AcpiMadtIoApic)`. -/
abbrev acpiMadtIoApicSize : Nat := 12

/-- A round of the loop over the records. -/
def scanMadtEntry (memory : Nat → UInt8) (madt stop cursor : Nat) : Acpi (LoopStep Nat Unit) :=
  if ¬ cursor + acpiMadtEntryHeaderSize ≤ stop then pure (.done ())
  else do
    let type ← readTable memory madt cursor 1
    let length ← readTable memory madt (cursor + 1) 1
    if length < acpiMadtEntryHeaderSize then pure (.done ())
    else if cursor + length > stop then pure (.done ())
    else if type = acpiMadtEntryIoapic ∧ length ≥ acpiMadtIoApicSize then do
      let ioapicId ← readTable memory madt (cursor + 2) 1
      setInfo fun info => { info with ioapicId := ioapicId }
      let ioapicAddress ← readTable memory madt (cursor + 4) 4
      setInfo fun info => { info with ioapicAddress := ioapicAddress }
      let gsiBase ← readTable memory madt (cursor + 8) 4
      setInfo fun info => { info with ioapicGsiBase := gsiBase }
      pure (.done ())
    else pure (.again (cursor + length))

/-- More rounds than records fit in what is scanned. -/
abbrev madtRounds : Nat := 2049

/-- `acpi_scan_madt`. -/
def acpiScanMadt (memory : Nat → UInt8) (madt : Nat) : Acpi Unit := do
  let lapicAddress ← readTable memory madt (madt + 36) 4
  setInfo fun info => { info with lapicAddress := lapicAddress }
  let cursor := madt + acpiMadtSize
  let stop := madt + acpiTableLength memory madt
  if stop < cursor then pure ()
  else
    let stop := if stop - cursor > acpiMaxMadtScanBytes then cursor + acpiMaxMadtScanBytes else stop
    loop (scanMadtEntry memory madt stop) madtRounds cursor

/-! ## The root table -/

/-- The pointer to the root table: the place of the field, and the table. -/
structure AcpiRoot where
  field : Nat
  fieldSize : Nat
  address : Nat
  useXsdt : Bool
deriving DecidableEq, Repr

/-- The part of `acpi_init` before the root table, where it does not return. -/
def acpiFindRoot (memory : Nat → UInt8) (rsdp : Nat) : Option AcpiRoot :=
  let revision := (memory (rsdp + 15)).toNat
  let rsdtAddress := acpiField memory (rsdp + 16) 4
  let length := acpiField memory (rsdp + 20) 4
  let xsdtAddress := acpiField memory (rsdp + 24) 8
  let rsdt : Option AcpiRoot :=
    if rsdtAddress ≠ 0 then some ⟨rsdp + 16, 4, rsdtAddress, false⟩ else none
  if rsdp = 0 then none
  else if !acpiMemoryReadable rsdp acpiRsdpV1Size then none
  else if !acpiRsdpSignatureValid memory rsdp then none
  else if !acpiChecksumOk memory rsdp acpiRsdpV1Size then none
  else if revision ≥ 2 then
    if !acpiMemoryReadable rsdp acpiRsdpV2Size then none
    else if length < acpiRsdpV2Size then none
    else if !acpiMemoryReadable rsdp length then none
    else if !acpiChecksumOk memory rsdp length then none
    else if xsdtAddress ≠ 0 ∧ xsdtAddress < acpiMaxIdentityAddress then
      some ⟨rsdp + 24, 8, xsdtAddress, true⟩
    else rsdt
  else rsdt

/-- The signature that the root table is to have. -/
def AcpiRoot.signature (root : AcpiRoot) : Nat := if root.useXsdt then acpiSigXsdt else acpiSigRsdt

/-- The size of an entry. -/
def AcpiRoot.entrySize (root : AcpiRoot) : Nat := if root.useXsdt then 8 else 4

/-- `entries_count`. -/
def AcpiRoot.entriesCount (memory : Nat → UInt8) (root : AcpiRoot) : Nat :=
  (acpiTableLength memory root.address - acpiSdtHeaderSize) / root.entrySize

/-- The place of an entry. -/
def AcpiRoot.entry (root : AcpiRoot) (i : Nat) : Nat :=
  root.address + acpiSdtHeaderSize + i * root.entrySize

/-- What `acpi_init` does with a table. -/
def acpiLookAt (memory : Nat → UInt8) (table : Nat) : Acpi Unit :=
  if acpiField memory table 4 = acpiSigMadt then
    if acpiValidateHeader memory table acpiSigMadt then do
      setInfo fun info => { info with madt := table }
      acpiScanMadt memory table
    else pure ()
  else if acpiField memory table 4 = acpiSigFadt then
    if acpiValidateHeader memory table acpiSigFadt then
      setInfo fun info => { info with fadt := table }
    else pure ()
  else pure ()

/-- A round of the loop over the entries of the root table. -/
def acpiScanEntry (memory : Nat → UInt8) (root : AcpiRoot) (i : Nat) : Acpi Unit := do
  let table ← readTable memory root.address (root.entry i) root.entrySize
  if root.useXsdt ∧ table ≥ acpiMaxIdentityAddress then pure ()
  else if !acpiMemoryReadable table acpiSdtHeaderSize then pure ()
  else acpiLookAt memory table

/-- The loop over the entries. -/
def acpiScanEntries (memory : Nat → UInt8) (root : AcpiRoot) : List Nat → Acpi Unit
  | [] => pure ()
  | i :: rest => do
    acpiScanEntry memory root i
    acpiScanEntries memory root rest

/-- `acpi_init`. -/
def acpiInit (memory : Nat → UInt8) (rsdp : Nat) : Acpi Bool := do
  setInfo fun _ => ⟨false, 0, 0, 0, 0, 0, 0, 0, 0⟩
  match acpiFindRoot memory rsdp with
  | none => pure false
  | some root => do
    let sdtRoot ← readTable memory rsdp root.field root.fieldSize
    if !acpiValidateHeader memory root.address root.signature then pure false
    else do
      setInfo fun info => { info with present := true, rsdp := rsdp, sdtRoot := sdtRoot }
      acpiScanEntries memory root (List.range (root.entriesCount memory))
      let s ← get
      pure (s.info.madt ≠ 0 ∧ s.info.lapicAddress ≠ 0)

end FunnyOS.Devices
