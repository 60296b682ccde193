import FunnyOS.Lib.Prog
import FunnyOS.Lib.Overlay
import FunnyOS.Memory.Pages

/-!
# Program images

`src/kernel/process.c`: how the image of an ELF program is laid out, and how its segments are
copied there. All fields of the file are numbers that nobody has checked, and sums of them wrap at
2^64. `return false` is an error outcome here. A read behind the bytes of the file and a write
outside the image are undefined behaviour: the pages of the file buffer and those that the process
maps for its image are not the same.
-/

namespace FunnyOS.Programs

open Prog

/-! ## Constants -/

/-- `PAGE_SIZE`. -/
abbrev pageSize : Nat := 4096

/-- `PROCESS_MAX_FILE_SIZE`. -/
abbrev processMaxFileSize : Nat := 131072

/-- `PT_LOAD`. -/
abbrev ptLoad : Nat := 1

/-- `ELF_MAGIC`. -/
abbrev elfMagic : Nat := 0x464C457F

/-- `ELFCLASS64`. -/
abbrev elfClass64 : Nat := 2

/-- `EM_X86_64`. -/
abbrev emX8664 : Nat := 62

/-- `PROCESS_ABI_STACK_SIZE`. -/
abbrev processAbiStackSize : Nat := 65536

/-- `PROCESS_ABI_STACK_TOP`. -/
abbrev processAbiStackTop : Nat := Memory.processAbiRegionEnd

/-- `PROCESS_ABI_STACK_BASE`. -/
abbrev processAbiStackBase : Nat := processAbiStackTop - processAbiStackSize

/-- `PROCESS_ABI_STACK_GAP`. -/
abbrev processAbiStackGap : Nat := 4096

/-- `PROCESS_ABI_IMAGE_BASE`. -/
abbrev processAbiImageBase : Nat := Memory.processAbiRegionStart

/-- `PROCESS_ABI_IMAGE_LIMIT`. -/
abbrev processAbiImageLimit : Nat := processAbiStackBase - processAbiStackGap

/-! ## The file -/

/-- The number that `count` bytes from `offset` on hold, the lowest byte first. -/
def littleEndian (bytes : List UInt8) (offset count : Nat) : Nat :=
  ((bytes.drop offset).take count).foldr (fun byte rest => byte.toNat + 256 * rest) 0

theorem littleEndian_lt {bytes : List UInt8} {offset count : Nat} :
    littleEndian bytes offset count < 256 ^ count := by
  have hfold : ∀ l : List UInt8,
      l.foldr (fun byte rest => byte.toNat + 256 * rest) 0 < 256 ^ l.length := by
    intro l
    induction l with
    | nil => simp
    | cons byte l ih =>
      have hbyte := byte.toNat_lt
      rw [List.foldr_cons, List.length_cons, pow_succ]
      omega
  refine (hfold _).trans_le (Nat.pow_le_pow_right (by decide) ?_)
  exact List.length_take_le ..

/-- `Elf64Header`, the fields that the loader reads. -/
structure Elf64Header where
  magic : Nat
  identClass : Nat
  machine : Nat
  entry : Nat
  phoff : Nat
  phentsize : Nat
  phnum : Nat
deriving DecidableEq, Repr

/-- `sizeof(Elf64Header)`. -/
abbrev elf64HeaderSize : Nat := 64

/-- The fields of a header. -/
def Elf64Header.decode (bytes : List UInt8) : Elf64Header where
  magic := littleEndian bytes 0 4
  identClass := littleEndian bytes 4 1
  machine := littleEndian bytes 18 2
  entry := littleEndian bytes 24 8
  phoff := littleEndian bytes 32 8
  phentsize := littleEndian bytes 54 2
  phnum := littleEndian bytes 56 2

/-- `Elf64ProgramHeader`, the fields that the loader reads. -/
structure Elf64ProgramHeader where
  type : Nat
  offset : Nat
  vaddr : Nat
  filesz : Nat
  memsz : Nat
deriving DecidableEq, Repr

/-- `sizeof(Elf64ProgramHeader)`. -/
abbrev elf64ProgramHeaderSize : Nat := 56

/-- The fields of a program header. -/
def Elf64ProgramHeader.decode (bytes : List UInt8) : Elf64ProgramHeader where
  type := littleEndian bytes 0 4
  offset := littleEndian bytes 8 8
  vaddr := littleEndian bytes 16 8
  filesz := littleEndian bytes 32 8
  memsz := littleEndian bytes 40 8

/-! ## The process -/

/-- `ProcessState`. -/
inductive ProcessState
  | idle
  | loaded
  | running
  | exited
deriving DecidableEq, Repr

/-- `ProcessAddressSpace`, without the root and the backing pages. -/
structure ProcessAddressSpace where
  imageBase : Nat
  stackBase : Nat
  stackTop : Nat
  imageCapacity : Nat
  imagePageCount : Nat
  stackSize : Nat
  stackPageCount : Nat
  fileCapacity : Nat
  filePageCount : Nat
deriving DecidableEq, Repr

/-- `ProcessImage`. The file buffer is given by the bytes of the file in it. -/
structure ProcessImage where
  entryPoint : Nat
  fileSize : Nat
  fileBuffer : List UInt8
deriving DecidableEq, Repr

/-- `Process`, the fields that the loader works on. -/
structure Process where
  state : ProcessState
  addressSpace : ProcessAddressSpace
  image : ProcessImage
deriving DecidableEq, Repr

/-- `bytes_to_pages`. -/
def bytesToPages (size : Nat) : Nat := (size + pageSize - 1) % 2 ^ 64 / pageSize

/-- `align_down_page`. -/
def alignDownPage (value : Nat) : Nat := value / pageSize * pageSize

/-- `align_up_page`. -/
def alignUpPage (value : Nat) : Nat := (value + pageSize - 1) % 2 ^ 64 / pageSize * pageSize

/-- `process_reset_fields`, with the bytes of the file that is read afterwards. -/
def processResetFields (fileBuffer : List UInt8) : Process where
  state := .idle
  addressSpace :=
    { imageBase := 0
      stackBase := processAbiStackBase
      stackTop := processAbiStackTop
      imageCapacity := 0
      imagePageCount := 0
      stackSize := processAbiStackSize
      stackPageCount := bytesToPages processAbiStackSize
      fileCapacity := processMaxFileSize
      filePageCount := bytesToPages processMaxFileSize }
  image := { entryPoint := 0, fileSize := 0, fileBuffer }

/-- The process, what the addresses that it maps hold, and the lines on the console, the last one
first. -/
structure LoadState where
  process : Process
  memory : Nat → UInt8
  console : List String

/-- A step of the loader. -/
abbrev Loader (α : Type) : Type := Prog LoadState Unit α

/-- `console_write_line`. -/
def consoleWriteLine (text : String) : Loader Unit :=
  modify fun s => { s with console := text :: s.console }

/-- A line on the console, and `return false`. -/
def refuse {α : Type} (text : String) : Loader α := do
  consoleWriteLine text
  raise ()

/-- The bytes at `file_buffer + offset`. -/
def readFile (offset count : Nat) : Loader (List UInt8) := fun s =>
  if offset + count ≤ s.process.image.fileBuffer.length then
    .ok ((s.process.image.fileBuffer.drop offset).take count) s
  else .fault s

/-- A store of `count` bytes from `address` on. -/
def store (address count : Nat) (value : Nat → UInt8) : Loader Unit := fun s =>
  let space := s.process.addressSpace
  if count = 0 ∨ space.imageBase ≤ address ∧ address + count ≤ space.imageBase + space.imageCapacity
  then .ok () { s with memory := overlay s.memory address count value }
  else .fault s

/-- `k_memset`. -/
def kMemset (dst : Nat) (value : UInt8) (count : Nat) : Loader Unit := store dst count fun _ => value

/-- `k_memcpy`. -/
def kMemcpy (dst : Nat) (src : List UInt8) : Loader Unit :=
  store dst src.length fun i => src.getD i 0

/-! ## The layout -/

/-- The variables of the loop of `process_configure_image_layout`. -/
structure ImageLayout where
  imageMin : Nat
  imageEnd : Nat
  hasLoadSegment : Bool
deriving DecidableEq, Repr

/-- `*(const Elf64Header*)process->image.file_buffer`. -/
def readHeader : Loader Elf64Header := do
  let bytes ← readFile 0 elf64HeaderSize
  pure (.decode bytes)

/-- The program header with the number `index`. -/
def readProgramHeader (header : Elf64Header) (index : Nat) : Loader Elf64ProgramHeader := do
  let bytes ← readFile ((header.phoff + index * header.phentsize) % 2 ^ 64) elf64ProgramHeaderSize
  pure (.decode bytes)

/-- The check of a segment against the file, the same in both loops. -/
def badSegment (fileSize : Nat) (segment : Elf64ProgramHeader) : Bool :=
  segment.offset > fileSize || segment.filesz > fileSize - segment.offset ||
    segment.filesz > segment.memsz

/-- A round of the loop of `process_configure_image_layout`. -/
def configureSegment (fileSize : Nat) (segment : Elf64ProgramHeader) (layout : ImageLayout) :
    Loader ImageLayout :=
  if segment.type ≠ ptLoad then pure layout
  else if badSegment fileSize segment then refuse "invalid program"
  else if segment.vaddr < processAbiImageBase ∨ segment.vaddr ≥ processAbiImageLimit
      ∨ segment.memsz > processAbiImageLimit - segment.vaddr then refuse "program too large"
  else
    let segmentStart := alignDownPage segment.vaddr
    let segmentEnd := alignUpPage ((segment.vaddr + segment.memsz) % 2 ^ 64)
    pure
      { imageMin := if segmentStart < layout.imageMin then segmentStart else layout.imageMin
        imageEnd := if segmentEnd > layout.imageEnd then segmentEnd else layout.imageEnd
        hasLoadSegment := true }

/-- The loop of `process_configure_image_layout`, over the numbers of the program headers. -/
def configureSegments (fileSize : Nat) (header : Elf64Header) :
    List Nat → ImageLayout → Loader ImageLayout
  | [], layout => pure layout
  | index :: rest, layout => do
    let segment ← readProgramHeader header index
    let layout ← configureSegment fileSize segment layout
    configureSegments fileSize header rest layout

/-- The check of the header. -/
def badHeader (fileSize : Nat) (header : Elf64Header) : Bool :=
  header.magic ≠ elfMagic || header.identClass ≠ elfClass64 || header.machine ≠ emX8664 ||
    header.phentsize ≠ elf64ProgramHeaderSize || header.phoff > fileSize ||
    header.phnum * header.phentsize > fileSize - header.phoff

/-- `process_configure_image_layout`. The kernel's image ends where the linker has put it. -/
def processConfigureImageLayout (kernelImageEnd fileSize : Nat) : Loader Unit := do
  if fileSize < elf64HeaderSize then refuse "invalid program"
  else do
    let header ← readHeader
    if badHeader fileSize header then refuse "invalid program"
    else do
      let layout ← configureSegments fileSize header (List.range header.phnum) ⟨2 ^ 64 - 1, 0, false⟩
      if !layout.hasLoadSegment then refuse "invalid program"
      else if layout.imageMin < kernelImageEnd then refuse "program image overlaps kernel"
      else if header.entry < layout.imageMin ∨ header.entry ≥ layout.imageEnd then
        refuse "invalid program"
      else if layout.imageEnd ≤ layout.imageMin then refuse "invalid program"
      else do
        modify fun s => { s with process.addressSpace :=
          { s.process.addressSpace with
            imageBase := layout.imageMin
            imageCapacity := layout.imageEnd - layout.imageMin
            imagePageCount := bytesToPages (layout.imageEnd - layout.imageMin) } }
        let s ← get
        if layout.imageMin < processAbiImageBase ∨ layout.imageEnd > processAbiImageLimit then
          refuse "program too large"
        else if (layout.imageEnd + processAbiStackGap) % 2 ^ 64 > s.process.addressSpace.stackBase then
          refuse "program too large"
        else modify fun s => { s with process.image :=
          { s.process.image with entryPoint := header.entry, fileSize } }

/-! ## The copy -/

/-- A round of the loop of `process_copy_image_segments`. -/
def copySegment (fileSize : Nat) (segment : Elf64ProgramHeader) : Loader Unit :=
  if segment.type ≠ ptLoad then pure ()
  else if badSegment fileSize segment then refuse "invalid program"
  else do
    kMemset segment.vaddr 0 segment.memsz
    let bytes ← readFile segment.offset segment.filesz
    kMemcpy segment.vaddr bytes

/-- The loop of `process_copy_image_segments`. -/
def copySegments (fileSize : Nat) (header : Elf64Header) : List Nat → Loader Unit
  | [] => pure ()
  | index :: rest => do
    let segment ← readProgramHeader header index
    copySegment fileSize segment
    copySegments fileSize header rest

/-- `process_copy_image_segments`. -/
def processCopyImageSegments (fileSize : Nat) : Loader Unit := do
  let header ← readHeader
  let s ← get
  kMemset s.process.addressSpace.imageBase 0 s.process.addressSpace.imageCapacity
  copySegments fileSize header (List.range header.phnum)
  modify fun s => { s with process.state := .loaded }

end FunnyOS.Programs
