import FunnyOS.Lib.Prog
import FunnyOS.Programs.Image

/-!
# The kernel image

`load_kernel_elf` (`src/boot/uefi/boot.c`) checks the ELF file of the kernel and copies its segments
to the addresses in the file, for which the firmware is asked for pages. All fields of the file are
64-bit numbers that nobody has checked. The file is in memory, in a pool buffer: what is stored for
a segment may be stored over it, and each header is read from the memory as it is then. A pointer
into the image is an offset from its first byte; offsets and addresses wrap at 2^64. The firmware
itself leaves the memory alone.
-/

namespace FunnyOS.Boot

open Prog
open Programs (littleEndian ptLoad elfMagic elfClass64 emX8664 elf64HeaderSize
  elf64ProgramHeaderSize)

/-! ## The image and the firmware -/

/-- The buffer that the file has been read to. No buffer is as large as half of the address
space. -/
structure KernelImage where
  address : Nat
  size : Nat
  fits : size < 2 ^ 63

/-- The memory when the file has been read to its buffer. -/
def KernelImage.filled (image : KernelImage) (bytes memory : Nat → UInt8) : Nat → UInt8 := fun a =>
  let i := (a + 2 ^ 64 - image.address) % 2 ^ 64
  if i < image.size then bytes i else memory a

/-- The number in `count` bytes of the memory, at an offset of the image. -/
def KernelImage.field (image : KernelImage) (memory : Nat → UInt8) (offset count : Nat) : Nat :=
  littleEndian ((List.range count).map fun i => memory ((image.address + offset + i) % 2 ^ 64)) 0
    count

/-- `AllocatePages` with `EFI_ALLOCATE_ADDRESS`: whether it grants the pages that are asked for,
when the given ones have been granted before. -/
structure Firmware where
  allocatePages : List (Nat × Nat) → Nat → Nat → Bool
  inRange : ∀ granted base pages, allocatePages granted base pages = true →
    base + pages * 4096 ≤ 2 ^ 64

/-- What has been stored for a segment: the first address, the number of bytes, and the base and the
number of the pages that have been granted for it. -/
structure SegmentStore where
  start : Nat
  count : Nat
  base : Nat
  pages : Nat
deriving DecidableEq, Repr

/-- What the loader has done: the memory, the pages granted, the parts of the image that it has read
(offset and length) and what it has stored, the last ones first. -/
structure KernelLoadState where
  memory : Nat → UInt8
  granted : List (Nat × Nat)
  reads : List (Nat × Nat)
  stores : List SegmentStore

/-- A step of the loader, with an `EFI_STATUS` for what it returns early with. -/
abbrev KernelLoad (α : Type) : Type := Prog KernelLoadState Nat α

/-- `EFI_OUT_OF_RESOURCES`. -/
abbrev efiOutOfResources : Nat := 9

/-- The bytes at an offset of the image are read. -/
def touchImage (offset count : Nat) : KernelLoad Unit :=
  modify fun s => { s with reads := (offset, count) :: s.reads }

/-- A field of the image is read. -/
def readField (image : KernelImage) (offset count : Nat) : KernelLoad Nat := do
  let s ← get
  touchImage offset count
  pure (image.field s.memory offset count)

/-- The pages that the firmware grants, or not. -/
def allocatePages (firmware : Firmware) (base pages : Nat) : KernelLoad Unit := do
  let s ← get
  if firmware.allocatePages s.granted base pages then
    modify fun s => { s with granted := (base, pages) :: s.granted }
  else raise efiOutOfResources

/-- `mem_set` to 0. -/
def memSet (address count : Nat) (memory : Nat → UInt8) : Nat → UInt8 := fun a =>
  if (a + 2 ^ 64 - address) % 2 ^ 64 < count then 0 else memory a

/-- `mem_copy`, which goes from the first byte to the last: where the ranges overlap, it may read
what it has written. -/
def memCopy (dst src : Nat) : Nat → (Nat → UInt8) → Nat → UInt8
  | 0, memory => memory
  | size + 1, memory =>
    let copied := memCopy dst src size memory
    Function.update copied ((dst + size) % 2 ^ 64) (copied ((src + size) % 2 ^ 64))

/-- A store for a segment. -/
def storeSegment (store : SegmentStore) (change : (Nat → UInt8) → Nat → UInt8) : KernelLoad Unit :=
  modify fun s => { s with
    memory := change s.memory
    stores := store :: s.stores }

/-! ## The segments -/

/-- `align_up`. -/
def alignUp (value align : Nat) : Nat := (value + align - 1) % 2 ^ 64 &&& (2 ^ 64 - align)

/-- `Elf64ProgramHeader`, the fields of a `PT_LOAD` segment that the loader reads. -/
structure LoadSegment where
  offset : Nat
  paddr : Nat
  filesz : Nat
  memsz : Nat
deriving DecidableEq, Repr

/-- The segment whose program header is at an offset of the image. -/
def KernelImage.segment (image : KernelImage) (memory : Nat → UInt8) (offset : Nat) :
    LoadSegment where
  offset := image.field memory (offset + 8) 8
  paddr := image.field memory (offset + 24) 8
  filesz := image.field memory (offset + 32) 8
  memsz := image.field memory (offset + 40) 8

/-- The check of a segment against the image. -/
def LoadSegment.rejected (segment : LoadSegment) (size : Nat) : Bool :=
  (segment.offset + segment.filesz) % 2 ^ 64 > size ∨ segment.filesz > segment.memsz

/-- `segment_base`. The mask `~0xFFFu` has 32 bits. -/
def LoadSegment.base (segment : LoadSegment) : Nat := segment.paddr &&& 0xFFFFF000

/-- `pages`. -/
def LoadSegment.pages (segment : LoadSegment) : Nat :=
  alignUp ((segment.memsz + (segment.paddr &&& 0xFFF)) % 2 ^ 64) 4096 / 4096

/-- A store of `count` bytes from an address on, for the segment. -/
def LoadSegment.store (segment : LoadSegment) (start count : Nat) : SegmentStore :=
  ⟨start, count, segment.base, segment.pages⟩

/-! ## The loader -/

/-- The segment whose program header is at an offset of the image, with its fields read. -/
def readSegment (image : KernelImage) (offset : Nat) : KernelLoad LoadSegment := do
  let fileOffset ← readField image (offset + 8) 8
  let filesz ← readField image (offset + 32) 8
  let memsz ← readField image (offset + 40) 8
  let paddr ← readField image (offset + 24) 8
  pure ⟨fileOffset, paddr, filesz, memsz⟩

/-- The segment is given its pages, zeroed and copied from the file. Behind the zeroing its program
header, at `offset`, is read again. -/
def copySegment (image : KernelImage) (firmware : Firmware) (offset : Nat) (segment : LoadSegment) :
    KernelLoad Unit := do
  allocatePages firmware segment.base segment.pages
  storeSegment (segment.store segment.paddr segment.memsz) (memSet segment.paddr segment.memsz)
  let filesz ← readField image (offset + 32) 8
  let paddr ← readField image (offset + 24) 8
  let fileOffset ← readField image (offset + 8) 8
  touchImage fileOffset filesz
  storeSegment (segment.store paddr filesz) (memCopy paddr (image.address + fileOffset) filesz)

/-- A round of the loop over the program headers. -/
def loadSegment (image : KernelImage) (firmware : Firmware) (programHeaders i : Nat) :
    KernelLoad (LoopStep Nat Unit) := do
  let phnum ← readField image 56 2
  if ¬ i < phnum then pure (.done ())
  else do
    let phentsize ← readField image 54 2
    let offset := (programHeaders + i * phentsize) % 2 ^ 64
    let type ← readField image offset 4
    if type ≠ ptLoad then pure (.again (i + 1))
    else do
      let segment ← readSegment image offset
      if segment.rejected image.size then raise 1
      else do
        copySegment image firmware offset segment
        pure (.again (i + 1))

/-- `load_kernel_elf`, with what it stores to `entry_out`. -/
def loadKernelElf (image : KernelImage) (firmware : Firmware) : KernelLoad Nat :=
  if image.size < elf64HeaderSize then raise 1
  else do
    let magic ← readField image 0 4
    let identClass ← readField image 4 1
    let machine ← readField image 18 2
    if magic ≠ elfMagic ∨ identClass ≠ elfClass64 ∨ machine ≠ emX8664 then raise 1
    else do
      let phentsize ← readField image 54 2
      if phentsize ≠ elf64ProgramHeaderSize then raise 1
      else do
        let phoff ← readField image 32 8
        let phnum ← readField image 56 2
        if (phoff + phnum * phentsize) % 2 ^ 64 > image.size then raise 1
        else do
          loop (loadSegment image firmware phoff) (2 ^ 16) 0
          readField image 24 8

end FunnyOS.Boot
