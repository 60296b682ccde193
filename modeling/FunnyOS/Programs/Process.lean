import FunnyOS.Devices.Console
import FunnyOS.Lib.Parts
import FunnyOS.Memory.Paging
import FunnyOS.Programs.Arguments

/-!
# Foreground processes

`process_load_binary` and `process_run_foreground` (`src/kernel/process.c`), on the kernel's pages
and page tables and on the process. What the file system answers about the program is given.
`return false` is an error outcome here. `process_run_foreground` is cut in two where it enters the
program with `program_invoke`.
-/

namespace FunnyOS.Programs

open Prog Devices

/-! ## The state -/

/-- The members of `ProcessAddressSpace` for what the process holds; 0 is `NULL`. -/
structure ProcessPages where
  pageTableRoot : Nat
  imageBacking : Nat
  stackBacking : Nat
  fileBuffer : Nat
deriving DecidableEq, Repr

/-- The kernel and `g_foreground_process`. `active` says whether `g_active_process` points to it,
`memory` is what its addresses hold, and `console` the lines of the loader, the last one first.
`accesses` and `output` are no variables of the source: they list the addresses of user memory that
system calls have used and the calls of the console that they have made, the last one first. -/
structure ForegroundState where
  kernel : Memory.Kernel
  process : Process
  pages : ProcessPages
  runtime : ProcessRuntime
  exitStatus : UInt32
  exitRequested : Bool
  active : Bool
  memory : Nat → UInt8
  console : List String
  accesses : List Nat
  output : List ConsoleCall

/-- A step of the kernel on its foreground process. -/
abbrev Foreground (α : Type) : Type := Prog ForegroundState Unit α

/-- The type and the size in `FsNodeInfo`. -/
structure FsNode where
  isFile : Bool
  size : Nat
deriving DecidableEq, Repr

/-- What the file system says of the program: the answer of `fs_stat`, the pieces that
`fs_read_file` hands to its callback, and whether it answers `FS_OK` when it has handed all. -/
structure ProgramFile where
  stat : Option FsNode
  pieces : List (List UInt8)
  readOk : Bool
deriving DecidableEq, Repr

/-- The arguments of `process_run_foreground`, where `none` is `NULL`, and what is fixed when the
kernel is linked. -/
structure ForegroundCall where
  kernelImageEnd : Nat
  addresses : RuntimeAddresses
  file : Option ProgramFile
  command : Option CString
  argumentLine : Option CString
  cwd : Option CString

/-! ## Steps on parts of the state -/

/-- A step of the loader. -/
def loading {α : Type} (x : Loader α) : Foreground α :=
  onPart (fun s => ⟨s.process, s.memory, s.console⟩)
    (fun s t => { s with process := t.process, memory := t.memory, console := t.console }) x

/-- A step of the preparation of the arguments. -/
def staging {α : Type} (x : ArgStep α) : Foreground α :=
  onPart (fun s => ⟨s.process.addressSpace, s.runtime, s.memory⟩)
    (fun s t => { s with
      process.addressSpace := t.addressSpace, runtime := t.runtime, memory := t.memory }) x

/-- `alloc_pages`. -/
def allocPages (pageCount : Nat) : Foreground Nat := fun s =>
  let (base, kernel) := s.kernel.allocPages pageCount
  .ok base { s with kernel }

/-- `paging_create_address_space`. -/
def pagingCreateAddressSpace : Foreground Nat := fun s =>
  let (root, kernel) := Memory.pagingCreateAddressSpace s.kernel
  .ok root { s with kernel }

/-- `paging_map_user_range` under the root of the process. -/
def pagingMapUserRange (virtStart physStart size : Nat) (writable executable : Bool) :
    Foreground Bool := fun s =>
  let (ok, kernel) := Memory.pagingMapUserRange s.kernel s.pages.pageTableRoot virtStart physStart
    size writable executable
  .ok ok { s with kernel }

/-- `paging_activate_root`. -/
def pagingActivateRoot (root : Nat) : Foreground Unit :=
  modify fun s => { s with kernel := Memory.pagingActivateRoot s.kernel root }

/-! ## What a process gives back -/

/-- A block of the process is freed, if there is one. -/
def freeBacking (backing : ProcessPages → Nat) (clear : ProcessPages → ProcessPages)
    (pageCount : ProcessAddressSpace → Nat) (s : ForegroundState) : ForegroundState :=
  if backing s.pages ≠ 0 then
    { s with
      kernel := s.kernel.freePages (backing s.pages) (pageCount s.process.addressSpace)
      pages := clear s.pages }
  else s

/-- The branch for `image_backing`. -/
def freeImageBacking : ForegroundState → ForegroundState :=
  freeBacking (·.imageBacking) (fun pages => { pages with imageBacking := 0 }) (·.imagePageCount)

/-- The branch for `stack_backing`. -/
def freeStackBacking : ForegroundState → ForegroundState :=
  freeBacking (·.stackBacking) (fun pages => { pages with stackBacking := 0 }) (·.stackPageCount)

/-- The branch for `file_buffer`. -/
def freeFileBuffer : ForegroundState → ForegroundState :=
  freeBacking (·.fileBuffer) (fun pages => { pages with fileBuffer := 0 }) (·.filePageCount)

/-- The branch for `page_table_root`. -/
def destroyRoot (s : ForegroundState) : ForegroundState :=
  if s.pages.pageTableRoot ≠ 0 then
    { s with
      kernel := Memory.pagingDestroyAddressSpace s.kernel s.pages.pageTableRoot
      pages.pageTableRoot := 0 }
  else s

/-- `process_release_address_space`. -/
def processReleaseAddressSpace (s : ForegroundState) : ForegroundState :=
  let s := destroyRoot (freeFileBuffer (freeStackBacking (freeImageBacking s)))
  { s with runtime.userInfoAddr := 0 }

/-! ## The address space -/

/-- `alloc_pages` for a member of the process, and a line on the console where it fails. -/
def allocBacking (set : Nat → ProcessPages → ProcessPages)
    (pageCount : ProcessAddressSpace → Nat) (text : String) : Foreground Unit := do
  let s ← get
  let base ← allocPages (pageCount s.process.addressSpace)
  modify fun s => { s with pages := set base s.pages }
  if base = 0 then loading (refuse text) else pure ()

/-- `paging_map_user_range` for a region of the process, and a line on the console where it
fails. -/
def mapBacking (base size : ProcessAddressSpace → Nat) (backing : ProcessPages → Nat)
    (executable : Bool) (text : String) : Foreground Unit := do
  let s ← get
  let space := s.process.addressSpace
  let ok ← pagingMapUserRange (base space) (backing s.pages) (size space) true executable
  if !ok then loading (refuse text) else pure ()

/-- `alloc_pages` for the image. -/
def backImage : Foreground Unit :=
  allocBacking (fun base pages => { pages with imageBacking := base }) (·.imagePageCount)
    "program: image backing alloc failed"

/-- `alloc_pages` for the stack. -/
def backStack : Foreground Unit :=
  allocBacking (fun base pages => { pages with stackBacking := base }) (·.stackPageCount)
    "program: stack backing alloc failed"

/-- `paging_map_user_range` for the image. -/
def mapImage : Foreground Unit :=
  mapBacking (·.imageBase) (·.imageCapacity) (·.imageBacking) true "program: image map failed"

/-- `paging_map_user_range` for the stack. -/
def mapStack : Foreground Unit :=
  mapBacking (·.stackBase) (·.stackSize) (·.stackBacking) false "program: stack map failed"

/-- What follows the label `fail`. -/
def failPrepare : Foreground Unit := do
  modify fun s => destroyRoot (freeImageBacking (freeStackBacking s))
  raise ()

/-- `process_prepare_address_space`. -/
def processPrepareAddressSpace : Foreground Unit := do
  let root ← pagingCreateAddressSpace
  modify fun s => { s with pages.pageTableRoot := root }
  if root = 0 then loading (refuse "program: page table alloc failed")
  else
    orElse
      (do
        backImage
        backStack
        mapImage
        mapStack)
      fun _ => failPrepare

/-! ## The program file -/

/-- `process_file_chunk_copy`. The sum in its check is of 32 bits. -/
def processFileChunkCopy (data : List UInt8) : Foreground Bool := fun s =>
  let size := s.process.image.fileBuffer.length
  let capacity := s.process.addressSpace.fileCapacity
  if (size + data.length) % 2 ^ 32 > capacity then .ok false s
  else if size + data.length > capacity then .fault s
  else
    .ok true { s with process.image.fileBuffer := s.process.image.fileBuffer ++ data }

/-- `fs_read_file` with that callback. -/
def readPieces (readOk : Bool) : List (List UInt8) → Foreground Bool
  | [] => pure readOk
  | data :: rest => do
    let taken ← processFileChunkCopy data
    if taken then readPieces readOk rest else pure false

/-- `process_load_binary` up to the layout of the image: the size of the file. -/
def readProgramFile (file : ProgramFile) : Foreground Nat := do
  match file.stat with
  | none => raise ()
  | some node => do
    let s ← get
    if !node.isFile then loading (refuse "program path is not a file")
    else if node.size > s.process.addressSpace.fileCapacity then
      loading (refuse "program too large")
    else do
      let ok ← readPieces file.readOk file.pieces
      if !ok then loading (refuse "program read failed")
      else do
        let s ← get
        let size := s.process.image.fileBuffer.length
        if size ≠ node.size then loading (refuse "program size mismatch") else pure size

/-- A step under the root of the process; where it fails, a line on the console and the previous
root. -/
def underRoot (previousRoot : Nat) (text : String) (x : Foreground Unit) : Foreground Unit :=
  orElse x fun _ => do
    loading (consoleWriteLine text)
    pagingActivateRoot previousRoot
    raise ()

/-- `process_load_binary`. -/
def processLoadBinary (call : ForegroundCall) (file : ProgramFile) : Foreground Unit := do
  let size ← readProgramFile file
  loading (processConfigureImageLayout call.kernelImageEnd size)
  orElse processPrepareAddressSpace fun _ =>
    loading (refuse "program address space setup failed")
  let s ← get
  let previousRoot := Memory.pagingCurrentRoot s.kernel
  pagingActivateRoot s.pages.pageTableRoot
  underRoot previousRoot "program user context setup failed"
    (staging (processStageUserContext call.addresses))
  underRoot previousRoot "program image copy failed" (loading (processCopyImageSegments size))
  pagingActivateRoot previousRoot

/-! ## The run -/

/-- A process whose fields are 0. -/
def emptyRuntime : ProcessRuntime where
  info := ⟨0, 0, 0⟩
  cwd := fun _ => 0
  argBuffer := fun _ => 0
  argv := fun _ => 0
  userInfoAddr := 0

/-- `process_init`. -/
def processInit (s : ForegroundState) : ForegroundState :=
  { s with
    process := processResetFields []
    pages := ⟨0, 0, 0, 0⟩
    runtime := emptyRuntime
    exitStatus := 0
    exitRequested := false }

/-- `k_strcpy(process->runtime.cwd, cwd)`. -/
def copyCwd (cwd : CString) : Foreground Unit := fun s =>
  if cwd.chars.length < pathCapacity then
    let bytes := overlay s.runtime.cwd 0 (cwd.chars.length + 1) fun i => cwd.chars.getD i 0
    .ok () { s with runtime.cwd := bytes }
  else .fault s

/-- `alloc_pages` for the file. -/
def backFile : Foreground Unit :=
  allocBacking (fun base pages => { pages with fileBuffer := base }) (·.filePageCount)
    "program file buffer alloc failed"

/-- A failure behind which the process gives back what it has. -/
def releaseFailed : Foreground Unit := do
  modify processReleaseAddressSpace
  raise ()

/-- `process_run_foreground` up to `program_invoke`: the root that was active before. -/
def processStart (call : ForegroundCall) : Foreground Nat := do
  match call.file, call.command, call.cwd with
  | some file, some command, some cwd => do
    modify processInit
    orElse (staging (processTokenizeArgs call.addresses (some command) call.argumentLine))
      fun _ => loading (refuse "program args invalid")
    orElse
      (do
        backFile
        copyCwd cwd
        processLoadBinary call file)
      fun _ => releaseFailed
    modify fun s =>
      { s with exitRequested := false, exitStatus := 0, process.state := .running, active := true }
    let s ← get
    pagingActivateRoot s.pages.pageTableRoot
    pure (Memory.pagingCurrentRoot s.kernel)
  | _, _, _ => raise ()

/-- `process_run_foreground` behind `program_invoke`. -/
def processFinish (kernelRoot : Nat) (invokeResult : UInt64) : Foreground Unit := do
  pagingActivateRoot kernelRoot
  modify fun s => { s with active := false }
  let s ← get
  if invokeResult = 0 ∨ !s.exitRequested then do
    loading (consoleWriteLine "program returned unexpectedly")
    releaseFailed
  else if s.exitStatus ≠ 0 then do
    loading (consoleWriteLine ("program exited with status " ++ toString s.exitStatus.toNat))
    releaseFailed
  else modify processReleaseAddressSpace

end FunnyOS.Programs
