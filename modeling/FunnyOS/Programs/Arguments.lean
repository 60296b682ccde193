import FunnyOS.Kernel.KString
import FunnyOS.Lib.Ends
import FunnyOS.Lib.Overlay
import FunnyOS.Programs.Image

/-!
# Program arguments

`process_tokenize_args` and `process_stage_user_context` (`src/kernel/process.c`): the command and
the words of the argument line are packed into a buffer of the process, and the buffer is copied to
the bottom of the program's stack, behind the pointers to its strings. A store outside a buffer is
undefined behaviour. `return false` is an error outcome here.
-/

namespace FunnyOS.Programs

open Prog

/-! ## The process -/

/-- `PROCESS_MAX_ARGS`. -/
abbrev processMaxArgs : Nat := 8

/-- `PROCESS_ARG_BUFFER_SIZE`. -/
abbrev processArgBufferSize : Nat := 256

/-- `PATH_CAPACITY`. -/
abbrev pathCapacity : Nat := 128

/-- `PROGRAM_INFO_MAGIC`. -/
abbrev programInfoMagic : Nat := 0x4D524750

/-- `ProgramInfo`, the fields that are not constant. -/
structure ProgramInfo where
  argc : Nat
  argvAddr : Nat
  cwdAddr : Nat
deriving DecidableEq, Repr

/-- `ProcessRuntime`, the fields for the program's context. -/
structure ProcessRuntime where
  info : ProgramInfo
  cwd : Nat → UInt8
  argBuffer : Nat → UInt8
  argv : Nat → Nat
  userInfoAddr : Nat

/-- The addresses of the buffers of a `ProcessRuntime`. -/
structure RuntimeAddresses where
  cwd : Nat
  argBuffer : Nat
  argv : Nat
deriving DecidableEq, Repr

/-- The process and the memory in its address space. -/
structure ArgState where
  addressSpace : ProcessAddressSpace
  runtime : ProcessRuntime
  memory : Nat → UInt8

/-- A step of the preparation of a program. -/
abbrev ArgStep (α : Type) : Type := Prog ArgState Unit α

/-! ## The tokens -/

/-- `process->runtime.arg_buffer[offset] = c`. -/
def storeArg (offset : Nat) (c : UInt8) : ArgStep Unit := fun s =>
  if offset < processArgBufferSize then
    .ok () { s with runtime :=
      { s.runtime with argBuffer := Function.update s.runtime.argBuffer offset c } }
  else .fault s

/-- `process->runtime.argv[index] = value`. -/
def storeArgv (index value : Nat) : ArgStep Unit := fun s =>
  if index < processMaxArgs then
    .ok () { s with runtime :=
      { s.runtime with argv := Function.update s.runtime.argv index value } }
  else .fault s

/-- The loops that copy a token: they stop at the end of the string and at a character of the given
kind, and leave the rest of the string and the offset behind the token. -/
def copyToken (stop : UInt8 → Bool) : List UInt8 → Nat → ArgStep (List UInt8 × Nat)
  | [], offset => pure ([], offset)
  | c :: rest, offset =>
    if stop c then pure (c :: rest, offset)
    else if offset + 1 ≥ processArgBufferSize then raise ()
    else do
      storeArg offset c
      copyToken stop rest (offset + 1)

/-- A round of the loop over the argument line, with `cursor`, `offset` and `argc`. -/
def tokenizeWord (addresses : RuntimeAddresses) (cursor : List UInt8 × Nat × Nat) :
    ArgStep (LoopStep (List UInt8 × Nat × Nat) Nat) :=
  let offset := cursor.2.1
  let argc := cursor.2.2
  let rest := cursor.1.dropWhile kIsSpace
  if rest = [] then pure (.done argc)
  else if argc ≥ processMaxArgs then raise ()
  else do
    let token ← copyToken kIsSpace rest offset
    storeArg token.2 0
    storeArgv argc (addresses.argBuffer + offset)
    pure (.again (token.1, token.2 + 1, argc + 1))

/-- The characters of the argument line, which is empty where there is none. -/
def lineChars : Option CString → List UInt8
  | none => []
  | some line => line.chars

/-- `process_tokenize_args`. -/
def processTokenizeArgs (addresses : RuntimeAddresses) (command argumentLine : Option CString) :
    ArgStep Unit := do
  modify fun s =>
    { s with runtime := { s.runtime with argBuffer := fun _ => 0, argv := fun _ => 0 } }
  match command with
  | none => raise ()
  | some command =>
    if command.chars = [] then raise ()
    else do
      let token ← copyToken (fun _ => false) command.chars 0
      storeArg token.2 0
      storeArgv 0 addresses.argBuffer
      let line := lineChars argumentLine
      let argc ← loop (tokenizeWord addresses) (line.length + 1) (line, token.2 + 1, 1)
      modify fun s =>
        { s with runtime := { s.runtime with info := ⟨argc, addresses.argv, addresses.cwd⟩ } }

/-! ## The user context -/

/-- A member of `ProcessUserContext`: its offset and its size. -/
structure ContextMember where
  first : Nat
  size : Nat
deriving DecidableEq, Repr

/-- `sizeof(ProcessUserContext)`. -/
abbrev userContextSize : Nat := 480

/-- `info`. -/
abbrev contextInfo : ContextMember := ⟨0, 32⟩

/-- `argv`. -/
abbrev contextArgv : ContextMember := ⟨32, 64⟩

/-- `cwd`. -/
abbrev contextCwd : ContextMember := ⟨96, 128⟩

/-- `arg_buffer`. -/
abbrev contextArgBuffer : ContextMember := ⟨224, 256⟩

/-- The state with `count` new bytes from an address on. -/
def ArgState.write (s : ArgState) (start count : Nat) (value : Nat → UInt8) : ArgState :=
  { s with memory := overlay s.memory start count value }

section

variable {s : ArgState} {start count a : Nat} {value : Nat → UInt8}

@[simp] theorem ArgState.write_runtime : (s.write start count value).runtime = s.runtime := rfl

@[simp] theorem ArgState.write_addressSpace :
    (s.write start count value).addressSpace = s.addressSpace := rfl

theorem ArgState.write_inside (h : start ≤ a ∧ a < start + count) :
    (s.write start count value).memory a = value (a - start) := overlay_inside h

theorem ArgState.write_outside (h : ¬ (start ≤ a ∧ a < start + count)) :
    (s.write start count value).memory a = s.memory a := overlay_outside h

end

/-- A store of `count` bytes at an offset of a member of the user context. -/
def storeContext (member : ContextMember) (offset count : Nat) (value : Nat → UInt8) :
    ArgStep Unit := fun s =>
  if offset + count ≤ member.size then
    .ok () (s.write (s.addressSpace.stackBase + member.first + offset) count value)
  else .fault s

/-- The bytes of a number, the lowest one first. -/
def numberBytes (value i : Nat) : UInt8 := .ofNat (value / 256 ^ i)

/-- A round of the loop over the arguments. -/
def stageArg (addresses : RuntimeAddresses) (index : Nat) : ArgStep Unit := do
  let s ← get
  if index ≥ processMaxArgs then Prog.fault
  else
    let sourcePtr := s.runtime.argv index
    if sourcePtr < addresses.argBuffer then raise ()
    else
      let offset := sourcePtr - addresses.argBuffer
      if offset ≥ processArgBufferSize then raise ()
      else
        let value := s.addressSpace.stackBase + contextArgBuffer.first + offset
        storeContext contextArgv (8 * index) 8 (numberBytes value)

/-- The loop over the arguments. -/
def stageArgs (addresses : RuntimeAddresses) : List Nat → ArgStep Unit
  | [] => pure ()
  | index :: rest => do
    stageArg addresses index
    stageArgs addresses rest

/-- The fields of `info`. -/
def stageInfo : ArgStep Unit := do
  let s ← get
  let base := s.addressSpace.stackBase
  storeContext contextInfo 0 4 (numberBytes programInfoMagic)
  storeContext contextInfo 4 4 (numberBytes 0)
  storeContext contextInfo 8 8 (numberBytes s.runtime.info.argc)
  storeContext contextInfo 16 8 (numberBytes (base + contextArgv.first))
  storeContext contextInfo 24 8 (numberBytes (base + contextCwd.first))
  modify fun s => { s with runtime := { s.runtime with userInfoAddr := base } }

/-- `process_stage_user_context`. -/
def processStageUserContext (addresses : RuntimeAddresses) : ArgStep Unit := do
  let s ← get
  if userContextSize > s.addressSpace.stackSize then raise ()
  else do
    storeContext ⟨0, userContextSize⟩ 0 userContextSize fun _ => 0
    storeContext contextCwd 0 pathCapacity s.runtime.cwd
    storeContext contextArgBuffer 0 processArgBufferSize s.runtime.argBuffer
    stageArgs addresses (List.range s.runtime.info.argc)
    stageInfo

end FunnyOS.Programs
