import FunnyOS.Devices.Keyboard
import FunnyOS.Programs.Process

/-!
# System calls

`process_handle_syscall` (`src/kernel/process.c`) and the line editor that it calls for
`PROGRAM_SYSCALL_READ_LINE`, `keyboard_read_line` (`src/kernel/keyboard.c`). The three numbers that
a program passes are of 64 bits and arbitrary. The editor waits for input as long as it takes:
where the input is over before the line is, its run is cut off.
-/

namespace FunnyOS.Programs

open Prog Devices

/-! ## User memory -/

/-- `(address + offset)` in 64 bits. -/
def userAddress (address offset : Nat) : Nat := (address + offset) % 2 ^ 64

/-- A byte of user memory. -/
def loadUser (address : Nat) : Foreground UInt8 := fun s =>
  .ok (s.memory address) { s with accesses := address :: s.accesses }

/-- A byte written to user memory. -/
def storeUser (address : Nat) (value : UInt8) : Foreground Unit :=
  modify fun s => { s with
    memory := Function.update s.memory address value
    accesses := address :: s.accesses }

/-- A call of the console. -/
def callConsole (call : ConsoleCall) : Foreground Unit :=
  modify fun s => { s with output := call :: s.output }

/-- `console_write_n`, from the index `i` on. -/
def consoleWriteFrom (text : Nat) (i : Nat) : Nat → Foreground Unit
  | 0 => pure ()
  | count + 1 => do
    let c ← loadUser (userAddress text i)
    callConsole (.writeChar c)
    consoleWriteFrom text (i + 1) count

/-- `console_write_n`. -/
def consoleWriteN (text count : Nat) : Foreground Unit := consoleWriteFrom text 0 count

/-- The input is over, and `keyboard_read_line` goes on to wait. -/
def awaitInput {α : Type} : Foreground α := fun s => .timeout s

/-- The loop of `keyboard_read_line`, with `len`. -/
def readLineFrom (buffer capacity : Nat) : List KeyEvent → Nat → Foreground Nat
  | [], _ => awaitInput
  | event :: rest, len =>
    match event.char with
    | none => readLineFrom buffer capacity rest len
    | some c =>
      if c = backspace then
        if len ≠ 0 then do
          storeUser (userAddress buffer (len - 1)) 0
          callConsole .backspace
          readLineFrom buffer capacity rest (len - 1)
        else readLineFrom buffer capacity rest len
      else if c = newline then do
        storeUser (userAddress buffer len) 0
        callConsole (.writeChar newline)
        pure len
      else if (len + 1) % 2 ^ 64 ≥ capacity then readLineFrom buffer capacity rest len
      else do
        storeUser (userAddress buffer len) c
        storeUser (userAddress buffer (len + 1)) 0
        callConsole (.writeChar c)
        readLineFrom buffer capacity rest (len + 1)

/-- `keyboard_read_line`. -/
def keyboardReadLine (events : List KeyEvent) (buffer capacity : Nat) : Foreground Nat :=
  if capacity = 0 then pure 0 else readLineFrom buffer capacity events 0

/-! ## The calls -/

/-- `TrapFrame`, the registers that a system call uses. -/
structure TrapFrame where
  rax : UInt64
  rdi : UInt64
  rsi : UInt64
deriving DecidableEq, Repr

/-- `PROGRAM_SYSCALL_EXIT`. -/
abbrev programSyscallExit : UInt32 := 0

/-- `PROGRAM_SYSCALL_WRITE`. -/
abbrev programSyscallWrite : UInt32 := 1

/-- `PROGRAM_SYSCALL_READ_LINE`. -/
abbrev programSyscallReadLine : UInt32 := 2

/-- `process_range_contains`. -/
def processRangeContains (base size ptr length : Nat) : Bool :=
  if length = 0 then true
  else if ptr < base then false
  else
    let offset := ptr - base
    if offset > size then false else length ≤ size - offset

/-- `process_user_range_valid`. -/
def processUserRangeValid (space : ProcessAddressSpace) (ptr length : Nat) : Bool :=
  processRangeContains space.imageBase space.imageCapacity ptr length ||
    processRangeContains space.stackBase space.stackSize ptr length

/-- `process_finish_exit`. -/
def processFinishExit (status : UInt32) : Foreground Unit :=
  modify fun s => { s with
    exitRequested := true
    exitStatus := status
    process.state := .exited }

/-- `process_handle_syscall`: whether there was a process, and the registers that it goes on with. -/
def processHandleSyscall (events : List KeyEvent) (frame : TrapFrame) :
    Foreground (Bool × TrapFrame) := do
  let s ← get
  let space := s.process.addressSpace
  let ptr := frame.rdi.toNat
  let length := frame.rsi.toNat
  if !s.active then pure (false, frame)
  else if frame.rax.toUInt32 = programSyscallExit then do
    processFinishExit frame.rdi.toUInt32
    pure (true, { frame with rax := 1 })
  else if frame.rax.toUInt32 = programSyscallWrite then
    if !processUserRangeValid space ptr length then pure (true, { frame with rax := 0 })
    else do
      consoleWriteN ptr length
      pure (true, { frame with rax := frame.rsi })
  else if frame.rax.toUInt32 = programSyscallReadLine then
    if frame.rsi = 0 then pure (true, { frame with rax := 0 })
    else if !processUserRangeValid space ptr length then pure (true, { frame with rax := 0 })
    else do
      let len ← keyboardReadLine events ptr length
      pure (true, { frame with rax := .ofNat len })
  else pure (true, { frame with rax := 0 })

/-- `process_handle_fault`, for a fault of the program. -/
def processHandleFault (s : ForegroundState) : ForegroundState :=
  if s.active then
    { s with exitRequested := true, exitStatus := 0xFFFFFFFF, process.state := .exited }
  else s

end FunnyOS.Programs
