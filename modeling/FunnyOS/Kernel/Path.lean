import FunnyOS.Kernel.KString
import FunnyOS.Lib.Ends

/-!
# Path normalisation

`src/kernel/path.c`. The output buffer is edited in place: a component is written behind what the
buffer holds, and the start of each component is kept, so that `..` cuts the text off there. Lengths
and positions have 32 bits. A store behind the capacity is undefined behaviour, and `return false`
is an error outcome here.
-/

namespace FunnyOS.Paths

open Prog

/-- `PATH_CAPACITY`. -/
abbrev pathCapacity : Nat := 128

/-- The slash. -/
abbrev slash : UInt8 := 0x2F

/-- The dot. -/
abbrev dot : UInt8 := 0x2E

/-- The output buffer, the position in it, and the starts of the components. -/
structure PathState where
  out : Nat → UInt8
  pos : Nat
  starts : Nat → Nat
  count : Nat

/-- A step of the normalisation. -/
abbrev PathStep (α : Type) : Type := Prog PathState Unit α

/-- `out[index] = c`, in a buffer of the given capacity. -/
def storeOut (capacity index : Nat) (c : UInt8) : PathStep Unit := fun s =>
  if index < capacity then .ok () { s with out := Function.update s.out index c }
  else .fault s

/-- `out[(*pos)++] = c`. -/
def appendOut (capacity : Nat) (c : UInt8) : PathStep Unit := do
  let s ← get
  storeOut capacity s.pos c
  modify fun s => { s with pos := s.pos + 1 }

/-- The loop that copies a component. -/
def appendComponent (capacity : Nat) : List UInt8 → PathStep Unit
  | [] => pure ()
  | c :: rest => do
    appendOut capacity (kToupper c)
    appendComponent capacity rest

/-- `starts[*count] = *pos`. -/
def storeStart : PathStep Unit := fun s =>
  if s.count < pathCapacity then
    .ok () { s with starts := Function.update s.starts s.count s.pos }
  else .fault s

/-- The slash before a component, which the root has already. -/
def pushSlash (capacity : Nat) : PathStep Unit := do
  let s ← get
  if s.pos = 1 then pure ()
  else if (s.pos + 1) % 2 ^ 32 ≥ capacity then raise ()
  else appendOut capacity slash

/-- `push_component`. -/
def pushComponent (capacity : Nat) (start : List UInt8) (len : Nat) : PathStep Unit := do
  let s ← get
  if len = 0 ∨ s.count ≥ pathCapacity then raise ()
  else do
    pushSlash capacity
    let s ← get
    if (s.pos + len) % 2 ^ 32 ≥ capacity then raise ()
    else do
      storeStart
      appendComponent capacity (start.take len)
      let s ← get
      storeOut capacity s.pos 0
      modify fun s => { s with count := s.count + 1 }

/-- `pop_component`. -/
def popComponent (capacity : Nat) : PathStep Unit := do
  let s ← get
  if s.count = 0 then do
    modify fun s => { s with pos := 1 }
    storeOut capacity 1 0
  else do
    let start := s.starts (s.count - 1)
    let pos := if start > 1 then start - 1 else 1
    modify fun s => { s with count := s.count - 1, pos := pos }
    storeOut capacity pos 0

/-- What `absorb_path` does with a component of the given length. -/
def applyComponent (capacity : Nat) (cursor : List UInt8) (len : Nat) : PathStep Unit :=
  if len = 1 ∧ cursor.getD 0 0 = dot then pure ()
  else if len = 2 ∧ cursor.getD 0 0 = dot ∧ cursor.getD 1 0 = dot then popComponent capacity
  else pushComponent capacity cursor len

/-- A round of the loop of `absorb_path`. The length of a component is counted in 32 bits. -/
def absorbComponent (capacity : Nat) (cursor : List UInt8) :
    PathStep (LoopStep (List UInt8) Unit) :=
  if cursor = [] then pure (.done ())
  else do
    applyComponent capacity cursor ((cursor.takeWhile (· != slash)).length % 2 ^ 32)
    pure (.again ((cursor.dropWhile (· != slash)).dropWhile (· == slash)))

/-- `absorb_path`. -/
def absorbPath (capacity : Nat) (path : List UInt8) : PathStep Unit :=
  loop (absorbComponent capacity) (path.length + 1) (path.dropWhile (· == slash))

/-- `path_normalize`, with the buffer `out`. -/
def pathNormalize (cwd input : Option CString) (capacity : Nat) : PathStep Unit :=
  match cwd, input with
  | some cwd, some input =>
    if capacity < 2 then raise ()
    else do
      modify fun s => { s with pos := 1, count := 0 }
      storeOut capacity 0 slash
      storeOut capacity 1 0
      if input.chars.head? ≠ some slash then absorbPath capacity cwd.chars
      absorbPath capacity input.chars
      let s ← get
      storeOut capacity s.pos 0
  | _, _ => raise ()

end FunnyOS.Paths
