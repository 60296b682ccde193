import Mathlib

/-!
# The keyboard

What `src/kernel/keyboard.c` gets to see of its input, and the line that has been typed when
`keyboard_read_line` returns. The editor itself works on a buffer: that of the shell, or one of a
program.
-/

namespace FunnyOS.Devices

/-! ## Keys -/

/-- What a round of `keyboard_read_line` finds: a byte on the serial line (0 also where
`serial_read_byte` has given up), a scancode of the keyboard, or nothing. -/
inductive KeyEvent
  | serial (byte : UInt8)
  | scancode (code : UInt8)
  | idle
deriving DecidableEq, Repr

/-- `'\n'`. -/
abbrev newline : UInt8 := 0x0A

/-- `'\b'`. -/
abbrev backspace : UInt8 := 0x08

/-- The characters of the keys, each with its scancode. -/
def scancodes : List (UInt8 × UInt8) := [
  (0x02, 0x31), (0x03, 0x32), (0x04, 0x33), (0x05, 0x34), (0x06, 0x35), (0x07, 0x36),
  (0x08, 0x37), (0x09, 0x38), (0x0A, 0x39), (0x0B, 0x30), (0x0C, 0x2D), (0x0E, backspace),
  (0x10, 0x71), (0x11, 0x77), (0x12, 0x65), (0x13, 0x72), (0x14, 0x74), (0x15, 0x79),
  (0x16, 0x75), (0x17, 0x69), (0x18, 0x6F), (0x19, 0x70), (0x1C, newline), (0x1E, 0x61),
  (0x1F, 0x73), (0x20, 0x64), (0x21, 0x66), (0x22, 0x67), (0x23, 0x68), (0x24, 0x6A),
  (0x25, 0x6B), (0x26, 0x6C), (0x2C, 0x7A), (0x2D, 0x78), (0x2E, 0x63), (0x2F, 0x76),
  (0x30, 0x62), (0x31, 0x6E), (0x32, 0x6D), (0x34, 0x2E), (0x35, 0x2F), (0x39, 0x20)]

/-- `translate_scancode`; 0 for any other key. -/
def translateScancode (scancode : UInt8) : UInt8 := (scancodes.lookup scancode).getD 0

/-- The character that a round goes on with, if there is one. -/
def KeyEvent.char : KeyEvent → Option UInt8
  | serial byte =>
    let c := if byte = 0x0D then newline else if byte = 0x7F then backspace else byte
    if c = 0 then none else some c
  | scancode code =>
    if code = 0xE0 then none
    else if code &&& 0x80 ≠ 0 then none
    else if translateScancode code = 0 then none
    else some (translateScancode code)
  | idle => none

/-! ## Lines -/

/-- The line that has been typed, behind what `line` has of it so far; none while it is not
finished. A backspace takes the last character away, and what does not fit beside the 0 is
ignored. -/
def typedLine (capacity : Nat) : List KeyEvent → List UInt8 → Option (List UInt8)
  | [], _ => none
  | event :: rest, line =>
    match event.char with
    | none => typedLine capacity rest line
    | some c =>
      if c = backspace then typedLine capacity rest line.dropLast
      else if c = newline then some line
      else if line.length + 1 < capacity then typedLine capacity rest (line ++ [c])
      else typedLine capacity rest line

section

variable {event : KeyEvent} {events : List KeyEvent} {c : UInt8} {line typed : List UInt8}
  {capacity : Nat}

/-- No character of the editor is 0. -/
theorem KeyEvent.char_ne_zero (h : event.char = some c) : c ≠ 0 := by
  cases event with
  | serial byte =>
    simp only [KeyEvent.char] at h
    split_ifs at h <;> simp_all
  | scancode code =>
    simp only [KeyEvent.char] at h
    split_ifs at h with _ _ hzero
    rw [← Option.some.inj h]
    exact hzero
  | idle => cases h

theorem translateScancode_ne_return (code : UInt8) : translateScancode code ≠ 0x0D := by
  unfold translateScancode
  cases hlookup : scancodes.lookup code with
  | none => decide
  | some c =>
    obtain ⟨before, after, heq, _⟩ := List.lookup_eq_some_iff.1 hlookup
    have hmem : (code, c) ∈ scancodes := by
      rw [heq]
      exact List.mem_append_right _ List.mem_cons_self
    have hkeys : ∀ key ∈ scancodes, key.2 ≠ 0x0D := by
      simp [scancodes, backspace, newline]
    exact hkeys _ hmem

/-- No character of the editor is a carriage return. -/
theorem KeyEvent.char_ne_return (h : event.char = some c) : c ≠ 0x0D := by
  cases event with
  | serial byte =>
    simp only [KeyEvent.char] at h
    split_ifs at h with hreturn _ hdelete
    · rw [← Option.some.inj h]
      decide
    · rw [← Option.some.inj h]
      decide
    · rw [← Option.some.inj h]
      exact hreturn
  | scancode code =>
    simp only [KeyEvent.char] at h
    split_ifs at h
    rw [← Option.some.inj h]
    exact translateScancode_ne_return code
  | idle => cases h

/-- A line fits its buffer. -/
theorem length_typedLine (h : typedLine capacity events line = some typed)
    (hfits : line.length < capacity) : typed.length < capacity := by
  induction events generalizing line with
  | nil => cases h
  | cons event rest ih =>
    rw [typedLine] at h
    cases hchar : event.char with
    | none =>
      rw [hchar] at h
      exact ih h hfits
    | some c =>
      rw [hchar] at h
      dsimp only at h
      split_ifs at h with hback hnewline hroom
      · refine ih h ?_
        rw [List.length_dropLast]
        omega
      · rw [← Option.some.inj h]
        exact hfits
      · refine ih h ?_
        rw [List.length_append]
        exact hroom
      · exact ih h hfits

end

end FunnyOS.Devices
