import Mathlib

/-!
# Kernel string helpers

Strings in memory and the character functions of `src/kernel/kstring.c`. The copying and comparing
functions of that file are the list operations of Lean.
-/

namespace FunnyOS

/-- A C string: the characters before the one that is 0. -/
structure CString where
  chars : List UInt8
  noNul : ∀ c ∈ chars, c ≠ 0

/-- The string with the given characters begins at an address of the memory. -/
structure StringAt (memory : Nat → UInt8) (address : Nat) (chars : List UInt8) : Prop where
  char : ∀ i (h : i < chars.length), memory (address + i) = chars[i]
  nul : memory (address + chars.length) = 0
  noNul : ∀ c ∈ chars, c ≠ 0

/-- `k_toupper`. -/
def kToupper (c : UInt8) : UInt8 := if 0x61 ≤ c ∧ c ≤ 0x7A then c - 0x20 else c

/-- `k_is_space`. -/
def kIsSpace (c : UInt8) : Bool := c == 0x20 || c == 0x09 || c == 0x0D || c == 0x0A

end FunnyOS
