import FunnyOS.Kernel.KString
import FunnyOS.Memory.PagingInit
import FunnyOS.Programs.ProcessRun

/-!
# What a system call does to user memory

`process_handle_syscall` for any three numbers, whatever the keyboard and the serial line deliver.
The range test accepts what lies in the image or in the stack and nothing else, these are mapped for
as long as the process is active, and the line editor leaves the typed line in the range.
-/

namespace FunnyOS.Programs

open Prog Devices
open Memory (Kernel translate)

/-! ## Ranges -/

/-- The addresses of the image. -/
def ProcessAddressSpace.image (space : ProcessAddressSpace) : Set Nat :=
  Set.Ico space.imageBase (space.imageBase + space.imageCapacity)

/-- The addresses of the stack. -/
def ProcessAddressSpace.stack (space : ProcessAddressSpace) : Set Nat :=
  Set.Ico space.stackBase (space.stackBase + space.stackSize)

/-- The addresses that a system call passes. They do not wrap here. -/
def TrapFrame.range (frame : TrapFrame) : Set Nat :=
  Set.Ico frame.rdi.toNat (frame.rdi.toNat + frame.rsi.toNat)

/-- A range begins and ends in the image, or in the stack. -/
def Inside (space : ProcessAddressSpace) (ptr length : Nat) : Prop :=
  (space.imageBase ≤ ptr ∧ ptr + length ≤ space.imageBase + space.imageCapacity) ∨
    (space.stackBase ≤ ptr ∧ ptr + length ≤ space.stackBase + space.stackSize)

section

variable {base size ptr length : Nat} {space : ProcessAddressSpace}

/-- The test of `process_range_contains` does not wrap. -/
theorem processRangeContains_iff : processRangeContains base size ptr length = true ↔
    length = 0 ∨ base ≤ ptr ∧ ptr + length ≤ base + size := by
  unfold processRangeContains
  by_cases hzero : length = 0
  · rw [if_pos hzero]
    exact iff_of_true rfl (.inl hzero)
  rw [if_neg hzero]
  by_cases hbelow : ptr < base
  · rw [if_pos hbelow]
    exact iff_of_false Bool.false_ne_true (by omega)
  rw [if_neg hbelow]
  by_cases hbehind : ptr - base > size
  · simp only [if_pos hbehind]
    exact iff_of_false Bool.false_ne_true (by omega)
  · simp only [if_neg hbehind]
    rw [decide_eq_true_iff]
    omega

theorem processUserRangeValid_iff :
    processUserRangeValid space ptr length = true ↔ length = 0 ∨ Inside space ptr length := by
  rw [processUserRangeValid, Bool.or_eq_true, processRangeContains_iff, processRangeContains_iff,
    Inside]
  tauto

theorem Inside.subset (h : Inside space ptr length) :
    Set.Ico ptr (ptr + length) ⊆ space.image ∨ Set.Ico ptr (ptr + length) ⊆ space.stack := by
  rcases h with ⟨hbase, hlimit⟩ | ⟨hbase, hlimit⟩
  · exact .inl (Set.Ico_subset_Ico hbase hlimit)
  · exact .inr (Set.Ico_subset_Ico hbase hlimit)

/-- What the loader places ends where addresses still have 48 bits. -/
theorem Inside.limit_lt (h : Inside space ptr length) (hplaced : Placed space) :
    ptr + length < 2 ^ 64 := by
  obtain ⟨himage, hstack, -⟩ := hplaced.ends
  rcases h with ⟨-, hlimit⟩ | ⟨-, hlimit⟩ <;> omega

end

/-! ## Steps that use a range -/

/-- A step whose system call has used addresses of `range` alone, and changed memory there alone. -/
structure Uses (range : Set Nat) (s s' : ForegroundState) : Prop where
  accesses : ∃ used, s'.accesses = used ++ s.accesses ∧ ∀ a ∈ used, a ∈ range
  memory : ∀ a ∉ range, s'.memory a = s.memory a

section

variable {range range' : Set Nat} {s s' s'' : ForegroundState} {buffer capacity : Nat}
  {typed : List UInt8} {c : UInt8} {event : KeyEvent} {events : List KeyEvent}

theorem Uses.refl : Uses range s s :=
  ⟨⟨[], rfl, fun _ h => absurd h List.not_mem_nil⟩, fun _ _ => rfl⟩

theorem Uses.trans (h : Uses range s s') (h' : Uses range s' s'') : Uses range s s'' := by
  obtain ⟨used, haccesses, hused⟩ := h.accesses
  obtain ⟨used', haccesses', hused'⟩ := h'.accesses
  refine ⟨⟨used' ++ used, ?_, fun a ha => ?_⟩, fun a ha => (h'.memory a ha).trans (h.memory a ha)⟩
  · rw [haccesses', haccesses, List.append_assoc]
  · rcases List.mem_append.1 ha with hnew | hold
    · exact hused' a hnew
    · exact hused a hold

/-- `console_write_n` reads its text and prints it. -/
theorem consoleWriteFrom_eq {text i count : Nat} (h : text + i + count ≤ 2 ^ 64) :
    consoleWriteFrom text i count s = .ok () { s with
      accesses := (List.range' (text + i) count).reverse ++ s.accesses
      output := ((List.range' (text + i) count).map fun a =>
        ConsoleCall.writeChar (s.memory a)).reverse ++ s.output } := by
  induction count generalizing i s with
  | zero => rfl
  | succ count ih =>
    have haddress : userAddress text i = text + i := Nat.mod_eq_of_lt (by omega)
    change consoleWriteFrom text (i + 1) count { s with
      accesses := userAddress text i :: s.accesses
      output := .writeChar (s.memory (userAddress text i)) :: s.output } = _
    rw [ih (by omega), haddress, List.range'_succ, List.map_cons, List.reverse_cons,
      List.reverse_cons, List.append_assoc, List.append_assoc]
    rfl

theorem consoleWriteN_uses {text count : Nat} (h : text + count ≤ 2 ^ 64) :
    ∃ s', consoleWriteN text count s = .ok () s' ∧ Uses (Set.Ico text (text + count)) s s' := by
  refine ⟨_, consoleWriteFrom_eq h, ⟨_, rfl, fun a ha => ?_⟩, fun _ _ => rfl⟩
  rw [List.mem_reverse, List.mem_range'_1] at ha
  exact ha

/-! ## The line editor -/

/-- The buffer while a line is typed into it. -/
structure Editing (buffer capacity : Nat) (start : ForegroundState) (typed : List UInt8)
    (s : ForegroundState) : Prop where
  uses : Uses (Set.Ico buffer (buffer + capacity)) start s
  chars : ∀ i (h : i < typed.length), s.memory (buffer + i) = typed[i]
  noNul : ∀ c ∈ typed, c ≠ 0
  fits : typed.length < capacity

/-- How the line editor ends: with the line, or waiting for the rest of it. -/
def LineRead (buffer capacity : Nat) (start : ForegroundState) (typed : Option (List UInt8)) :
    Outcome ForegroundState Unit Nat → Prop
  | .ok n s' => Uses (Set.Ico buffer (buffer + capacity)) start s' ∧
      ∃ chars, typed = some chars ∧ n = chars.length ∧ n < capacity ∧
        StringAt s'.memory buffer chars
  | .timeout s' => typed = none ∧ Uses (Set.Ico buffer (buffer + capacity)) start s'
  | _ => False

/-- A byte is stored behind a part of the line. -/
theorem Editing.store {count : Nat} (h : Editing buffer capacity s typed s')
    (hcount : count ≤ typed.length) (value : UInt8) (output : List ConsoleCall) :
    Editing buffer capacity s (typed.take count) { s' with
      memory := Function.update s'.memory (buffer + count) value
      accesses := (buffer + count) :: s'.accesses
      output := output } := by
  have hfits := h.fits
  have hmem : buffer + count ∈ Set.Ico buffer (buffer + capacity) := ⟨by omega, by omega⟩
  constructor
  · refine h.uses.trans ⟨⟨[buffer + count], rfl, fun a ha => ?_⟩, fun a ha => ?_⟩
    · rw [List.mem_singleton.1 ha]
      exact hmem
    · exact Function.update_of_ne (ne_of_mem_of_not_mem hmem ha).symm _ _
  · intro i hi
    rw [List.length_take] at hi
    rw [List.getElem_take]
    exact (Function.update_of_ne (by omega) _ _).trans (h.chars i (by omega))
  · exact fun c hc => h.noNul c (List.mem_of_mem_take hc)
  · rw [List.length_take]
    omega

/-- Where the 0 stands behind the line, it is a string. -/
theorem Editing.string (h : Editing buffer capacity s typed s')
    (hnul : s'.memory (buffer + typed.length) = 0) : StringAt s'.memory buffer typed :=
  ⟨h.chars, hnul, h.noNul⟩

/-- A character is added to the line where it still fits. -/
theorem Editing.type (h : Editing buffer capacity s typed s') (hc : c ≠ 0)
    (hfits : typed.length + 1 < capacity) (output : List ConsoleCall) :
    Editing buffer capacity s (typed ++ [c]) { s' with
      memory := Function.update (Function.update s'.memory (buffer + typed.length) c)
        (buffer + (typed.length + 1)) 0
      accesses := (buffer + (typed.length + 1)) :: (buffer + typed.length) :: s'.accesses
      output := output } := by
  have hrange : ∀ i ≤ typed.length + 1, buffer + i ∈ Set.Ico buffer (buffer + capacity) :=
    fun i hi => ⟨by omega, by omega⟩
  constructor
  · refine h.uses.trans ⟨⟨[buffer + (typed.length + 1), buffer + typed.length], rfl, ?_⟩, ?_⟩
    · intro a ha
      rcases List.mem_pair.1 ha with rfl | rfl
      · exact hrange _ le_rfl
      · exact hrange _ (by omega)
    · intro a ha
      exact (Function.update_of_ne (ne_of_mem_of_not_mem (hrange _ le_rfl) ha).symm _ _).trans
        (Function.update_of_ne (ne_of_mem_of_not_mem (hrange _ (by omega)) ha).symm _ _)
  · intro i hi
    rw [List.length_append, List.length_singleton] at hi
    refine (Function.update_of_ne (by omega) _ _).trans ?_
    by_cases hlast : i = typed.length
    · subst hlast
      rw [Function.update_self, List.getElem_concat_length rfl]
    · rw [Function.update_of_ne (by omega), List.getElem_append_left (by omega)]
      exact h.chars i (by omega)
  · intro c' hc'
    rcases List.mem_append.1 hc' with hold | hnew
    · exact h.noNul c' hold
    · rw [List.mem_singleton.1 hnew]
      exact hc
  · rw [List.length_append, List.length_singleton]
    exact hfits

/-- The loop of `keyboard_read_line`, by induction on what it is given. -/
theorem readLineFrom_read (h : Editing buffer capacity s typed s')
    (hlimit : buffer + capacity < 2 ^ 64) :
    LineRead buffer capacity s (typedLine capacity events typed)
      (readLineFrom buffer capacity events typed.length s') := by
  have haddress : ∀ i, i < capacity → userAddress buffer i = buffer + i :=
    fun i hi => Nat.mod_eq_of_lt (by omega)
  induction events generalizing typed s' with
  | nil => exact ⟨rfl, h.uses⟩
  | cons event rest ih =>
    have hfits := h.fits
    unfold typedLine readLineFrom
    cases hchar : event.char with
    | none => exact ih h
    | some c =>
      by_cases hback : c = backspace
      · simp only [if_pos hback]
        by_cases hsome : typed.length ≠ 0
        · rw [if_pos hsome, haddress _ (by omega), List.dropLast_eq_take]
          have hlen : typed.length - 1 = (typed.take (typed.length - 1)).length := by
            rw [List.length_take]
            omega
          have hnext := ih (h.store (Nat.sub_le typed.length 1) 0 (.backspace :: s'.output))
          rw [← hlen] at hnext
          exact hnext
        · rw [if_neg hsome]
          have hempty : typed = [] := List.length_eq_zero_iff.1 (not_not.1 hsome)
          subst hempty
          exact ih h
      simp only [if_neg hback]
      by_cases hnewline : c = newline
      · simp only [if_pos hnewline]
        rw [haddress _ hfits]
        have hdone := h.store le_rfl 0 (.writeChar newline :: s'.output)
        rw [List.take_length] at hdone
        exact ⟨hdone.uses, typed, rfl, rfl, hfits, hdone.string (Function.update_self ..)⟩
      simp only [if_neg hnewline]
      rw [Nat.mod_eq_of_lt (show typed.length + 1 < 2 ^ 64 by omega)]
      by_cases hfull : typed.length + 1 ≥ capacity
      · rw [if_pos hfull, if_neg (by omega)]
        exact ih h
      · rw [if_neg hfull, if_pos (by omega), haddress _ hfits, haddress _ (by omega)]
        have hnext := ih (h.type (KeyEvent.char_ne_zero hchar) (by omega)
          (.writeChar c :: s'.output))
        rw [List.length_append, List.length_singleton] at hnext
        exact hnext

/-- `keyboard_read_line`. -/
theorem keyboardReadLine_read (events : List KeyEvent) (hne : capacity ≠ 0)
    (hlimit : buffer + capacity < 2 ^ 64) :
    LineRead buffer capacity s (typedLine capacity events [])
      (keyboardReadLine events buffer capacity s) := by
  have hstart : Editing buffer capacity s [] s :=
    ⟨.refl, fun i hi => absurd hi (Nat.not_lt_zero i), fun c hc => absurd hc List.not_mem_nil,
      Nat.pos_of_ne_zero hne⟩
  unfold keyboardReadLine
  rw [if_neg hne]
  exact readLineFrom_read hstart hlimit

theorem Uses.mono (h : Uses range s s') (hsub : range ⊆ range') : Uses range' s s' := by
  obtain ⟨used, haccesses, hused⟩ := h.accesses
  exact ⟨⟨used, haccesses, fun a ha => hsub (hused a ha)⟩, fun a ha => h.memory a fun hin =>
    ha (hsub hin)⟩

end

/-! ## The system calls -/

section

variable {m : ForegroundState} {events : List KeyEvent} {frame : TrapFrame}

/-- The page table of the process lets its program read and write the address. -/
def UserMapped (m : ForegroundState) (a : Nat) : Prop :=
  ∃ phys executable, translate m.kernel.tables m.pages.pageTableRoot a =
    some ⟨phys, true, true, executable⟩

theorem Mapped.userMapped (h : Mapped m) {a : Nat}
    (ha : a ∈ m.process.addressSpace.image ∪ m.process.addressSpace.stack) : UserMapped m a := by
  rcases ha with ⟨hbase, hlimit⟩ | ⟨hbase, hlimit⟩
  · have hmapped := h.image (a - m.process.addressSpace.imageBase) (by omega)
    rw [Nat.add_sub_cancel' hbase] at hmapped
    exact ⟨_, _, hmapped⟩
  · have hmapped := h.stack (a - m.process.addressSpace.stackBase) (by omega)
    rw [Nat.add_sub_cancel' hbase] at hmapped
    exact ⟨_, _, hmapped⟩

/-- What a system call does to the memory of the process `m`, and what it answers. -/
structure Confined (m : ForegroundState) (events : List KeyEvent) (frame : TrapFrame) : Prop where
  mapped : ∀ a ∈ m.process.addressSpace.image ∪ m.process.addressSpace.stack, UserMapped m a
  uses : Uses (frame.range ∩ (m.process.addressSpace.image ∪ m.process.addressSpace.stack)) m
    (processHandleSyscall events frame m).state
  outside : frame.rax.toUInt32 = programSyscallWrite ∨ frame.rax.toUInt32 = programSyscallReadLine →
    ¬ Inside m.process.addressSpace frame.rdi.toNat frame.rsi.toNat ∨
      2 ^ 64 ≤ frame.rdi.toNat + frame.rsi.toNat →
    processHandleSyscall events frame m = .ok (true, { frame with rax := 0 }) m
  line : frame.rax.toUInt32 = programSyscallReadLine → frame.rsi ≠ 0 →
    Inside m.process.addressSpace frame.rdi.toNat frame.rsi.toNat →
    ∀ chars, typedLine frame.rsi.toNat events [] = some chars →
      ∃ rax m', processHandleSyscall events frame m = .ok (true, { frame with rax := rax }) m' ∧
        rax.toNat = chars.length ∧ chars.length + 1 ≤ frame.rsi.toNat ∧
        StringAt m'.memory frame.rdi.toNat chars
  waits : frame.rax.toUInt32 = programSyscallReadLine → frame.rsi ≠ 0 →
    Inside m.process.addressSpace frame.rdi.toNat frame.rsi.toNat →
    typedLine frame.rsi.toNat events [] = none →
    ∃ m', processHandleSyscall events frame m = .timeout m'

theorem processHandleSyscall_exit (hactive : m.active = true)
    (hrax : frame.rax.toUInt32 = programSyscallExit) :
    processHandleSyscall events frame m =
      (do
        processFinishExit frame.rdi.toUInt32
        pure (true, { frame with rax := 1 }) : Foreground (Bool × TrapFrame)) m := by
  unfold processHandleSyscall
  rw [bind_of_ok (show Prog.get m = .ok m m from rfl)]
  simp only [hactive, hrax, Bool.not_true, Bool.false_eq_true, if_false, if_true]

theorem processHandleSyscall_write (hactive : m.active = true)
    (hrax : frame.rax.toUInt32 = programSyscallWrite) :
    processHandleSyscall events frame m =
      (if !processUserRangeValid m.process.addressSpace frame.rdi.toNat frame.rsi.toNat then
        pure (true, { frame with rax := 0 })
      else do
        consoleWriteN frame.rdi.toNat frame.rsi.toNat
        pure (true, { frame with rax := frame.rsi }) : Foreground (Bool × TrapFrame)) m := by
  have hexit : ¬ programSyscallWrite = programSyscallExit := by decide
  unfold processHandleSyscall
  rw [bind_of_ok (show Prog.get m = .ok m m from rfl)]
  simp only [hactive, hrax, Bool.not_true, Bool.false_eq_true, if_false, if_true, if_neg hexit]

theorem processHandleSyscall_readLine (hactive : m.active = true)
    (hrax : frame.rax.toUInt32 = programSyscallReadLine) :
    processHandleSyscall events frame m =
      (if frame.rsi = 0 then pure (true, { frame with rax := 0 })
      else if !processUserRangeValid m.process.addressSpace frame.rdi.toNat frame.rsi.toNat then
        pure (true, { frame with rax := 0 })
      else do
        let len ← keyboardReadLine events frame.rdi.toNat frame.rsi.toNat
        pure (true, { frame with rax := .ofNat len }) : Foreground (Bool × TrapFrame)) m := by
  have hexit : ¬ programSyscallReadLine = programSyscallExit := by decide
  have hwrite : ¬ programSyscallReadLine = programSyscallWrite := by decide
  unfold processHandleSyscall
  rw [bind_of_ok (show Prog.get m = .ok m m from rfl)]
  simp only [hactive, hrax, Bool.not_true, Bool.false_eq_true, if_false, if_true, if_neg hexit,
    if_neg hwrite]

theorem processHandleSyscall_other (hactive : m.active = true)
    (hexit : frame.rax.toUInt32 ≠ programSyscallExit)
    (hwrite : frame.rax.toUInt32 ≠ programSyscallWrite)
    (hread : frame.rax.toUInt32 ≠ programSyscallReadLine) :
    processHandleSyscall events frame m = .ok (true, { frame with rax := 0 }) m := by
  unfold processHandleSyscall
  rw [bind_of_ok (show Prog.get m = .ok m m from rfl)]
  simp only [hactive, Bool.not_true, Bool.false_eq_true, if_false, if_neg hexit, if_neg hwrite,
    if_neg hread]
  rfl

/-- A range that the test does not accept, or that is empty. -/
theorem processHandleSyscall_refused (hactive : m.active = true)
    (hrax : frame.rax.toUInt32 = programSyscallWrite ∨
      frame.rax.toUInt32 = programSyscallReadLine)
    (hnot : frame.rsi = 0 ∨ ¬ Inside m.process.addressSpace frame.rdi.toNat frame.rsi.toNat) :
    processHandleSyscall events frame m = .ok (true, { frame with rax := 0 }) m := by
  by_cases hzero : frame.rsi = 0
  · have hvalid : processUserRangeValid m.process.addressSpace frame.rdi.toNat
        frame.rsi.toNat = true := by
      rw [hzero]
      exact processUserRangeValid_iff.2 (.inl rfl)
    rcases hrax with hwrite | hread
    · rw [processHandleSyscall_write hactive hwrite, hvalid, if_neg (by decide), hzero]
      rfl
    · rw [processHandleSyscall_readLine hactive hread, if_pos hzero]
      rfl
  · have houtside := hnot.resolve_left hzero
    have hlength : frame.rsi.toNat ≠ 0 := fun h => hzero (UInt64.toNat_inj.1 h)
    have hinvalid : processUserRangeValid m.process.addressSpace frame.rdi.toNat
        frame.rsi.toNat = false := by
      rw [Bool.eq_false_iff, Ne, processUserRangeValid_iff]
      exact not_or.2 ⟨hlength, houtside⟩
    rcases hrax with hwrite | hread
    · rw [processHandleSyscall_write hactive hwrite, hinvalid, if_pos (by decide)]
      rfl
    · rw [processHandleSyscall_readLine hactive hread, if_neg hzero, hinvalid, if_pos (by decide)]
      rfl

/-- `PROGRAM_SYSCALL_WRITE` with a range that the test accepts. -/
theorem processHandleSyscall_wrote (events : List KeyEvent) (hactive : m.active = true)
    (hrax : frame.rax.toUInt32 = programSyscallWrite)
    (hinside : Inside m.process.addressSpace frame.rdi.toNat frame.rsi.toNat)
    (hlimit : frame.rdi.toNat + frame.rsi.toNat < 2 ^ 64) :
    ∃ m', processHandleSyscall events frame m = .ok (true, { frame with rax := frame.rsi }) m' ∧
      Uses frame.range m m' := by
  obtain ⟨m', hrun, huses⟩ := consoleWriteN_uses (s := m) hlimit.le
  refine ⟨m', ?_, huses⟩
  rw [processHandleSyscall_write hactive hrax, processUserRangeValid_iff.2 (.inr hinside),
    if_neg (by decide), bind_of_ok hrun]
  rfl

/-- `PROGRAM_SYSCALL_READ_LINE` with a range that the test accepts: the line has been typed, or the
process waits for the rest of it. -/
theorem processHandleSyscall_read (events : List KeyEvent) (hactive : m.active = true)
    (hrax : frame.rax.toUInt32 = programSyscallReadLine) (hne : frame.rsi ≠ 0)
    (hinside : Inside m.process.addressSpace frame.rdi.toNat frame.rsi.toNat)
    (hlimit : frame.rdi.toNat + frame.rsi.toNat < 2 ^ 64) :
    (∃ chars rax m', typedLine frame.rsi.toNat events [] = some chars ∧
      processHandleSyscall events frame m = .ok (true, { frame with rax := rax }) m' ∧
      rax.toNat = chars.length ∧ chars.length + 1 ≤ frame.rsi.toNat ∧
      StringAt m'.memory frame.rdi.toNat chars ∧ Uses frame.range m m') ∨
    ∃ m', typedLine frame.rsi.toNat events [] = none ∧
      processHandleSyscall events frame m = .timeout m' ∧ Uses frame.range m m' := by
  have hlength : frame.rsi.toNat ≠ 0 := fun h => hne (UInt64.toNat_inj.1 h)
  have hread := keyboardReadLine_read (s := m) events hlength hlimit
  rw [processHandleSyscall_readLine hactive hrax, if_neg hne,
    processUserRangeValid_iff.2 (.inr hinside), if_neg (by decide)]
  change _ ∨ ∃ m', _ ∧ Prog.bind _ _ m = _ ∧ _
  cases hrun : keyboardReadLine events frame.rdi.toNat frame.rsi.toNat m with
  | ok n m' =>
    rw [hrun] at hread
    obtain ⟨huses, chars, htyped, hn, hfits, hstring⟩ := hread
    refine .inl ⟨chars, .ofNat n, m', htyped, ?_, ?_, ?_, hstring, huses⟩
    · rw [bind_of_ok hrun]
      rfl
    · rw [UInt64.toNat_ofNat_of_lt' (show n < 2 ^ 64 by omega)]
      exact hn
    · omega
  | timeout m' =>
    rw [hrun] at hread
    obtain ⟨htyped, huses⟩ := hread
    refine .inr ⟨m', htyped, ?_, huses⟩
    rw [Prog.bind, hrun]
  | _ =>
    rw [hrun] at hread
    exact hread.elim

/-- A system call of an active process uses memory of its image or of its stack alone, in the range
that it has been passed. What it reads from the keyboard is a string there. -/
theorem processHandleSyscall_confined (h : ActiveProcess m) (events : List KeyEvent)
    (frame : TrapFrame) : Confined m events frame := by
  obtain ⟨others, hrunning⟩ := h.running
  have hactive := hrunning.active
  have hplaced := hrunning.mapped.placed
  have huses : ∀ {m'}, Inside m.process.addressSpace frame.rdi.toNat frame.rsi.toNat →
      Uses frame.range m m' →
      Uses (frame.range ∩ (m.process.addressSpace.image ∪ m.process.addressSpace.stack)) m m' := by
    intro m' hinside hm'
    refine hm'.mono fun a ha => ⟨ha, ?_⟩
    rcases hinside.subset with himage | hstack
    · exact .inl (himage ha)
    · exact .inr (hstack ha)
  constructor
  · exact fun a ha => hrunning.mapped.userMapped ha
  · by_cases hcall : frame.rax.toUInt32 = programSyscallWrite ∨
        frame.rax.toUInt32 = programSyscallReadLine
    · by_cases hrefused : frame.rsi = 0 ∨
          ¬ Inside m.process.addressSpace frame.rdi.toNat frame.rsi.toNat
      · rw [processHandleSyscall_refused hactive hcall hrefused]
        exact .refl
      obtain ⟨hne, hinside⟩ := not_or.1 hrefused
      have hin := not_not.1 hinside
      rcases hcall with hwrite | hread
      · obtain ⟨m', hrun, hm'⟩ := processHandleSyscall_wrote events hactive hwrite hin
          (hin.limit_lt hplaced)
        rw [hrun]
        exact huses hin hm'
      · rcases processHandleSyscall_read events hactive hread hne hin
          (hin.limit_lt hplaced) with ⟨_, _, m', -, hrun, -, -, -, hm'⟩ | ⟨m', -, hrun, hm'⟩
        · rw [hrun]
          exact huses hin hm'
        · rw [hrun]
          exact huses hin hm'
    · obtain ⟨hwrite, hread⟩ := not_or.1 hcall
      by_cases hexit : frame.rax.toUInt32 = programSyscallExit
      · rw [processHandleSyscall_exit hactive hexit]
        exact ⟨⟨[], rfl, fun _ ha => absurd ha List.not_mem_nil⟩, fun _ _ => rfl⟩
      · rw [processHandleSyscall_other hactive hexit hwrite hread]
        exact .refl
  · intro hcall houtside
    refine processHandleSyscall_refused hactive hcall (.inr fun hin => ?_)
    have hlimit := hin.limit_lt hplaced
    exact houtside.elim (fun hnot => hnot hin) fun hwraps => absurd hwraps (not_le.2 hlimit)
  · intro hcall hne hin chars htyped
    rcases processHandleSyscall_read events hactive hcall hne hin
      (hin.limit_lt hplaced) with ⟨chars', rax, m', htyped', hrun, hlen, hfits, hstring, -⟩ |
        ⟨m', hnone, -, -⟩
    · obtain rfl := Option.some.inj (htyped.symm.trans htyped')
      exact ⟨rax, m', hrun, hlen, hfits, hstring⟩
    · exact absurd (htyped.symm.trans hnone) (by simp)
  · intro hcall hne hin hnone
    rcases processHandleSyscall_read events hactive hcall hne hin
      (hin.limit_lt hplaced) with ⟨chars', _, _, htyped', -⟩ | ⟨m', -, hrun, -⟩
    · exact absurd (hnone.symm.trans htyped') (by simp)
    · exact ⟨m', hrun⟩

/-- The kernel after `memory_init` in 64 MiB. -/
def sampleStart : Kernel :=
  Kernel.initial (Memory.sampleState Memory.roomyMap) (fun _ _ => 0) 0x5000

/-- The kernel with the only page that is left as its root. -/
def sampleRooted : Kernel :=
  (Memory.pagingInit Memory.sampleLayout (some (Memory.sampleInfo Memory.roomyMap))
    (sampleStart.allocPages 16383).2).2

/-- The kernel when the other pages are free again. -/
def sampleKernel : Kernel := sampleRooted.freePages 0x200000 16383

theorem sampleKernel_between : Between sampleKernel [] := by
  have hbase : (sampleStart.allocPages 16383).1 = 0x200000 := by decide +kernel
  have halloc : SystemStep (sampleStart, []) (.boot (.alloc 16383))
      ((sampleStart.allocPages 16383).2, [⟨0x200000, 16383⟩]) := by
    have hstep := Memory.BootStep.alloc sampleStart [] 16383
    rw [hbase, if_neg (by decide)] at hstep
    exact .boot _ hstep
  have hfree := Memory.BootStep.free sampleRooted [⟨0x200000, 16383⟩] ⟨0x200000, 16383⟩
    (List.mem_singleton_self _)
  rw [List.erase_cons_head] at hfree
  exact ⟨_, _, _, _, _, _, _, Memory.roomyMap_disjoint, Memory.roomyMap_init,
    .cons halloc (.cons (.boot _ (.init _ _ _ _)) (.cons (.boot _ hfree) (.nil _)))⟩

/-- That kernel before it starts a process. -/
def sampleBefore : ForegroundState where
  kernel := sampleKernel
  process := processResetFields []
  pages := ⟨0, 0, 0, 0⟩
  runtime := emptyRuntime
  exitStatus := 0
  exitRequested := false
  active := false
  memory _ := 0
  console := []
  accesses := []
  output := []

/-- `ls` in the root directory, with a program of one instruction. -/
def sampleCall : ForegroundCall where
  kernelImageEnd := 0x200000
  addresses := ⟨0, 128, 384⟩
  file := some ⟨some ⟨true, sampleFile.length⟩, [sampleFile], true⟩
  command := some commandLs
  argumentLine := none
  cwd := some ⟨[0x2F], by simp⟩

/-- Three bytes at the bottom of the stack for a line. -/
def sampleFrame : TrapFrame := ⟨2, .ofNat processAbiStackBase, 3⟩

/-- `a` on the keyboard, `bc` and a deletion on the serial line, and the end of the line. -/
def sampleKeys : List KeyEvent :=
  [.scancode 0x1E, .idle, .serial 0x62, .serial 0x63, .serial 0x7F, .scancode 0x1C]

/-- The line `a` in the memory of a process: `c` has not fitted, and `b` has been deleted. -/
theorem processHandleSyscall_confined_sample : ∃ m m',
    processHandleSyscall sampleKeys sampleFrame m = .ok (true, { sampleFrame with rax := 1 }) m' ∧
    StringAt m'.memory processAbiStackBase [0x61] := by
  obtain ⟨kernelRoot, m, hstart⟩ := exists_ok_of_isOk
    (show (processStart sampleCall sampleBefore).isOk = true by decide +kernel)
  have hactive : ActiveProcess m :=
    ⟨[], sampleBefore, sampleCall, kernelRoot, m, [], sampleKernel_between, hstart, .nil m⟩
  obtain ⟨others, hrunning⟩ := hactive.running
  have hplaced := hrunning.mapped.placed
  have hinside : Inside m.process.addressSpace sampleFrame.rdi.toNat sampleFrame.rsi.toNat := by
    right
    rw [hplaced.stackBase, hplaced.stackSize]
    decide
  obtain ⟨rax, m', hrun, hlength, -, hstring⟩ :=
    (processHandleSyscall_confined hactive sampleKeys sampleFrame).line (by decide) (by decide)
      hinside [0x61] (by decide)
  have hrax : rax = 1 := UInt64.toNat_inj.1 hlength
  rw [hrax] at hrun
  exact ⟨m, m', hrun, hstring⟩

end

end FunnyOS.Programs
