import FunnyOS.Devices.AhciController

/-!
# The command in memory

What the driver writes into the command table and the command header is the command that a
controller finds there, and it stays there as long as nobody but the controller touches the pages
of the driver.
-/

namespace FunnyOS.Devices

open Prog

/-! ## The pages of the driver -/

/-- The command list, the place for received frames and the command table: three pages below
4 GiB. -/
structure AhciPages where
  list : Nat
  fis : Nat
  table : Nat
  list_fis : list + 4096 ≤ fis ∨ fis + 4096 ≤ list
  list_table : list + 4096 ≤ table ∨ table + 4096 ≤ list
  fis_table : fis + 4096 ≤ table ∨ table + 4096 ≤ fis
  list_lt : list + 4096 ≤ 2 ^ 32
  fis_lt : fis + 4096 ≤ 2 ^ 32
  table_lt : table + 4096 ≤ 2 ^ 32

namespace AhciPages

/-- An address in one of the pages. -/
def Has (pages : AhciPages) (a : Nat) : Prop :=
  (pages.list ≤ a ∧ a < pages.list + 4096) ∨ (pages.fis ≤ a ∧ a < pages.fis + 4096) ∨
    (pages.table ≤ a ∧ a < pages.table + 4096)

/-- An address that says what the command is. -/
def Says (pages : AhciPages) (a : Nat) : Prop :=
  (pages.list ≤ a ∧ a < pages.list + 4) ∨ (pages.list + 8 ≤ a ∧ a < pages.list + 16) ∨
    (pages.table ≤ a ∧ a < pages.table + 144)

theorem Says.has {pages : AhciPages} {a : Nat} (h : pages.Says a) : pages.Has a := by
  rcases h with h | h | h
  · exact .inl ⟨h.1, by omega⟩
  · exact .inl ⟨by omega, by omega⟩
  · exact .inr (.inr ⟨h.1, by omega⟩)

/-- A buffer outside the pages. -/
def Spare (pages : AhciPages) (c : HbaCommand) : Prop := ∀ a, c.InBuffer a → ¬ pages.Has a

end AhciPages

/-- The registers and the header point to the pages. -/
structure Hba.Uses (hba : Hba) (p : Nat) (pages : AhciPages) : Prop where
  list : hba.list p = pages.list
  received : hba.received p = pages.fis
  table : hba.table p = pages.table

/-! ## Numbers in memory -/

section

variable {memory memory' : Nat → UInt8} {address count : Nat}

theorem field_congr (h : ∀ i < count, memory' (address + i) = memory (address + i)) :
    field memory' address count = field memory address count := by
  induction count generalizing address with
  | zero => rfl
  | succ count ih =>
    rw [field, field, ih fun i hi => ?_]
    · have := h 0 (by omega)
      rw [Nat.add_zero] at this
      rw [this]
    · have := h (i + 1) (by omega)
      rwa [show address + (i + 1) = address + 1 + i by omega] at this

theorem byteOf_toNat {n i : Nat} : (byteOf n i).toNat = n / 256 ^ i % 256 := by
  rw [byteOf, UInt8.toNat_ofNat']

/-- Reading back a number. -/
theorem field_byteOf {n : Nat} (h : ∀ i < count, memory (address + i) = byteOf n i) :
    field memory address count = n % 256 ^ count := by
  induction count generalizing address n with
  | zero => simp [field, Nat.mod_one]
  | succ count ih =>
    have hfirst := h 0 (by omega)
    rw [Nat.add_zero] at hfirst
    have hrest : field memory (address + 1) count = n / 256 % 256 ^ count := by
      refine ih fun i hi => ?_
      rw [Nat.add_assoc, Nat.add_comm 1 i, h (i + 1) (by omega), byteOf, byteOf, Nat.pow_succ',
        Nat.div_div_eq_div_mul]
    rw [field, hfirst, hrest, byteOf_toNat, Nat.pow_zero, Nat.div_one, Nat.pow_succ', Nat.mod_mul]

theorem field_zero (h : ∀ i < count, memory (address + i) = 0) :
    field memory address count = 0 := by
  rw [field_byteOf (n := 0) fun i hi => ?_]
  · exact Nat.zero_mod _
  · rw [h i hi, byteOf, Nat.zero_div]
    rfl

end

/-! ## A command that stays -/

section

variable {hba hba' : Hba} {p : Nat} {pages : AhciPages} {c : HbaCommand}

theorem SameSetup.list (h : SameSetup (hba.ports p).regs (hba'.ports p).regs) :
    hba'.list p = hba.list p := by rw [Hba.list, h.clb, h.clbu, Hba.list]

theorem SameSetup.received (h : SameSetup (hba.ports p).regs (hba'.ports p).regs) :
    hba'.received p = hba.received p := by rw [Hba.received, h.fb, h.fbu, Hba.received]

theorem SameSetup.starts (h : SameSetup (hba.ports p).regs (hba'.ports p).regs) :
    hba'.Started p ↔ hba.Started p := by rw [Hba.Started, h.started, Hba.Started]

/-- What the registers and the command say is in memory where it was. -/
structure SameCommand (p : Nat) (pages : AhciPages) (hba hba' : Hba) : Prop where
  setup : SameSetup (hba.ports p).regs (hba'.ports p).regs
  memory : ∀ a, pages.Says a → hba'.memory a = hba.memory a

theorem SameCommand.uses (h : SameCommand p pages hba hba') (hu : hba.Uses p pages) :
    hba'.Uses p pages := by
  have hlist := h.setup.list.trans hu.list
  refine ⟨hlist, h.setup.received.trans hu.received, ?_⟩
  have htable := hu.table
  rw [Hba.table, hu.list] at htable
  rw [Hba.table, hlist, ← htable]
  refine congrArg₂ wide (field_congr fun i hi => h.memory _ ?_)
    (field_congr fun i hi => h.memory _ ?_)
  · exact .inr (.inl (by omega))
  · exact .inr (.inl (by omega))

theorem SameCommand.finds (h : SameCommand p pages hba hba') (hu : hba.Uses p pages)
    (hc : hba.Finds p c) : hba'.Finds p c := by
  have hu' := h.uses hu
  have hheader : ∀ i < 4, hba'.memory (pages.list + i) = hba.memory (pages.list + i) :=
    fun i hi => h.memory _ (.inl (by omega))
  have htable : ∀ i < 144, hba'.memory (pages.table + i) = hba.memory (pages.table + i) :=
    fun i hi => h.memory _ (.inr (.inr (by omega)))
  have hfield : ∀ o n, o + n ≤ 144 →
      field hba'.memory (pages.table + o) n = field hba.memory (pages.table + o) n := by
    intro o n hn
    refine field_congr fun i hi => ?_
    rw [Nat.add_assoc]
    exact htable _ (by omega)
  obtain ⟨⟨hlen, hw, hprdtl, htype, hc7, hcmd, hlba48⟩, hlba, hcount, hbuffer, hlength⟩ := hc
  have h₀ := hheader 0 (by omega)
  have t₀ := htable 0 (by omega)
  have hprdtl' : field hba'.memory (pages.list + 2) 2 = field hba.memory (pages.list + 2) 2 := by
    refine field_congr fun i hi => ?_
    rw [Nat.add_assoc]
    exact hheader _ (by omega)
  simp only [hu.list, hu.table, Nat.add_zero] at *
  refine ⟨⟨?_, ?_, ?_, ?_, ?_, ?_, ?_⟩, ?_, ?_, ?_, ?_⟩
  all_goals simp only [hu'.list, hu'.table]
  · rw [h₀, hlen]
  · rw [h₀, hw]
  · rw [hprdtl', hprdtl]
  · rw [t₀, htype]
  · rw [htable 1 (by omega), hc7]
  · rw [htable 2 (by omega), hcmd]
  · rw [htable 7 (by omega), hlba48]
  · rw [hfield 4 3 (by omega), hfield 8 3 (by omega), hlba]
  · rw [hfield 12 2 (by omega), hcount]
  · rw [hfield 128 4 (by omega), hfield 132 4 (by omega), hbuffer]
  · rw [hfield 140 4 (by omega), hlength]

end

/-! ## The command that the driver stores -/

/-- What `storeCommand` makes of the memory. -/
def commandMemory (memory : Nat → UInt8) (list table : Nat) (lba : UInt32) (count : UInt8)
    (buffer : Nat) (write : Bool) : Nat → UInt8 :=
  let header := overlay (overlay (overlay (overlay (overlay memory table 144 fun _ => 0)
    list 1 fun _ => if write then (5 : UInt8) ||| ((1 : UInt8) <<< 6) else 5)
    (list + 1) 1 fun _ => 0) (list + 2) 2 (byteOf 1)) (list + 4) 4 fun _ => 0
  overlay (overlay (overlay (overlay (overlay header (table + 128) 4 (byteOf (buffer % 2 ^ 32)))
    (table + 132) 4 fun _ => 0) (table + 136) 4 fun _ => 0)
    (table + 140) 4 (byteOf (count.toNat * 512 - 1)))
    table 16 fun i => (fisRegH2D lba count write).getD i 0

section

variable {hba hba' : Hba} {p : Nat} {pages : AhciPages} {lba : UInt32} {count : UInt8}
  {buffer : Nat} {write : Bool} {memory : Nat → UInt8} {a i : Nat}

theorem storeCommand_run (s : AhciState) (list table : Nat) :
    storeCommand list table lba count buffer write s = .ok () { s with hba := { s.hba with
      memory := commandMemory s.hba.memory list table lba count buffer write } } := rfl

/-- The frame. -/
theorem commandMemory_frame (hi : i < 16) :
    commandMemory memory pages.list pages.table lba count buffer write (pages.table + i)
      = (fisRegH2D lba count write).getD i 0 := by
  rw [commandMemory, overlay_inside (by omega), Nat.add_sub_cancel_left]

/-- The rest of the table. -/
theorem commandMemory_buffer (hi : i < 4) :
    commandMemory memory pages.list pages.table lba count buffer write (pages.table + 128 + i)
      = byteOf (buffer % 2 ^ 32) i := by
  simp (disch := omega) only [commandMemory, overlay_inside, overlay_outside,
    Nat.add_sub_cancel_left]

theorem commandMemory_upper (hi : i < 4) :
    commandMemory memory pages.list pages.table lba count buffer write (pages.table + 132 + i)
      = 0 := by
  simp (disch := omega) only [commandMemory, overlay_inside, overlay_outside]

theorem commandMemory_length (hi : i < 4) :
    commandMemory memory pages.list pages.table lba count buffer write (pages.table + 140 + i)
      = byteOf (count.toNat * 512 - 1) i := by
  simp (disch := omega) only [commandMemory, overlay_inside, overlay_outside,
    Nat.add_sub_cancel_left]

/-- The header. -/
theorem commandMemory_flags :
    commandMemory memory pages.list pages.table lba count buffer write pages.list
      = if write then (5 : UInt8) ||| ((1 : UInt8) <<< 6) else 5 := by
  have := pages.list_table
  simp (disch := omega) only [commandMemory, overlay_inside, overlay_outside]

theorem commandMemory_prdtl (hi : i < 2) :
    commandMemory memory pages.list pages.table lba count buffer write (pages.list + 2 + i)
      = byteOf 1 i := by
  have := pages.list_table
  simp (disch := omega) only [commandMemory, overlay_inside, overlay_outside,
    Nat.add_sub_cancel_left]

/-- The rest of the header, and the rest of the memory. -/
theorem commandMemory_outside (hlist : ¬ (pages.list ≤ a ∧ a < pages.list + 8))
    (htable : ¬ (pages.table ≤ a ∧ a < pages.table + 144)) :
    commandMemory memory pages.list pages.table lba count buffer write a = memory a := by
  simp (disch := omega) only [commandMemory, overlay_outside]

/-- The transfer that is asked for. -/
def request (lba : UInt32) (count : UInt8) (buffer : Nat) (write : Bool) : HbaCommand :=
  ⟨write, lba.toNat, count.toNat, buffer⟩

/-- The bytes of the address. -/
theorem lba_bytes (lba : UInt32) :
    (lba &&& 0xFF).toUInt8.toNat = lba.toNat % 256 ∧
    ((lba >>> 8) &&& 0xFF).toUInt8.toNat = lba.toNat / 256 % 256 ∧
    ((lba >>> 16) &&& 0xFF).toUInt8.toNat = lba.toNat / 256 ^ 2 % 256 ∧
    ((lba >>> 24) &&& 0xFF).toUInt8.toNat = lba.toNat / 256 ^ 3 % 256 := by
  have hmask : ∀ n : Nat, n &&& 255 = n % 256 := fun n => Nat.and_two_pow_sub_one_eq_mod n 8
  refine ⟨?_, ?_, ?_, ?_⟩ <;>
    simp [UInt32.toNat_toUInt8, hmask, Nat.shiftRight_eq_div_pow]

/-- What the driver stores is found as the transfer that was asked for. -/
theorem finds_commandMemory (hu : hba.Uses p pages) (hcount : count ≠ 0)
    (hbuffer : buffer < 2 ^ 32) (hports : hba'.ports = hba.ports) (hmem : hba'.memory
      = commandMemory hba.memory pages.list pages.table lba count buffer write) :
    hba'.Uses p pages ∧ hba'.Finds p (request lba count buffer write) := by
  have hlist : hba'.list p = pages.list := by rw [Hba.list, hports, ← hu.list, Hba.list]
  have hreceived : hba'.received p = pages.fis := by
    rw [Hba.received, hports, ← hu.received, Hba.received]
  have htable : hba'.table p = pages.table := by
    have hlt := pages.list_table
    rw [Hba.table, hlist, hmem, field_congr fun i hi => commandMemory_outside (by omega) (by omega),
      field_congr fun i hi => commandMemory_outside (by omega) (by omega), ← hu.table, Hba.table,
      hu.list]
  have hframe : ∀ i < 16, hba'.memory (pages.table + i) = (fisRegH2D lba count write).getD i 0 :=
    fun i hi => hmem ▸ commandMemory_frame hi
  have hpos : 0 < count.toNat := Nat.pos_of_ne_zero fun h => hcount (UInt8.toNat_inj.mp h)
  have hlt := count.toNat_lt
  obtain ⟨hb₀, hb₁, hb₂, hb₃⟩ := lba_bytes lba
  have hlba := lba.toNat_lt
  refine ⟨⟨hlist, hreceived, htable⟩, ⟨?_, ?_, ?_, ?_, ?_, ?_, ?_⟩, ?_, ?_, ?_, ?_⟩
  all_goals simp only [hlist, htable, request]
  · rw [hmem, commandMemory_flags]
    cases write <;> rfl
  · rw [hmem, commandMemory_flags]
    cases write <;> rfl
  · rw [field_byteOf fun i hi => hmem ▸ commandMemory_prdtl hi]
    decide
  · exact hframe 0 (by omega)
  · rw [hframe 1 (by omega)]
    change (0x80 : UInt8).toNat / 128 = 1
    decide
  · exact hframe 2 (by omega)
  · rw [hframe 7 (by omega)]
    change (0x40 : UInt8).toNat / 64 % 2 = 1
    decide
  · have hlow : field hba'.memory (pages.table + 4) 3 = lba.toNat % 2 ^ 24 := by
      simp only [field, Nat.add_assoc, Nat.reduceAdd, hframe, Nat.reduceLT]
      change ((lba &&& 0xFF).toUInt8.toNat + 256 * (((lba >>> 8) &&& 0xFF).toUInt8.toNat
        + 256 * (((lba >>> 16) &&& 0xFF).toUInt8.toNat + 256 * 0))) = _
      omega
    have hhigh : field hba'.memory (pages.table + 8) 3 = lba.toNat / 2 ^ 24 := by
      simp only [field, Nat.add_assoc, Nat.reduceAdd, hframe, Nat.reduceLT]
      change (((lba >>> 24) &&& 0xFF).toUInt8.toNat + 256 * (0 + 256 * (0 + 256 * 0))) = _
      omega
    omega
  · have hfield : field hba'.memory (pages.table + 12) 2 = count.toNat := by
      simp only [field, Nat.add_assoc, Nat.reduceAdd, hframe, Nat.reduceLT]
      change count.toNat + 256 * (0 + 256 * 0) = _
      omega
    rw [hfield, if_neg (by omega)]
  · rw [field_byteOf fun i hi => hmem ▸ commandMemory_buffer hi,
      field_zero fun i hi => hmem ▸ commandMemory_upper hi, wide]
    omega
  · rw [field_byteOf fun i hi => hmem ▸ commandMemory_length hi]
    omega

end

end FunnyOS.Devices
