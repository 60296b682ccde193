import FunnyOS.Devices.Acpi
import FunnyOS.Lib.Ends

/-!
# What the ACPI search relies on

Every table on the way to the IO APIC has been checked as a whole before anything is taken from it,
and the records of the MADT are read inside its declared length. The one field that no check covers
is the address of the local APIC: a MADT that declares less than 40 bytes does not contain it.
-/

namespace FunnyOS.Devices

open Prog
open Programs (littleEndian littleEndian_lt)

/-! ## Tables -/

/-- A table of the given length: it has one of the signatures that are looked for, and its bytes sum
up to zero over the length that it declares. -/
inductive AcpiTable (memory : Nat → UInt8) (start : Nat) : Nat → Prop
  | rsdpV1 : acpiRsdpSignatureValid memory start = true →
      acpiSum memory start acpiRsdpV1Size = 0 → AcpiTable memory start acpiRsdpV1Size
  | rsdpV2 : acpiRsdpSignatureValid memory start = true → 2 ≤ (memory (start + 15)).toNat →
      acpiSum memory start (acpiField memory (start + 20) 4) = 0 →
      AcpiTable memory start (acpiField memory (start + 20) 4)
  | sdt : acpiField memory start 4 ∈ [acpiSigRsdt, acpiSigXsdt, acpiSigFadt, acpiSigMadt] →
      acpiSum memory start (acpiTableLength memory start) = 0 →
      AcpiTable memory start (acpiTableLength memory start)

/-- What is read lies in the table that it is read as a part of. -/
def InTable (memory : Nat → UInt8) (read : AcpiRead) : Prop :=
  ∃ length, AcpiTable memory read.table length ∧ read.table ≤ read.first ∧
    read.first + read.count ≤ read.table + length

/-- The table at an address is listed in the root table. -/
def Listed (memory : Nat → UInt8) (rsdp table : Nat) : Prop :=
  ∃ root, acpiFindRoot memory rsdp = some root ∧
    acpiValidateHeader memory root.address root.signature = true ∧
    ∃ i < root.entriesCount memory, acpiField memory (root.entry i) root.entrySize = table

/-- The read of the address of the local APIC in a MADT. -/
def lapicRead (madt : Nat) : AcpiRead := ⟨madt + 36, 4, madt⟩

/-- A read that the search may do: of a field in its table, or of the address of the local APIC. -/
def MayRead (memory : Nat → UInt8) (rsdp : Nat) (read : AcpiRead) : Prop :=
  InTable memory read ∨ ∃ madt, Listed memory rsdp madt ∧
    acpiValidateHeader memory madt acpiSigMadt = true ∧ read = lapicRead madt

/-- From `s` to `s'` nothing else is read, and no read is forgotten. -/
structure Searched (memory : Nat → UInt8) (rsdp : Nat) (s s' : AcpiState) : Prop where
  grows : ∀ read ∈ s.reads, read ∈ s'.reads
  mayRead : (∀ read ∈ s.reads, MayRead memory rsdp read) →
    ∀ read ∈ s'.reads, MayRead memory rsdp read

section

variable {memory : Nat → UInt8} {rsdp address signature table first count i : Nat}
  {root : AcpiRoot} {s s₀ s₁ : AcpiState}

/-! ## Checks -/

theorem acpiMemoryReadable_le (haddress : address < 2 ^ 64) (hcount : count < 2 ^ 64)
    (h : acpiMemoryReadable address count = true) : address + count ≤ acpiMaxIdentityAddress := by
  have hmax : acpiMaxIdentityAddress = 2 ^ 32 := rfl
  unfold acpiMemoryReadable at h
  split_ifs at h with hzero hwraps
  have hle := of_decide_eq_true h
  rcases Nat.lt_or_ge (address + count) (2 ^ 64) with hlt | hge
  · rwa [Nat.mod_eq_of_lt hlt] at hle
  · omega

theorem acpiChecksumOk_sum (h : acpiChecksumOk memory address count = true) :
    acpiSum memory address count = 0 := by
  unfold acpiChecksumOk at h
  split_ifs at h
  exact of_decide_eq_true h

/-- What a validated header says about its table. -/
structure ValidTable (memory : Nat → UInt8) (address signature : Nat) : Prop where
  readable : acpiMemoryReadable address acpiSdtHeaderSize = true
  field : acpiField memory address 4 = signature
  header : acpiSdtHeaderSize ≤ acpiTableLength memory address
  sum : acpiSum memory address (acpiTableLength memory address) = 0

theorem acpiValidateHeader_valid (h : acpiValidateHeader memory address signature = true) :
    ValidTable memory address signature := by
  unfold acpiValidateHeader at h
  split_ifs at h with hreadable hsignature hlength hinside
  exact ⟨by simpa using hreadable, not_ne_iff.mp hsignature, not_lt.mp hlength,
    acpiChecksumOk_sum h⟩

theorem ValidTable.acpiTable (h : ValidTable memory address signature)
    (hsignature : signature ∈ [acpiSigRsdt, acpiSigXsdt, acpiSigFadt, acpiSigMadt]) :
    AcpiTable memory address (acpiTableLength memory address) :=
  .sdt (h.field ▸ hsignature) h.sum

theorem ValidTable.inTable (h : ValidTable memory address signature)
    (hsignature : signature ∈ [acpiSigRsdt, acpiSigXsdt, acpiSigFadt, acpiSigMadt])
    (hfirst : address ≤ first) (hlast : first + count ≤ address + acpiTableLength memory address) :
    InTable memory ⟨first, count, address⟩ :=
  ⟨_, h.acpiTable hsignature, hfirst, hlast⟩

/-- A MADT begins with another byte than the root pointer, so it has one length only. -/
theorem AcpiTable.length_eq {length : Nat} (h : AcpiTable memory address length)
    (hmadt : acpiField memory address 4 = acpiSigMadt) : length = acpiTableLength memory address := by
  have hfirst : (memory (address + 0)).toNat + 256 * littleEndian
      [memory (address + 1), memory (address + 2), memory (address + 3)] 0 3 = acpiSigMadt := hmadt
  have hnot : ¬ acpiRsdpSignatureValid memory address = true := by
    intro hvalid
    have hbytes := of_decide_eq_true hvalid
    have hhead : memory (address + 0) = 0x52 := (List.cons.inj hbytes).1
    rw [hhead] at hfirst
    have hbyte : (0x52 : UInt8).toNat = 0x52 := rfl
    have hsignature : acpiSigMadt = 0x43495041 := rfl
    omega
  cases h with
  | rsdpV1 hvalid _ => exact absurd hvalid hnot
  | rsdpV2 hvalid _ _ => exact absurd hvalid hnot
  | sdt _ _ => rfl

theorem AcpiRoot.signature_mem :
    root.signature ∈ [acpiSigRsdt, acpiSigXsdt, acpiSigFadt, acpiSigMadt] := by
  unfold AcpiRoot.signature
  split <;> simp

theorem acpiField_lt : acpiField memory first count < 256 ^ count := littleEndian_lt

-- the numbers in a table are not evaluated
attribute [local irreducible] acpiField acpiSum acpiMemoryReadable

/-- The pointer to the root table stands in the root pointer's own structure. -/
theorem acpiFindRoot_inTable (h : acpiFindRoot memory rsdp = some root) :
    InTable memory ⟨root.field, root.fieldSize, rsdp⟩ := by
  have hv1 : acpiRsdpV1Size = 20 := rfl
  have hv2 : acpiRsdpV2Size = 36 := rfl
  simp only [acpiFindRoot, Option.ite_none_left_eq_some, Bool.not_eq_true', Bool.not_eq_false] at h
  obtain ⟨-, -, hsignature, hsum, h⟩ := h
  have hv1 : AcpiTable memory rsdp acpiRsdpV1Size := .rsdpV1 hsignature (acpiChecksumOk_sum hsum)
  have hrsdt : ∀ root', (if acpiField memory (rsdp + 16) 4 ≠ 0 then
      some (⟨rsdp + 16, 4, acpiField memory (rsdp + 16) 4, false⟩ : AcpiRoot) else none) = some root' →
      InTable memory ⟨root'.field, root'.fieldSize, rsdp⟩ := by
    intro root' hroot
    obtain ⟨-, hroot⟩ := Option.ite_none_right_eq_some.mp hroot
    cases hroot
    exact ⟨_, hv1, Nat.le_add_right _ _, Nat.le_refl _⟩
  by_cases hrevision : 2 ≤ (memory (rsdp + 15)).toNat
  · rw [if_pos hrevision] at h
    simp only [Option.ite_none_left_eq_some, Bool.not_eq_false] at h
    obtain ⟨-, hlength, -, hsum2, h⟩ := h
    have hv2 := AcpiTable.rsdpV2 hsignature hrevision (acpiChecksumOk_sum hsum2)
    by_cases hxsdt : acpiField memory (rsdp + 24) 8 ≠ 0 ∧
        acpiField memory (rsdp + 24) 8 < acpiMaxIdentityAddress
    · rw [if_pos hxsdt] at h
      cases h
      have hsize : acpiRsdpV2Size = 36 := rfl
      exact ⟨_, hv2, Nat.le_add_right _ _, by simp only; omega⟩
    · rw [if_neg hxsdt] at h
      exact hrsdt root h
  · rw [if_neg hrevision] at h
    exact hrsdt root h

/-! ## Steps of the search -/

theorem Searched.refl : Searched memory rsdp s s := ⟨fun _ h => h, fun h => h⟩

theorem Searched.trans (h : Searched memory rsdp s₀ s₁) (h' : Searched memory rsdp s₁ s) :
    Searched memory rsdp s₀ s :=
  ⟨fun read hread => h'.grows read (h.grows read hread), fun hs => h'.mayRead (h.mayRead hs)⟩

theorem Searched.setInfo {info : AcpiPlatformInfo} (h : Searched memory rsdp s₀ s) :
    Searched memory rsdp s₀ { s with info := info } := ⟨h.grows, h.mayRead⟩

theorem Searched.read {read : AcpiRead} (h : Searched memory rsdp s₀ s)
    (hread : MayRead memory rsdp read) :
    Searched memory rsdp s₀ { s with reads := read :: s.reads } where
  grows r hr := List.mem_cons_of_mem _ (h.grows r hr)
  mayRead hs r hr := by
    rcases List.mem_cons.mp hr with rfl | hr
    · exact hread
    · exact h.mayRead hs r hr

theorem readTable_ends (h : Searched memory rsdp s₀ s)
    (hread : MayRead memory rsdp ⟨first, count, table⟩) :
    Ends (readTable memory table first count) s
      (fun value s' => Searched memory rsdp s₀ s' ∧ value = acpiField memory first count ∧
        ⟨first, count, table⟩ ∈ s'.reads)
      (fun _ _ => False) :=
  Ends.modify_bind (Ends.pure ⟨h.read hread, rfl, List.mem_cons_self⟩)

theorem setInfo_ends {f : AcpiPlatformInfo → AcpiPlatformInfo} (h : Searched memory rsdp s₀ s) :
    Ends (setInfo f) s (fun _ s' => Searched memory rsdp s₀ s') (fun _ _ => False) :=
  Ends.modify h.setInfo

/-! ## The MADT -/

/-- Whether the loop over the records goes on: behind the record, and inside what is scanned. -/
def PastRecord (stop cursor : Nat) : LoopStep Nat Unit → Prop
  | .again next => cursor + acpiMadtEntryHeaderSize ≤ next ∧ next ≤ stop
  | .done _ => True

theorem scanMadtEntry_ends {madt stop cursor : Nat} (hmadt : ValidTable memory madt acpiSigMadt)
    (hcursor : madt ≤ cursor) (hstop : stop ≤ madt + acpiTableLength memory madt)
    (h : Searched memory rsdp s₀ s) :
    Ends (scanMadtEntry memory madt stop cursor) s
      (fun r s' => Searched memory rsdp s₀ s' ∧ PastRecord stop cursor r) (fun _ _ => False) := by
  have hheader : acpiMadtEntryHeaderSize = 2 := rfl
  have hioapic : acpiMadtIoApicSize = 12 := rfl
  have hin : ∀ first count, madt ≤ first → first + count ≤ stop →
      MayRead memory rsdp ⟨first, count, madt⟩ := fun first count hfirst hlast =>
    .inl (hmadt.inTable (by simp) hfirst (hlast.trans hstop))
  refine Ends.ite (fun _ => Ends.pure ⟨h, trivial⟩) fun hroom => ?_
  refine Ends.bind (readTable_ends h (hin _ _ (by omega) (by omega))) (fun _ _ h => h) ?_
  rintro type s₁ ⟨h, -, -⟩
  refine Ends.bind (readTable_ends h (hin _ _ (by omega) (by omega))) (fun _ _ h => h) ?_
  rintro length s₂ ⟨h, -, -⟩
  refine Ends.ite (fun _ => Ends.pure ⟨h, trivial⟩) fun hshort => ?_
  refine Ends.ite (fun _ => Ends.pure ⟨h, trivial⟩) fun hlong => ?_
  refine Ends.ite (fun hrecord => ?_) fun _ => Ends.pure ⟨h, by omega, by omega⟩
  obtain ⟨-, hsize⟩ := hrecord
  refine Ends.bind (readTable_ends h (hin _ _ (by omega) (by omega))) (fun _ _ h => h) ?_
  rintro ioapicId s₃ ⟨h, -, -⟩
  refine Ends.bind (setInfo_ends h) (fun _ _ h => h) fun _ s₄ h => ?_
  refine Ends.bind (readTable_ends h (hin _ _ (by omega) (by omega))) (fun _ _ h => h) ?_
  rintro ioapicAddress s₅ ⟨h, -, -⟩
  refine Ends.bind (setInfo_ends h) (fun _ _ h => h) fun _ s₆ h => ?_
  refine Ends.bind (readTable_ends h (hin _ _ (by omega) (by omega))) (fun _ _ h => h) ?_
  rintro gsiBase s₇ ⟨h, -, -⟩
  exact Ends.bind (setInfo_ends h) (fun _ _ h => h) fun _ s₈ h => Ends.pure ⟨h, trivial⟩

/-- The scan ends: a record is at least two bytes long, and no more than 4096 bytes are scanned. -/
theorem scanRecords_ends {madt stop cursor : Nat} (hmadt : ValidTable memory madt acpiSigMadt)
    (hcursor : madt ≤ cursor) (hstop : stop ≤ madt + acpiTableLength memory madt)
    (hcap : stop ≤ cursor + acpiMaxMadtScanBytes) (h : Searched memory rsdp s₀ s) :
    Ends (loop (scanMadtEntry memory madt stop) madtRounds cursor) s
      (fun _ s' => Searched memory rsdp s₀ s') (fun _ _ => False) := by
  have hbytes : acpiMaxMadtScanBytes = 4096 := rfl
  have hheader : acpiMadtEntryHeaderSize = 2 := rfl
  have hrounds : madtRounds = 2049 := rfl
  refine Ends.loop (fun k cursor' s' => k = (stop - cursor') / 2 ∧ madt ≤ cursor' ∧
    Searched memory rsdp s₀ s') ?_ _ ((stop - cursor) / 2) _ _ (by omega) ⟨rfl, hcursor, h⟩
  rintro k cursor' s' ⟨rfl, hcursor', h'⟩
  refine Ends.mono (scanMadtEntry_ends hmadt hcursor' hstop h') ?_ fun _ _ h => h
  rintro (next | _) s'' ⟨h'', hpast⟩
  · obtain ⟨hnext, hinside⟩ := hpast
    exact ⟨_, by omega, rfl, by omega, h''⟩
  · exact h''

/-- Besides the records, the address of the local APIC is read. -/
theorem acpiScanMadt_ends {madt : Nat} (hvalid : acpiValidateHeader memory madt acpiSigMadt = true)
    (hlisted : Listed memory rsdp madt) (h : Searched memory rsdp s₀ s) :
    Ends (acpiScanMadt memory madt) s
      (fun _ s' => Searched memory rsdp s₀ s' ∧ lapicRead madt ∈ s'.reads) (fun _ _ => False) := by
  have hmadt := acpiValidateHeader_valid hvalid
  have hsize : acpiMadtSize = 44 := rfl
  have hcap : acpiMaxMadtScanBytes = 4096 := rfl
  have hheader : acpiMadtEntryHeaderSize = 2 := rfl
  refine Ends.bind (readTable_ends h (.inr ⟨madt, hlisted, hvalid, rfl⟩)) (fun _ _ h => h) ?_
  rintro lapicAddress s₁ ⟨h, -, hlapic⟩
  refine Ends.modify_bind ?_
  refine Ends.ite (fun _ => Ends.pure ⟨h.setInfo, hlapic⟩) fun hstop => ?_
  refine Ends.mono (scanRecords_ends hmadt ?_ ?_ ?_ (Searched.refl : Searched memory rsdp _ _)) ?_
    fun _ _ h => h
  · omega
  · split_ifs <;> omega
  · split_ifs <;> omega
  · exact fun _ s₂ h' => ⟨h.setInfo.trans h', h'.grows _ hlapic⟩

/-! ## The root table -/

theorem acpiLookAt_ends (hlisted : Listed memory rsdp table) (h : Searched memory rsdp s₀ s) :
    Ends (acpiLookAt memory table) s
      (fun _ s' => Searched memory rsdp s₀ s' ∧
        (acpiValidateHeader memory table acpiSigMadt = true → lapicRead table ∈ s'.reads))
      (fun _ _ => False) := by
  refine Ends.ite (fun hmadt => ?_) fun hmadt => ?_
  · refine Ends.ite (fun hvalid => ?_) fun hvalid => Ends.pure ⟨h, fun hvalid' => absurd hvalid' hvalid⟩
    refine Ends.bind (setInfo_ends h) (fun _ _ h => h) fun _ s₁ h => ?_
    exact Ends.mono (acpiScanMadt_ends hvalid hlisted h)
      (fun _ _ h => ⟨h.1, fun _ => h.2⟩) fun _ _ h => h
  · have hother : ¬ acpiValidateHeader memory table acpiSigMadt = true :=
      fun hvalid => hmadt (acpiValidateHeader_valid hvalid).field
    refine Ends.ite (fun _ => ?_) fun _ => Ends.pure ⟨h, fun hvalid => absurd hvalid hother⟩
    refine Ends.ite (fun _ => ?_) fun _ => Ends.pure ⟨h, fun hvalid => absurd hvalid hother⟩
    exact Ends.mono (setInfo_ends h) (fun _ _ h => ⟨h, fun hvalid => absurd hvalid hother⟩)
      fun _ _ h => h

/-- A valid table lies below the limit of the addresses that are followed. -/
theorem ValidTable.lt (h : ValidTable memory (acpiField memory first count) signature)
    (hcount : count ≤ 8) : acpiField memory first count < acpiMaxIdentityAddress := by
  have hfield : acpiField memory first count < 2 ^ 64 := by
    have hlt : acpiField memory first count < 256 ^ count := acpiField_lt
    exact hlt.trans_le (Nat.pow_le_pow_right (by decide) hcount)
  have hheader : acpiSdtHeaderSize = 36 := rfl
  have hle := acpiMemoryReadable_le hfield (by decide) h.readable
  omega

/-- The entries of the root table lie in its declared length. -/
theorem AcpiRoot.entry_inTable
    (hvalid : acpiValidateHeader memory root.address root.signature = true)
    (hi : i < root.entriesCount memory) :
    InTable memory ⟨root.entry i, root.entrySize, root.address⟩ := by
  have hroot := acpiValidateHeader_valid hvalid
  have hmul : (i + 1) * root.entrySize ≤ acpiTableLength memory root.address - acpiSdtHeaderSize :=
    (Nat.mul_le_mul_right _ hi).trans (Nat.div_mul_le_self _ _)
  have hheader := hroot.header
  rw [Nat.add_mul, one_mul] at hmul
  unfold AcpiRoot.entry
  exact hroot.inTable AcpiRoot.signature_mem (by omega) (by omega)

theorem acpiScanEntry_ends (hroot : acpiFindRoot memory rsdp = some root)
    (hvalid : acpiValidateHeader memory root.address root.signature = true)
    (hi : i < root.entriesCount memory) (h : Searched memory rsdp s₀ s) :
    Ends (acpiScanEntry memory root i) s
      (fun _ s' => Searched memory rsdp s₀ s' ∧
        (acpiValidateHeader memory (acpiField memory (root.entry i) root.entrySize) acpiSigMadt = true →
          lapicRead (acpiField memory (root.entry i) root.entrySize) ∈ s'.reads))
      (fun _ _ => False) := by
  have hsize : root.entrySize ≤ 8 := by
    unfold AcpiRoot.entrySize
    split <;> decide
  refine Ends.bind (readTable_ends h (.inl (AcpiRoot.entry_inTable hvalid hi))) (fun _ _ h => h) ?_
  rintro table s₁ ⟨h, rfl, -⟩
  refine Ends.ite (fun hhigh => Ends.pure ⟨h, fun hmadt => ?_⟩) fun _ => ?_
  · exact absurd ((acpiValidateHeader_valid hmadt).lt hsize) (not_lt.mpr hhigh.2)
  refine Ends.ite (fun hunreadable => Ends.pure ⟨h, fun hmadt => ?_⟩) fun _ => ?_
  · rw [(acpiValidateHeader_valid hmadt).readable] at hunreadable
    cases hunreadable
  · exact acpiLookAt_ends ⟨root, hroot, hvalid, i, hi, rfl⟩ h

/-- After the loop every valid MADT among the entries has been read from. -/
theorem acpiScanEntries_ends (hroot : acpiFindRoot memory rsdp = some root)
    (hvalid : acpiValidateHeader memory root.address root.signature = true) {indices : List Nat}
    (hindices : ∀ i ∈ indices, i < root.entriesCount memory) (h : Searched memory rsdp s₀ s) :
    Ends (acpiScanEntries memory root indices) s
      (fun _ s' => Searched memory rsdp s₀ s' ∧ ∀ i ∈ indices,
        acpiValidateHeader memory (acpiField memory (root.entry i) root.entrySize) acpiSigMadt = true →
          lapicRead (acpiField memory (root.entry i) root.entrySize) ∈ s'.reads)
      (fun _ _ => False) := by
  induction indices generalizing s s₀ with
  | nil => exact Ends.pure ⟨h, fun i hi => absurd hi List.not_mem_nil⟩
  | cons i rest ih =>
    obtain ⟨hi, hrest⟩ := List.forall_mem_cons.mp hindices
    refine Ends.bind (acpiScanEntry_ends hroot hvalid hi h) (fun _ _ h => h) ?_
    rintro _ s₁ ⟨h, hread⟩
    refine Ends.mono (ih hrest (Searched.refl : Searched memory rsdp s₁ s₁)) ?_ fun _ _ h => h
    rintro _ s₂ ⟨h', hreads⟩
    exact ⟨h.trans h', List.forall_mem_cons.mpr ⟨fun hmadt => h'.grows _ (hread hmadt), hreads⟩⟩

/-- A run ends; it has read what it may, and from every listed MADT. -/
theorem acpiInit_ends (memory : Nat → UInt8) (rsdp : Nat) (s : AcpiState) :
    Ends (acpiInit memory rsdp) s
      (fun _ s' => Searched memory rsdp s s' ∧ ∀ madt, Listed memory rsdp madt →
        acpiValidateHeader memory madt acpiSigMadt = true → lapicRead madt ∈ s'.reads)
      (fun _ _ => False) := by
  refine Ends.bind (setInfo_ends (Searched.refl : Searched memory rsdp s s)) (fun _ _ h => h) ?_
  intro _ s₁ h
  cases hroot : acpiFindRoot memory rsdp with
  | none =>
    refine Ends.pure ⟨h, fun madt hlisted => ?_⟩
    obtain ⟨root, hroot', -⟩ := hlisted
    cases hroot.symm.trans hroot'
  | some root =>
    refine Ends.bind (readTable_ends h (.inl (acpiFindRoot_inTable hroot))) (fun _ _ h => h) ?_
    rintro sdtRoot s₂ ⟨h, -, -⟩
    refine Ends.ite (fun hinvalid => Ends.pure ⟨h, fun madt hlisted => ?_⟩) fun hvalid => ?_
    · obtain ⟨root', hroot', hvalid', -⟩ := hlisted
      cases hroot.symm.trans hroot'
      rw [hvalid'] at hinvalid
      cases hinvalid
    · rw [Bool.not_eq_true', Bool.not_eq_false] at hvalid
      refine Ends.bind (setInfo_ends h) (fun _ _ h => h) fun _ s₃ h => ?_
      refine Ends.bind (acpiScanEntries_ends hroot hvalid (fun i hi => List.mem_range.mp hi) h)
        (fun _ _ h => h) ?_
      rintro _ s₄ ⟨h, hreads⟩
      refine Ends.get_bind (Ends.pure ⟨h, fun madt hlisted hmadt => ?_⟩)
      obtain ⟨root', hroot', -, i, hi, rfl⟩ := hlisted
      cases hroot.symm.trans hroot'
      exact hreads i (List.mem_range.mpr hi) hmadt

/-! ## The whole search -/

theorem lapicRead_inTable_iff (hvalid : acpiValidateHeader memory table acpiSigMadt = true) :
    InTable memory (lapicRead table) ↔ 40 ≤ acpiTableLength memory table := by
  have hmadt := acpiValidateHeader_valid hvalid
  constructor
  · rintro ⟨length, htable, -, hlast⟩
    rw [htable.length_eq hmadt.field] at hlast
    simp only [lapicRead] at hlast
    omega
  · exact fun hlength => hmadt.inTable (by simp) (by omega) (by omega)

/-- A search ends, and everything that it reads lies in a table that has been checked as a whole,
exactly if every listed MADT declares the 40 bytes that the address of the local APIC needs. -/
theorem acpiInit_inTables_iff (memory : Nat → UInt8) (rsdp : Nat) (info : AcpiPlatformInfo) :
    (acpiInit memory rsdp ⟨info, []⟩).result.isSome = true ∧
      ((∀ read ∈ (acpiInit memory rsdp ⟨info, []⟩).state.reads, InTable memory read) ↔
        ∀ madt, Listed memory rsdp madt → acpiValidateHeader memory madt acpiSigMadt = true →
          40 ≤ acpiTableLength memory madt) := by
  have hends := acpiInit_ends memory rsdp ⟨info, []⟩
  refine ⟨hends.result_isSome, ?_⟩
  obtain ⟨_, s', hrun, hsearched, hlapic⟩ := hends.exists_ok
  rw [hrun]
  constructor
  · intro h madt hlisted hvalid
    exact (lapicRead_inTable_iff hvalid).mp (h _ (hlapic madt hlisted hvalid))
  · intro h read hread
    rcases hsearched.mayRead (fun _ hnil => absurd hnil List.not_mem_nil) read hread with
      hin | ⟨madt, hlisted, hvalid, rfl⟩
    · exact hin
    · exact (lapicRead_inTable_iff hvalid).mpr (h madt hlisted hvalid)

end

/-! ## A short MADT -/

/-- A root pointer, a root table with one entry, and a MADT of 36 bytes with another number right
behind it. -/
def shortMadt : Nat → UInt8 := fun a =>
  if a < 0x200 then
    [0x52, 0x53, 0x44, 0x20, 0x50, 0x54, 0x52, 0x20, 0xDF, 0, 0, 0, 0, 0, 0, 0, 0, 2, 0, 0].getD
      (a - 0x100) 0
  else if a < 0x300 then
    [0x52, 0x53, 0x44, 0x54, 40, 0, 0, 0, 0, 0x98, 0, 0, 0, 0, 0, 0, 0, 0, 0, 0, 0, 0, 0, 0, 0, 0,
      0, 0, 0, 0, 0, 0, 0, 0, 0, 0, 0, 3, 0, 0].getD (a - 0x200) 0
  else
    [0x41, 0x50, 0x49, 0x43, 36, 0, 0, 0, 0, 0xBF, 0, 0, 0, 0, 0, 0, 0, 0, 0, 0, 0, 0, 0, 0, 0, 0,
      0, 0, 0, 0, 0, 0, 0, 0, 0, 0, 0, 0, 0xE0, 0xFE].getD (a - 0x300) 0

/-- The search takes the address of the local APIC from behind the table. -/
theorem shortMadt_readsOutside :
    (acpiInit shortMadt 0x100 ⟨⟨false, 0, 0, 0, 0, 0, 0, 0, 0⟩, []⟩).state.info.lapicAddress
      = 0xFEE00000 ∧
    ¬ ∀ read ∈ (acpiInit shortMadt 0x100 ⟨⟨false, 0, 0, 0, 0, 0, 0, 0, 0⟩, []⟩).state.reads,
      InTable shortMadt read := by
  refine ⟨by decide +kernel, fun h => ?_⟩
  have hroot : acpiFindRoot shortMadt 0x100 = some ⟨0x110, 4, 0x200, false⟩ := by decide +kernel
  have hmadt : acpiValidateHeader shortMadt 0x300 acpiSigMadt = true := by decide +kernel
  have hlisted : Listed shortMadt 0x100 0x300 :=
    ⟨_, hroot, by decide +kernel, 0, by decide +kernel, by decide +kernel⟩
  obtain ⟨_, s', hrun, -, hlapic⟩ := (acpiInit_ends shortMadt 0x100 _).exists_ok
  rw [hrun] at h
  have hlong := (lapicRead_inTable_iff hmadt).mp (h _ (hlapic _ hlisted hmadt))
  revert hlong
  decide +kernel

end FunnyOS.Devices
