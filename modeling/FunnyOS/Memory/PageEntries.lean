import FunnyOS.Memory.Paging
import FunnyOS.Memory.Blocks

/-!
# Entries and new tables

What the bits of an entry say, and the two ways in which `get_or_create_table` finds a table: the
entry points to one, or a fresh page becomes one.
-/

namespace FunnyOS.Memory

variable {e flags : Entry} {table parent c : Nat} {user : Bool} {s : Kernel} {index : Fin 512}
  {live : List FreePageRange}

/-- `(entry & bit) != 0` reads one bit. -/
theorem and_twoPow_ne_zero {i : Nat} (hi : i < 64) :
    (e &&& BitVec.twoPow 64 i != 0) = e.getLsbD i := by
  rw [BitVec.and_twoPow]
  cases e.getLsbD i with
  | false => rfl
  | true =>
      rw [if_pos rfl, bne_iff_ne]
      intro hzero
      have hbit := congrArg (fun x => BitVec.getLsbD x i) hzero
      simp [hi] at hbit

theorem Entry.present_eq : e.present = e.getLsbD 0 := and_twoPow_ne_zero (i := 0) (by decide)

theorem Entry.large_eq : e.large = e.getLsbD 7 := and_twoPow_ne_zero (i := 7) (by decide)

theorem Entry.user_eq : e.user = e.getLsbD 2 := and_twoPow_ne_zero (i := 2) (by decide)

theorem getLsbD_page {i : Nat} (h : table % pageSize = 0) (hi : i < 12) :
    (BitVec.ofNat 64 table).getLsbD i = false := by
  obtain ⟨k, rfl⟩ := Nat.dvd_of_mod_eq_zero h
  have hpow : pageSize * k = 2 ^ 12 * k := rfl
  rw [BitVec.getLsbD_ofNat, hpow, Nat.testBit_two_pow_mul]
  simp [hi]

theorem pageTableAddrMask_getLsbD : ∀ i < 64, pageTableAddrMask.getLsbD i = decide (12 ≤ i) := by
  decide

/-- The address in an entry made of the address of a table and flags. -/
theorem Entry.table_or (h : table % pageSize = 0) (hlt : table < 2 ^ 64)
    (hflags : flags &&& pageTableAddrMask = 0) :
    Entry.table (BitVec.ofNat 64 table ||| flags) = table := by
  have hmask : BitVec.ofNat 64 table &&& pageTableAddrMask = BitVec.ofNat 64 table := by
    apply BitVec.eq_of_getLsbD_eq
    intro i hi
    rw [BitVec.getLsbD_and, pageTableAddrMask_getLsbD i hi]
    by_cases hlow : i < 12
    · rw [getLsbD_page h hlow]
      rfl
    · rw [decide_eq_true (not_lt.1 hlow), Bool.and_true]
  have hzero : BitVec.ofNat 64 table ||| (0 : Entry) = BitVec.ofNat 64 table := BitVec.or_zero
  rw [Entry.table, BitVec.and_or_distrib_right, hmask, hflags, hzero, BitVec.toNat_ofNat,
    Nat.mod_eq_of_lt hlt]

/-- The table that an entry points to. -/
def Entry.child (e : Entry) : Option Nat := if e.present && !e.large then some e.table else none

/-- The table that an entry points to, when user code may walk through it. -/
def Entry.userChild (e : Entry) : Option Nat := if e.user then e.child else none

@[simp] theorem Entry.child_zero : Entry.child 0 = none := by decide

@[simp] theorem Entry.userChild_zero : Entry.userChild 0 = none := by decide

theorem Entry.child_of_not_present (h : e.present = false) : e.child = none := by
  simp [Entry.child, h]

theorem Entry.child_of_large (h : e.large = true) : e.child = none := by
  simp [Entry.child, h]

theorem Entry.child_eq_some (h : e.child = some c) : e.present = true ∧ e.large = false ∧ e.table = c := by
  simp only [Entry.child] at h
  split at h
  · next hbits =>
      simp only [Bool.and_eq_true, Bool.not_eq_true'] at hbits
      exact ⟨hbits.1, hbits.2, Option.some.inj h⟩
  · exact absurd h (by simp)

theorem Entry.userChild_eq_some (h : e.userChild = some c) : e.user = true ∧ e.child = some c := by
  simp only [Entry.userChild] at h
  split at h
  · next huser => exact ⟨huser, h⟩
  · exact absurd h (by simp)

/-- The entry of a page that becomes a table. -/
theorem tableEntry_bits (h : table % pageSize = 0) (hlt : table < 2 ^ 64)
    (hpresent : flags.getLsbD 0 = true) (hlarge : flags.getLsbD 7 = false)
    (hflags : flags &&& pageTableAddrMask = 0) :
    Entry.child (BitVec.ofNat 64 table ||| flags) = some table ∧
      Entry.user (BitVec.ofNat 64 table ||| flags) = flags.getLsbD 2 := by
  constructor
  · rw [Entry.child, Entry.present_eq, Entry.large_eq, BitVec.getLsbD_or, BitVec.getLsbD_or,
      getLsbD_page h (by decide), getLsbD_page h (by decide), hpresent, hlarge,
      Entry.table_or h hlt hflags]
    rfl
  · rw [Entry.user_eq, BitVec.getLsbD_or, getLsbD_page h (by decide), Bool.false_or]

theorem tableEntry_child (h : table % pageSize = 0) (hlt : table < 2 ^ 64) :
    Entry.child (BitVec.ofNat 64 table ||| tableFlags user) = some table := by
  cases user <;> exact (tableEntry_bits h hlt (by decide) (by decide) (by decide)).1

theorem tableEntry_user (h : table % pageSize = 0) (hlt : table < 2 ^ 64) :
    Entry.user (BitVec.ofNat 64 table ||| tableFlags user) = user := by
  cases user <;> exact (tableEntry_bits h hlt (by decide) (by decide) (by decide)).2

/-- The block of one page at an address. -/
def page (base : Nat) : FreePageRange := ⟨base, 1⟩

theorem Invariant.pages_nodup {pages : State} {l : List Nat} {rest : List FreePageRange}
    (h : Invariant (pages, l.map page ++ rest)) : l.Nodup := by
  have hapart := (List.pairwise_append.1 h.disjointed.apart).1
  have hne : (l.map page).Pairwise (fun a b => a ≠ b) := by
    apply hapart.imp_of_mem
    intro a b ha _ hdisj heq
    subst heq
    have hlt := (h.blocks a (List.mem_append_left _ ha)).base_lt
    exact Set.disjoint_left.1 hdisj ⟨le_rfl, hlt⟩ ⟨le_rfl, hlt⟩
  exact List.Nodup.of_map page hne

theorem Invariant.pages_ne_rest {t : Nat} {pages : State} {l : List Nat} {rest : List FreePageRange}
    (h : Invariant (pages, l.map page ++ rest)) (ht : t ∈ l) (hc : page c ∈ rest) : c ≠ t := by
  rintro rfl
  have hblock : page c ∈ l.map page := List.mem_map_of_mem ht
  have hapart := (List.pairwise_append.1 h.disjointed.apart).2.2 _ hblock _ hc
  have hlt := (h.blocks _ (List.mem_append_left _ hblock)).base_lt
  exact Set.disjoint_left.1 hapart ⟨le_rfl, hlt⟩ ⟨le_rfl, hlt⟩

theorem Invariant.page_ne_zero {t : Nat} {pages : State}
    (h : Invariant (pages, live)) (ht : page t ∈ live) : t ≠ 0 := by
  intro hzero
  have hmem : t ∈ Pool.out FreePageRange.addresses live :=
    ⟨page t, ht, le_rfl, (h.blocks _ ht).base_lt⟩
  have hlow : reservedLowEnd ≤ t := h.low (Set.mem_union_right _ hmem)
  rw [hzero] at hlow
  exact absurd hlow (by decide)

theorem Invariant.freeRanges_ok {pages : State} (h : Invariant (pages, live)) :
    TableOk pages.freeRanges :=
  h.table

/-- A page that `alloc_pages` has just given: the allocator before and after. -/
structure Fresh (before : State) (live : List FreePageRange) (after : State) (c : Nat) : Prop where
  nonzero : c ≠ 0
  pages : Invariant (after, page c :: live)
  taken : freeAddresses before.freeRanges =
    freeAddresses after.freeRanges ∪ FreePageRange.addresses (page c)

namespace Fresh

variable {before pages : State}

theorem aligned (h : Fresh before live pages c) : c % pageSize = 0 :=
  (h.pages.blocks (page c) List.mem_cons_self).aligned

theorem lt (h : Fresh before live pages c) : c < 2 ^ 64 := by
  have hok := h.pages.blocks (page c) List.mem_cons_self
  exact hok.base_lt.trans (hok.bounded.trans_lt (by decide))

/-- It is no page that was live. -/
theorem ne (h : Fresh before live pages c) (ht : page parent ∈ live) : parent ≠ c := by
  rintro rfl
  have hok := h.pages.blocks (page parent) List.mem_cons_self
  have hapart := (List.pairwise_cons.1 h.pages.disjointed.apart).1 (page parent) ht
  exact Set.disjoint_left.1 hapart ⟨le_rfl, hok.base_lt⟩ ⟨le_rfl, hok.base_lt⟩

end Fresh

/-- The state after `alloc_page_table` has made a table of a fresh page. -/
def Kernel.withTable (s : Kernel) (c : Nat) (pages : State) : Kernel :=
  { s with
    pages := pages
    tables := Function.update s.tables c fun _ => 0
    events := s.events ++ [.given c 1] }

/-- `alloc_pages`, when the blocks that are out are `live`. -/
theorem Kernel.allocPages_cases (h : Invariant (s.pages, live)) (n : Nat) :
    s.allocPages n = (0, s) ∨ ∃ base pages, base ≠ 0 ∧ Invariant (pages, ⟨base, n⟩ :: live) ∧
      freeAddresses s.pages.freeRanges =
        freeAddresses pages.freeRanges ∪ FreePageRange.addresses ⟨base, n⟩ ∧
      s.allocPages n = (base, { s with pages := pages, events := s.events ++ [.given base n] }) := by
  rcases Memory.allocPages_cases h n with hnone | ⟨base, ranges, halloc, hbase, hpos, hgiven⟩
  · left
    rw [Kernel.allocPages, hnone]
    rfl
  · right
    have hstep : CallStep (s.pages, live) (.alloc n) ((Memory.allocPages s.pages n).2,
        ⟨base, n⟩ :: live) := .alloc_of (by rw [halloc]) hbase
    have hinv := hstep.invariant h
    rw [halloc] at hinv
    refine ⟨base, _, hbase, hinv, ?_, ?_⟩
    · show _ = freeAddresses ranges ∪ _
      rw [hgiven.cut.addresses]
      exact (Set.sdiff_union_of_subset hgiven.free).symm
    · rw [Kernel.allocPages, halloc]
      simp only [if_neg hbase]

theorem allocPageTable_cases (h : Invariant (s.pages, live)) :
    allocPageTable s = (0, s) ∨
    ∃ c pages, Fresh s.pages live pages c ∧ allocPageTable s = (c, s.withTable c pages) := by
  rcases Kernel.allocPages_cases h 1 with hnone | ⟨c, pages, hc, hinv, htaken, halloc⟩
  · left
    rw [allocPageTable, hnone]
    rfl
  · right
    refine ⟨c, pages, ⟨hc, hinv, htaken⟩, ?_⟩
    rw [allocPageTable, halloc]
    simp only [if_neg hc, Kernel.setTable, Kernel.withTable]

/-- `get_or_create_table`: no table, the one that the entry points to, or a fresh one. -/
theorem getOrCreateTable_cases (h : Invariant (s.pages, live)) (hparent : parent ≠ 0)
    (index : Fin 512) (user : Bool) :
    getOrCreateTable s parent index user = (0, s) ∨
    (∃ c, (s.tables parent index).child = some c ∧
      (user = true → (s.tables parent index).user = true) ∧
      getOrCreateTable s parent index user = (c, s)) ∨
    ((s.tables parent index).present = false ∧ ∃ c pages, Fresh s.pages live pages c ∧
      getOrCreateTable s parent index user = (c, (s.withTable c pages).setEntry parent index
        (BitVec.ofNat 64 c ||| tableFlags user))) := by
  rw [getOrCreateTable, if_neg hparent]
  cases hpresent : (s.tables parent index).present with
  | true =>
      cases hlarge : (s.tables parent index).large with
      | true =>
          left
          simp [hpresent, hlarge]
      | false =>
          by_cases huser : user = true ∧ (s.tables parent index).user = false
          · left
            simp [hpresent, hlarge, huser.1, huser.2]
          · right
            left
            refine ⟨(s.tables parent index).table, ?_, ?_, ?_⟩
            · simp [Entry.child, hpresent, hlarge]
            · intro hu
              simpa using fun hno => huser ⟨hu, hno⟩
            · have hno : (user && !(s.tables parent index).user) = false := by
                simpa using huser
              simp [hpresent, hlarge, hno]
  | false =>
      rcases allocPageTable_cases h with hnone | ⟨c, pages, hfresh, halloc⟩
      · left
        simp [hpresent, hnone]
      · right
        right
        refine ⟨rfl, c, pages, hfresh, ?_⟩
        simp [hpresent, halloc, hfresh.nonzero]

end FunnyOS.Memory
