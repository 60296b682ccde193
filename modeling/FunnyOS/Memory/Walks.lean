import FunnyOS.Memory.PageEntries
import FunnyOS.Lib.SharedTree

/-!
# Walks through page tables

What a translation reads: the entries that a walk passes and the one at which it ends. Where two
memories agree on these, or an entry that was passed has been replaced by one that means the same,
they translate alike.
-/

namespace FunnyOS.Memory

variable {tables tables' : Nat → Fin 512 → Entry} {virt level t c p n : Nat} {rights : Translation}
  {e : Entry} {user : Bool} {i : Fin 512}

/-- The slot in which the translation of an address reads a table of level `level + 1`. -/
def slotOf (virt level : Nat) : Fin 512 :=
  ⟨(virt >>> (12 + 9 * level)) % 512, Nat.mod_lt _ (by decide)⟩

/-- An entry that leads on and takes no right away, but for that of user code. -/
structure Entry.Open (e : Entry) : Prop where
  writable : e.getLsbD 1 = true
  executable : e.getLsbD 63 = false

/-- Where a translation leads that ends at an entry for `2 ^ bits` bytes. -/
def Entry.ends (e : Entry) (bits virt : Nat) (rights : Translation) : Translation where
  phys := (e &&& 0x000FFFFFFFFFF000).toNat / 2 ^ bits * 2 ^ bits + virt % 2 ^ bits
  writable := rights.writable && e.getLsbD 1
  user := rights.user && e.user
  executable := rights.executable && !e.getLsbD 63

theorem Entry.writable_eq : (e &&& pageWritable != 0) = e.getLsbD 1 :=
  and_twoPow_ne_zero (i := 1) (by decide)

theorem Entry.nx_eq : (e &&& pageNx != 0) = e.getLsbD 63 :=
  and_twoPow_ne_zero (i := 63) (by decide)

/-- What is left of the rights where an entry leads on. -/
def Entry.grants (e : Entry) (rights : Translation) : Translation :=
  { rights with
    writable := rights.writable && e.getLsbD 1
    user := rights.user && e.user
    executable := rights.executable && !e.getLsbD 63 }

theorem translateFrom_succ : translateFrom tables virt (level + 1) t rights =
    if !(tables t (slotOf virt level)).present then none
    else if level = 0 || (tables t (slotOf virt level)).large then
      if level = 3 then none
      else some ((tables t (slotOf virt level)).ends (12 + 9 * level) virt rights)
    else translateFrom tables virt level (tables t (slotOf virt level)).table
      ((tables t (slotOf virt level)).grants rights) := by
  simp only [translateFrom, Entry.writable_eq, Entry.nx_eq]
  rfl

theorem translateFrom_absent (h : (tables t (slotOf virt level)).present = false) :
    translateFrom tables virt (level + 1) t rights = none := by
  rw [translateFrom_succ, h]
  rfl

theorem translateFrom_leaf (h : (tables t (slotOf virt 0)).present = true) :
    translateFrom tables virt 1 t rights = some ((tables t (slotOf virt 0)).ends 12 virt rights) := by
  rw [translateFrom_succ, h]
  rfl

theorem translateFrom_large (h : (tables t (slotOf virt 1)).present = true)
    (hlarge : (tables t (slotOf virt 1)).large = true) :
    translateFrom tables virt 2 t rights = some ((tables t (slotOf virt 1)).ends 21 virt rights) := by
  rw [translateFrom_succ, h, hlarge]
  rfl

theorem translateFrom_child (hc : (tables t (slotOf virt (level + 1))).child = some c) :
    translateFrom tables virt (level + 2) t rights = translateFrom tables virt (level + 1) c
      ((tables t (slotOf virt (level + 1))).grants rights) := by
  obtain ⟨hpresent, hlarge, htable⟩ := Entry.child_eq_some hc
  rw [translateFrom_succ, hpresent, hlarge, htable]
  rfl

/-- A right of user code that is gone does not come back. -/
theorem translateFrom_user {x : Translation} (h : translateFrom tables virt level t rights = some x)
    (hx : x.user = true) : rights.user = true := by
  induction level generalizing t rights with
  | zero => cases h
  | succ level ih =>
      rw [translateFrom_succ] at h
      split at h
      · cases h
      · split at h
        · split at h
          · cases h
          · obtain rfl := Option.some.inj h
            exact (Bool.and_eq_true_iff.1 hx).1
        · exact (Bool.and_eq_true_iff.1 (ih h)).1

/-- User code comes to an address only through an entry of the root that lets it through. -/
theorem translate_user {x : Translation} (h : translate tables t virt = some x)
    (hx : x.user = true) : (tables t (slotOf virt 3)).present = true ∧
      (tables t (slotOf virt 3)).user = true := by
  rw [translate, translateFrom_succ] at h
  split at h
  · cases h
  · next hpresent =>
      split at h
      · cases h
      · have hgranted : (true && (tables t (slotOf virt 3)).user) = true := translateFrom_user h hx
        exact ⟨by simpa using hpresent, (Bool.and_eq_true_iff.1 hgranted).2⟩

/-- A walk from which every table read the same, or meaning the same, translates alike. -/
theorem translateFrom_of_walk
    (h : ∀ n p, Walk Entry.child tables (slotOf virt) level t (n + 1) p →
      tables' p (slotOf virt n) = tables p (slotOf virt n) ∨
        ∀ rights, translateFrom tables' virt (n + 1) p rights =
          translateFrom tables virt (n + 1) p rights) (rights : Translation) :
    translateFrom tables' virt level t rights = translateFrom tables virt level t rights := by
  induction level generalizing t rights with
  | zero => rfl
  | succ level ih =>
      rcases h level t (.here _ _) with hsame | hequal
      · rw [translateFrom_succ, translateFrom_succ, hsame]
        split
        · rfl
        · next hpresent =>
            split
            · rfl
            · next hleaf =>
                apply ih
                intro n p hp
                apply h n p
                simp only [Bool.not_eq_true', Bool.not_eq_false] at hpresent
                simp only [Bool.or_eq_true, decide_eq_true_eq, not_or, Bool.not_eq_true] at hleaf
                have hchild : (tables t (slotOf virt level)).child =
                    some (tables t (slotOf virt level)).table := by
                  simp [Entry.child, hpresent, hleaf.2]
                exact .down hchild hp
      · exact hequal rights

theorem Entry.Open.grants_eq (h : e.Open) :
    e.grants rights = { rights with user := rights.user && e.user } := by
  simp only [Entry.grants, h.writable, h.executable, Bool.and_true, Bool.not_false]

/-- The address of a page has no bits from bit 32 on. -/
theorem getLsbD_page_high {i : Nat} (hlt : c < 2 ^ 32) (hi : 32 ≤ i) :
    (BitVec.ofNat 64 c).getLsbD i = false := by
  rw [BitVec.getLsbD_ofNat, Nat.testBit_lt_two_pow (hlt.trans_le (Nat.pow_le_pow_right (by decide) hi)),
    Bool.and_false]

theorem tableEntry_open (hlt : c < 2 ^ 32) :
    Entry.Open (BitVec.ofNat 64 c ||| tableFlags user) := by
  constructor
  · rw [BitVec.getLsbD_or]
    cases user <;> simp [tableFlags]
  · rw [BitVec.getLsbD_or, getLsbD_page_high hlt (by decide)]
    cases user <;> decide

/-- The entries of the table that `split_large_page` makes. -/
def splitEntry (e : Entry) (index : Nat) : Entry :=
  ((e &&& page2mAddrMask) + BitVec.ofNat 64 (index * pageSize)) |||
    (e &&& (pagePresent ||| pageWritable ||| pageNx ||| pageUser))

theorem page2mAddrMask_getLsbD : ∀ i < 64, page2mAddrMask.getLsbD i = decide (21 ≤ i) := by
  decide

theorem splitFlags_getLsbD : ∀ i < 64,
    (pagePresent ||| pageWritable ||| pageNx ||| pageUser).getLsbD i = decide (i < 3 ∨ i = 63) := by
  decide

theorem frameMask_getLsbD : ∀ i < 64,
    (0x000FFFFFFFFFF000 : Entry).getLsbD i = decide (12 ≤ i ∧ i < 52) := by
  decide

theorem index_getLsbD {index j : Nat} (hindex : index < 512) (hj : 21 ≤ j) :
    (BitVec.ofNat 64 (index * pageSize)).getLsbD j = false := by
  have hlt : index * pageSize < 2 ^ 21 := by
    have hpow : 512 * pageSize = 2 ^ 21 := by decide
    rw [← hpow]
    exact Nat.mul_lt_mul_of_pos_right hindex (by decide)
  rw [BitVec.getLsbD_ofNat, Nat.testBit_lt_two_pow (hlt.trans_le (Nat.pow_le_pow_right (by decide) hj)),
    Bool.and_false]

theorem splitEntry_getLsbD {index j : Nat} (hindex : index < 512) (hj : j < 64) :
    (splitEntry e index).getLsbD j = ((decide (21 ≤ j) || decide (j < 3)) && e.getLsbD j ||
      (BitVec.ofNat 64 (index * pageSize)).getLsbD j) := by
  have hzero : (e &&& page2mAddrMask) &&& BitVec.ofNat 64 (index * pageSize) = 0#64 := by
    apply BitVec.eq_of_getLsbD_eq
    intro k hk
    rw [BitVec.getLsbD_and, BitVec.getLsbD_and, page2mAddrMask_getLsbD k hk, BitVec.getLsbD_zero]
    by_cases hlow : 21 ≤ k
    · rw [index_getLsbD hindex hlow, Bool.and_false]
    · simp [hlow]
  rw [splitEntry, BitVec.add_eq_or_of_and_eq_zero _ _ hzero]
  simp only [BitVec.getLsbD_or, BitVec.getLsbD_and, page2mAddrMask_getLsbD j hj,
    splitFlags_getLsbD j hj]
  generalize e.getLsbD j = bit
  generalize (BitVec.ofNat 64 (index * pageSize)).getLsbD j = offset
  by_cases hhigh : 21 ≤ j
  · cases bit <;> simp [hhigh]
  · have hlast : j ≠ 63 := by omega
    cases bit <;> cases offset <;> simp [hhigh, hlast]

theorem index_getLsbD_low {index j : Nat} (hj : j < 12) :
    (BitVec.ofNat 64 (index * pageSize)).getLsbD j = false :=
  getLsbD_page (Nat.mul_mod_left index pageSize) hj

/-- The bits of an entry that split a large page are its rights, and they are those of the page. -/
theorem splitEntry_bit {index j : Nat} (hindex : index < 512) (hj : j < 3 ∨ j = 63) :
    (splitEntry e index).getLsbD j = e.getLsbD j := by
  rw [splitEntry_getLsbD hindex (by omega)]
  rcases hj with hlow | rfl
  · rw [index_getLsbD_low (by omega)]
    simp [hlow]
  · rw [index_getLsbD hindex (by decide)]
    simp

theorem splitEntry_frame {index : Nat} (hindex : index < 512) :
    (splitEntry e index &&& 0x000FFFFFFFFFF000).toNat =
      (e &&& 0x000FFFFFFFFFF000).toNat / 2 ^ 21 * 2 ^ 21 + index * pageSize := by
  have hlt : index * pageSize < 2 ^ 21 := by
    have hpow : 512 * pageSize = 2 ^ 21 := by decide
    rw [← hpow]
    exact Nat.mul_lt_mul_of_pos_right hindex (by decide)
  rw [← Nat.shiftRight_eq_div_pow, ← Nat.shiftLeft_eq, Nat.shiftLeft_add_eq_or_of_lt hlt]
  apply Nat.eq_of_testBit_eq
  intro j
  rw [Nat.testBit_or, Nat.testBit_shiftLeft, Nat.testBit_shiftRight]
  simp only [BitVec.testBit_toNat, BitVec.getLsbD_and]
  by_cases hj : j < 64
  · rw [splitEntry_getLsbD hindex hj, frameMask_getLsbD j hj]
    have hoffset : (index * pageSize).testBit j = (BitVec.ofNat 64 (index * pageSize)).getLsbD j := by
      rw [BitVec.getLsbD_ofNat, decide_eq_true hj, Bool.true_and]
    rw [hoffset]
    by_cases hhigh : 21 ≤ j
    · have hsum : 21 + (j - 21) = j := by omega
      rw [hsum, frameMask_getLsbD j hj, index_getLsbD hindex hhigh]
      simp [hhigh]
    · by_cases hlow : 12 ≤ j
      · have hmid : j < 52 := by omega
        have hthree : ¬ j < 3 := by omega
        simp [hhigh, hlow, hmid, hthree]
      · rw [index_getLsbD_low (by omega)]
        simp [hhigh, hlow]
  · have hoffset : (index * pageSize).testBit j = false :=
      Nat.testBit_lt_two_pow (hlt.trans_le (Nat.pow_le_pow_right (by decide) (by omega)))
    rw [hoffset]
    simp [BitVec.getLsbD_of_ge _ _ (not_lt.1 hj), BitVec.getLsbD_of_ge e (21 + (j - 21)) (by omega)]

/-- A split page leads where the page did, and with the same rights. -/
theorem splitEntry_ends :
    (splitEntry e (slotOf virt 0)).ends 12 virt { rights with user := rights.user && e.user } =
      e.ends 21 virt rights := by
  have hindex := (slotOf virt 0).isLt
  have hslot : (slotOf virt 0).val = virt / 2 ^ 12 % 512 := by
    rw [← Nat.shiftRight_eq_div_pow]
    rfl
  simp only [Entry.ends, Entry.user_eq, splitEntry_frame hindex,
    splitEntry_bit hindex (j := 1) (.inl (by decide)), splitEntry_bit hindex (j := 2) (.inl (by decide)),
    splitEntry_bit hindex (j := 63) (.inr rfl), Bool.and_assoc, Bool.and_self]
  have hphys : ∀ frame, (frame * 2 ^ 21 + slotOf virt 0 * pageSize) / 2 ^ 12 * 2 ^ 12 + virt % 2 ^ 12 =
      frame * 2 ^ 21 + virt % 2 ^ 21 := by
    intro frame
    rw [hslot]
    show (frame * 2 ^ 21 + virt / 2 ^ 12 % 512 * 4096) / 2 ^ 12 * 2 ^ 12 + virt % 2 ^ 12 = _
    omega
  rw [hphys]

/-- The entry of a page of 4 KiB. -/
def leafEntry (phys : Nat) (writable executable user : Bool) : Entry :=
  BitVec.ofNat 64 phys ||| (if executable then pagingDefaultLeafFlags writable user
    else pagingDefaultLeafFlags writable user ||| pageNx)

theorem leafEntry_present {phys : Nat} {writable executable : Bool} :
    (leafEntry phys writable executable user).present = true := by
  rw [Entry.present_eq, leafEntry, BitVec.getLsbD_or]
  cases writable <;> cases executable <;> cases user <;> simp [pagingDefaultLeafFlags]

/-- A page of 4 KiB leads to its frame, with the rights that it was mapped with. -/
theorem leafEntry_ends {phys : Nat} {writable executable : Bool} (hpage : phys % pageSize = 0)
    (hlt : phys < 2 ^ 52) (hw : rights.writable = true) (hx : rights.executable = true)
    (hu : user = true → rights.user = true) :
    (leafEntry phys writable executable user).ends 12 virt rights =
      ⟨phys + virt % pageSize, writable, user, executable⟩ := by
  have hframe : (leafEntry phys writable executable user &&& 0x000FFFFFFFFFF000).toNat = phys := by
    have hflags : (if executable then pagingDefaultLeafFlags writable user
        else pagingDefaultLeafFlags writable user ||| pageNx) &&& 0x000FFFFFFFFFF000 = 0#64 := by
      cases writable <;> cases executable <;> cases user <;> decide
    have hmask : BitVec.ofNat 64 phys &&& 0x000FFFFFFFFFF000 = BitVec.ofNat 64 phys := by
      apply BitVec.eq_of_getLsbD_eq
      intro j hj
      rw [BitVec.getLsbD_and, frameMask_getLsbD j hj]
      by_cases hlow : j < 12
      · rw [getLsbD_page hpage hlow, Bool.false_and]
      · by_cases hhigh : j < 52
        · rw [decide_eq_true ⟨not_lt.1 hlow, hhigh⟩, Bool.and_true]
        · rw [BitVec.getLsbD_ofNat, Nat.testBit_lt_two_pow
            (hlt.trans_le (Nat.pow_le_pow_right (by decide) (not_lt.1 hhigh)))]
          simp
    have hzero : BitVec.ofNat 64 phys ||| 0#64 = BitVec.ofNat 64 phys := BitVec.or_zero
    rw [leafEntry, BitVec.and_or_distrib_right, hflags, hmask, hzero, BitVec.toNat_ofNat,
      Nat.mod_eq_of_lt (hlt.trans (by decide))]
  have hone : (BitVec.ofNat 64 phys).getLsbD 1 = false := getLsbD_page hpage (by decide)
  have htwo : (BitVec.ofNat 64 phys).getLsbD 2 = false := getLsbD_page hpage (by decide)
  have hlast : (BitVec.ofNat 64 phys).getLsbD 63 = false := by
    rw [BitVec.getLsbD_ofNat, Nat.testBit_lt_two_pow (hlt.trans (by decide)), Bool.and_false]
  have hbits : (leafEntry phys writable executable user).getLsbD 1 = writable ∧
      (leafEntry phys writable executable user).getLsbD 2 = user ∧
      (leafEntry phys writable executable user).getLsbD 63 = !executable := by
    simp only [leafEntry, BitVec.getLsbD_or, hone, htwo, hlast, Bool.false_or]
    cases writable <;> cases executable <;> cases user <;> decide
  obtain ⟨hwritable, huser, hexecutable⟩ := hbits
  have hround : phys / 2 ^ 12 * 2 ^ 12 = phys := Nat.div_mul_cancel (Nat.dvd_of_mod_eq_zero hpage)
  have hrights : (rights.user && user) = user := by
    cases user with
    | false => exact Bool.and_false _
    | true => rw [hu rfl, Bool.and_true]
  simp only [Entry.ends, Entry.user_eq, hframe, hwritable, huser, hexecutable, hw, hx, hrights,
    hround, Bool.true_and, Bool.not_not]
  rfl

section

variable {rank : Nat → Nat} (h : SharedTree Entry.child tables rank 4)
include h

/-- A new and empty table changes no translation. -/
theorem translateFrom_link (hp : rank p = n + 1) (hn : 1 ≤ n) (hc : rank c = 0)
    (habsent : (tables p i).present = false) (hchild : (tables' p i).child = some c)
    (hsame : ∀ t j, t ≠ c → (t, j) ≠ (p, i) → tables' t j = tables t j)
    (hempty : ∀ j, tables' c j = 0) (ht : rank t = level) :
    translateFrom tables' virt level t rights = translateFrom tables virt level t rights := by
  apply translateFrom_of_walk
  intro m q hq
  have hrank := h.rank_of_walk (by omega) hq ht
  have hqc : q ≠ c := by
    rintro rfl
    omega
  by_cases hslot : (q, slotOf virt m) = (p, i)
  · right
    intro rights
    obtain ⟨rfl, rfl⟩ := Prod.mk.inj hslot
    obtain rfl : m = n := by omega
    cases m with
    | zero => omega
    | succ m =>
        rw [translateFrom_absent habsent, translateFrom_child hchild]
        apply translateFrom_absent
        rw [hempty]
        decide
  · exact .inl (hsame q _ hqc hslot)

/-- A large page that is split translates as before. -/
theorem translateFrom_split (hp : rank p = 2) (hc : rank c = 0)
    (hpresent : (tables p i).present = true) (hlarge : (tables p i).large = true)
    (hchild : (tables' p i).child = some c) (hopen : (tables' p i).Open)
    (huser : (tables' p i).user = (tables p i).user)
    (hsame : ∀ t j, t ≠ c → (t, j) ≠ (p, i) → tables' t j = tables t j)
    (hsplit : ∀ j : Fin 512, tables' c j = splitEntry (tables p i) j) (ht : rank t = level) :
    translateFrom tables' virt level t rights = translateFrom tables virt level t rights := by
  apply translateFrom_of_walk
  intro m q hq
  have hrank := h.rank_of_walk (by omega) hq ht
  have hqc : q ≠ c := by
    rintro rfl
    omega
  by_cases hslot : (q, slotOf virt m) = (p, i)
  · right
    intro rights
    obtain ⟨rfl, rfl⟩ := Prod.mk.inj hslot
    obtain rfl : m = 1 := by omega
    have hleaf : (tables' c (slotOf virt 0)).present = true := by
      rw [hsplit, Entry.present_eq, splitEntry_bit (slotOf virt 0).isLt (.inl (by decide)),
        ← Entry.present_eq]
      exact hpresent
    rw [translateFrom_child hchild, hopen.grants_eq, huser, translateFrom_leaf hleaf, hsplit,
      splitEntry_ends, translateFrom_large hpresent hlarge]
  · exact .inl (hsame q _ hqc hslot)

/-- An entry written in a table of rank 1 changes the translations that end there only. -/
theorem translateFrom_write (hp : rank p = 1)
    (hsame : ∀ t j, (t, j) ≠ (p, i) → tables' t j = tables t j) (ht : rank t = level)
    (hnot : Walk Entry.child tables (slotOf virt) level t 1 p → slotOf virt 0 ≠ i) :
    translateFrom tables' virt level t rights = translateFrom tables virt level t rights := by
  apply translateFrom_of_walk
  intro m q hq
  have hrank := h.rank_of_walk (by omega) hq ht
  left
  apply hsame
  rintro hslot
  obtain ⟨rfl, rfl⟩ := Prod.mk.inj hslot
  obtain rfl : m = 0 := by omega
  exact hnot hq rfl

end

/-- Addresses with the same slots are in one page. -/
theorem slots_eq_iff {virt' : Nat} : (∀ k < 4, slotOf virt k = slotOf virt' k) ↔
    virt / pageSize % 2 ^ 36 = virt' / pageSize % 2 ^ 36 := by
  have hslot : ∀ addr k, (slotOf addr k).val = addr / 2 ^ (12 + 9 * k) % 512 := by
    intro addr k
    rw [← Nat.shiftRight_eq_div_pow]
    rfl
  simp only [Fin.ext_iff, hslot]
  constructor
  · intro h
    have h0 := h 0 (by decide)
    have h1 := h 1 (by decide)
    have h2 := h 2 (by decide)
    have h3 := h 3 (by decide)
    simp only [Nat.mul_zero, Nat.mul_one, Nat.add_zero, Nat.reduceMul, Nat.reduceAdd] at h0 h1 h2 h3
    show virt / 4096 % 2 ^ 36 = virt' / 4096 % 2 ^ 36
    omega
  · intro h k hk
    have h : virt / 4096 % 2 ^ 36 = virt' / 4096 % 2 ^ 36 := h
    interval_cases k
    · show virt / 4096 % 512 = virt' / 4096 % 512
      omega
    · show virt / 2 ^ 21 % 512 = virt' / 2 ^ 21 % 512
      omega
    · show virt / 2 ^ 30 % 512 = virt' / 2 ^ 30 % 512
      omega
    · show virt / 2 ^ 39 % 512 = virt' / 2 ^ 39 % 512
      omega

end FunnyOS.Memory
