import FunnyOS.Fat32.LongNameSets
import FunnyOS.Fat32.SlotEdit

/-!
# The slots built for a name

`build_name_entries` makes one slot with the exact short name, or a complete long-name set
with an alias. Either way the slots form a closed block with one entry, and the scans read
back from them the name that was given, up to the case of letters.
-/

namespace FunnyOS.Fat32

/-! ## Characters -/

/-- A decidable fact about bytes is checked on all of them. -/
theorem forall_byte {p : UInt8 → Prop} (h : ∀ n < 256, p (UInt8.ofNat n)) : ∀ c, p c := by
  intro c
  have := h c.toNat c.toNat_lt
  rwa [UInt8.ofNat_toNat] at this

theorem kToupper_idem : ∀ c, kToupper (kToupper c) = kToupper c :=
  forall_byte (by decide +kernel)

/-- What a character of a short name is made from. -/
def ShortNameSource (c : UInt8) : Prop :=
  isInvalidLfnCharacter c = false ∧ c ≠ 0x2E ∧ kIsSpace c = false

instance (c : UInt8) : Decidable (ShortNameSource c) := inferInstanceAs (Decidable (_ ∧ _ ∧ _))

/-- A character of a short name: none of the bytes that have a meaning in a slot. -/
def ShortNameChar (c : UInt8) : Prop := c ≠ 0 ∧ c ≠ deletedMark ∧ c ≠ 0x2E ∧ c ≠ 0x20

instance (c : UInt8) : Decidable (ShortNameChar c) :=
  inferInstanceAs (Decidable (_ ∧ _ ∧ _ ∧ _))

theorem shortNameChar_toupper : ∀ c, ShortNameSource c → ShortNameChar (kToupper c) :=
  forall_byte (by decide +kernel)

theorem valid_ne_zero : ∀ c, isInvalidLfnCharacter c = false → c ≠ 0 :=
  forall_byte (by decide +kernel)

theorem decodeLfnCharacter_valid : ∀ c, isInvalidLfnCharacter c = false →
    decodeLfnCharacter c.toNat = some c :=
  forall_byte (by decide +kernel)

section

variable {name : CStr} {shortName : List UInt8} {c : UInt8}

theorem validateLongName_valid (h : validateLongName name = true) :
    ∀ c ∈ name, isInvalidLfnCharacter c = false := by
  simp only [validateLongName, Bool.and_eq_true, List.all_eq_true, Bool.not_eq_true'] at h
  exact h.1.1.2

theorem validateLongName_length (h : validateLongName name = true) :
    0 < name.length ∧ name.length < nameCapacity := by
  simp only [validateLongName, Bool.and_eq_true, decide_eq_true_eq, bne_iff_ne] at h
  exact ⟨List.length_pos_of_ne_nil h.1.1.1.1.1.1, h.1.1.1.2⟩

/-! ## Exact short names -/

theorem lastDotIndex_spec {d : Nat} (h : lastDotIndex name = some d) :
    name.getD d 0 = 0x2E ∧ d < name.length ∧ d ≠ name.length - 1 := by
  have key : ∀ n found, (∀ d, found = some d → name.getD d 0 = 0x2E ∧ d < n) →
      (∀ d, (List.range' n (name.length - n)).foldl
        (fun acc i => if name.getD i 0 = 0x2E then some i else acc) found = some d →
        name.getD d 0 = 0x2E ∧ d < max n name.length) := by
    intro n found
    generalize hk : name.length - n = k
    induction k generalizing n found with
    | zero =>
      intro hf d hd
      obtain ⟨h₁, h₂⟩ := hf d hd
      exact ⟨h₁, by omega⟩
    | succ k ih =>
      intro hf d hd
      rw [List.range'_succ, List.foldl_cons] at hd
      obtain ⟨h₁, h₂⟩ := ih (n + 1) _ (by omega) (fun d' hd' => by
        split at hd'
        · next hdot => cases hd'; exact ⟨hdot, by omega⟩
        · obtain ⟨h₁, h₂⟩ := hf d' hd'; exact ⟨h₁, by omega⟩) d hd
      exact ⟨h₁, by omega⟩
  unfold lastDotIndex at h
  simp only at h
  split at h
  · cases h
  · next hne =>
    obtain ⟨h₁, h₂⟩ := key 0 none (by simp) d (by rwa [Nat.sub_zero, ← List.range_eq_range'])
    refine ⟨h₁, by omega, ?_⟩
    rintro rfl
    exact hne (.inr h)

/-- `make_short_name_if_possible` with no dot: all characters go into the base. -/
theorem shortNameParts_none {rest : CStr} {i : Nat} {base ext b x : List UInt8}
    (h : shortNameParts none rest i base ext = some (b, x)) :
    b = base ++ rest.map kToupper ∧ x = ext ∧ (∀ c ∈ rest, c ≠ 0x2E ∧ kIsSpace c = false) ∧
      (base.length ≤ 8 → b.length ≤ 8) := by
  induction rest generalizing i base with
  | nil =>
    simp only [shortNameParts, Option.some.injEq, Prod.mk.injEq] at h
    obtain ⟨rfl, rfl⟩ := h
    exact ⟨by simp, rfl, by simp, id⟩
  | cons c rest ih =>
    rw [shortNameParts] at h
    split_ifs at h with h₁ h₂ h₃ h₄ h₅ h₆
    · cases h₂
    · obtain ⟨rfl, rfl, h₇, h₈⟩ := ih h
      refine ⟨by simp, rfl, ?_, ?_⟩
      · intro y hy
        rcases List.mem_cons.mp hy with rfl | hy
        · exact ⟨h₁, by simp only [Bool.or_eq_true, not_or] at h₃; simpa using h₃.1.1.1.1.1.1⟩
        · exact h₇ y hy
      · intro hb
        refine h₈ ?_
        rw [List.length_append, List.length_singleton]
        omega
    · simp at h₄

/-- `make_short_name_if_possible` with a dot at index `d`: what stands before it goes into the
base, the rest into the extension. -/
theorem shortNameParts_some {rest : CStr} {i d : Nat} {base ext b x : List UInt8}
    (h : shortNameParts (some d) rest i base ext = some (b, x))
    (hdot : i ≤ d → rest.getD (d - i) 0 = 0x2E ∧ d - i < rest.length) :
    (d < i → b = base ∧ x = ext ++ rest.map kToupper ∧
      (∀ c ∈ rest, c ≠ 0x2E ∧ kIsSpace c = false)) ∧
    (i ≤ d → ∃ p q, rest = p ++ 0x2E :: q ∧ p.length = d - i ∧ b = base ++ p.map kToupper ∧
      x = ext ++ q.map kToupper ∧ (∀ c ∈ p ++ q, c ≠ 0x2E ∧ kIsSpace c = false)) ∧
    (base.length ≤ 8 → b.length ≤ 8) ∧ (ext.length ≤ 3 → x.length ≤ 3) := by
  induction rest generalizing i base ext with
  | nil =>
    simp only [shortNameParts, Option.some.injEq, Prod.mk.injEq] at h
    obtain ⟨rfl, rfl⟩ := h
    exact ⟨fun _ => ⟨rfl, by simp, by simp⟩, fun hle => by have := (hdot hle).2; simp at this,
      id, id⟩
  | cons c rest ih =>
    rw [shortNameParts] at h
    have hspace : (kIsSpace c || c == 0x2B || c == 0x2C || c == 0x3B || c == 0x3D || c == 0x5B
        || c == 0x5D) ≠ true → kIsSpace c = false := by
      intro hs
      have hs' := Bool.eq_false_iff.mpr hs
      simp only [Bool.or_eq_false_iff] at hs'
      exact hs'.1.1.1.1.1.1
    by_cases hc : c = 0x2E
    · rw [if_pos hc] at h
      split_ifs at h with hd
      obtain rfl : d = i := by simpa using hd
      obtain ⟨h₁, -, h₃, h₄⟩ := ih h (fun hle => by omega)
      obtain ⟨rfl, rfl, h₅⟩ := h₁ (Nat.lt_succ_self _)
      refine ⟨fun hlt => absurd hlt (Nat.lt_irrefl _), fun _ => ?_, h₃, h₄⟩
      exact ⟨[], rest, by rw [hc]; rfl, by simp, by simp, rfl, by simpa using h₅⟩
    · rw [if_neg hc] at h
      by_cases hs : (kIsSpace c || c == 0x2B || c == 0x2C || c == 0x3B || c == 0x3D || c == 0x5B
          || c == 0x5D) = true
      · rw [if_pos hs] at h; cases h
      · rw [if_neg hs] at h
        have hok : c ≠ 0x2E ∧ kIsSpace c = false := ⟨hc, hspace hs⟩
        by_cases hlt : i < d
        · rw [if_pos (by simpa using hlt)] at h
          split_ifs at h with hlen
          have hdot' : i + 1 ≤ d → rest.getD (d - (i + 1)) 0 = 0x2E
              ∧ d - (i + 1) < rest.length := by
            intro _
            obtain ⟨h₁, h₂⟩ := hdot (Nat.le_of_lt hlt)
            rw [show d - i = d - (i + 1) + 1 by omega] at h₁ h₂
            exact ⟨by simpa using h₁, by simpa using h₂⟩
          obtain ⟨-, h₂, h₃, h₄⟩ := ih h hdot'
          have hsub : d - (i + 1) + 1 = d - i := by omega
          obtain ⟨p, q, rfl, hp, rfl, rfl, hall⟩ := h₂ hlt
          refine ⟨fun hgt => by omega, fun _ => ⟨c :: p, q, rfl, ?_, by simp, rfl, ?_⟩, ?_, h₄⟩
          · rw [List.length_cons, hp, hsub]
          · intro y hy
            rcases List.mem_cons.mp hy with rfl | hy
            · exact hok
            · exact hall y hy
          · intro _
            exact h₃ (by rw [List.length_append, List.length_singleton]; omega)
        · rw [if_neg (by simpa using hlt)] at h
          split_ifs at h with hlen
          have hgt : d < i := by
            by_contra hle
            have heq : d = i := by omega
            subst heq
            have := (hdot (Nat.le_refl _)).1
            rw [Nat.sub_self] at this
            exact hc (by simpa using this)
          obtain ⟨h₁, -, h₃, h₄⟩ := ih h (fun hle => by omega)
          obtain ⟨rfl, rfl, hall⟩ := h₁ (by omega)
          refine ⟨fun _ => ⟨rfl, by simp, ?_⟩, fun hle => by omega, h₃, ?_⟩
          · intro y hy
            rcases List.mem_cons.mp hy with rfl | hy
            · exact hok
            · exact hall y hy
          · intro _
            exact h₄ (by rw [List.length_append, List.length_singleton]; omega)

theorem padField_length {width : Nat} {part : List UInt8} (h : part.length ≤ width) :
    (padField width part).length = width := by
  rw [padField, List.length_append, List.length_replicate]; omega

/-- Formatting a padded base and extension gives them back. -/
theorem formatShortName_parts {b x : List UInt8} (hb : b.length ≤ 8) (hx : x.length ≤ 3)
    (hbc : ∀ c ∈ b, ShortNameChar c) (hxc : ∀ c ∈ x, ShortNameChar c) :
    cString (formatShortName (padField 8 b ++ padField 3 x))
      = if x = [] then b else b ++ 0x2E :: x := by
  have hspace : ∀ (part : List UInt8) (width : Nat), (∀ c ∈ part, ShortNameChar c) →
      (padField width part).takeWhile (· != 0x20) = part := by
    intro part width hpart
    rw [padField, List.takeWhile_append_of_pos (by
      intro c hc; simpa using (hpart c hc).2.2.2)]
    cases hw : width - part.length <;> simp [List.replicate_succ]
  have htake : (padField 8 b ++ padField 3 x).take 8 = padField 8 b :=
    List.take_left' (padField_length hb)
  have hdrop : (padField 8 b ++ padField 3 x).drop 8 = padField 3 x :=
    List.drop_left' (padField_length hb)
  have hzero : ∀ l : List UInt8, (∀ c ∈ l, c ≠ 0) → cString l = l := by
    intro l hl
    rw [cString, List.takeWhile_eq_self_iff]
    intro c hc
    simpa using hl c hc
  unfold formatShortName
  simp only [htake, hdrop, hspace b 8 hbc, hspace x 3 hxc]
  by_cases hnil : x = []
  · subst hnil
    rw [if_neg (by decide), if_pos rfl]
    exact hzero b fun c hc => (hbc c hc).1
  · obtain ⟨c, x', rfl⟩ := List.exists_cons_of_ne_nil hnil
    rw [if_pos (by
      rw [List.any_eq_true]
      exact ⟨c, by simp [padField], by simpa using (hxc c (by simp)).2.2.2⟩), if_neg hnil]
    refine hzero _ fun y hy => ?_
    rcases List.mem_append.mp hy with hy | hy
    · exact (hbc y hy).1
    · rcases List.mem_cons.mp hy with rfl | hy
      · decide
      · exact (hxc y hy).1

/-- What the bytes of a short name are good for: it fills its field, and its first byte marks
neither a free nor a special slot. -/
structure ShortNameOk (shortName : List UInt8) : Prop where
  length : shortName.length = 11
  first : ∃ c rest, shortName = c :: rest ∧ c ≠ 0 ∧ c ≠ deletedMark ∧ c ≠ 0x2E

theorem map_kToupper_idem (l : List UInt8) : (l.map kToupper).map kToupper = l.map kToupper := by
  rw [List.map_map]
  exact List.map_congr_left fun c _ => kToupper_idem c

/-- The exact short name is read back as the name in upper case. -/
theorem makeShortNameIfPossible_format (h : makeShortNameIfPossible name = some shortName) :
    ShortNameOk shortName ∧ cString (formatShortName shortName) = name.map kToupper := by
  unfold makeShortNameIfPossible at h
  split_ifs at h with hvalid
  have hchars := validateLongName_valid hvalid
  cases hparts : shortNameParts (lastDotIndex name) name 0 [] [] with
  | none => rw [hparts] at h; cases h
  | some parts =>
    obtain ⟨b, x⟩ := parts
    simp only [hparts] at h
    split_ifs at h with hb
    obtain rfl := Option.some.inj h
    -- the characters of both parts, and the name they are made from
    obtain ⟨hb8, hx3, hbc, hxc, hname⟩ : b.length ≤ 8 ∧ x.length ≤ 3 ∧
        (∀ c ∈ b, ShortNameChar c) ∧ (∀ c ∈ x, ShortNameChar c) ∧
        (if x = [] then b else b ++ 0x2E :: x) = name.map kToupper := by
      have hup : ∀ (l : CStr), (∀ c ∈ l, c ∈ name) →
          (∀ c ∈ l, c ≠ 0x2E ∧ kIsSpace c = false) →
          ∀ c ∈ l.map kToupper, ShortNameChar c := by
        intro l hmem hl c hc
        obtain ⟨y, hy, rfl⟩ := List.mem_map.mp hc
        exact shortNameChar_toupper y ⟨hchars y (hmem y hy), hl y hy⟩
      cases hdot : lastDotIndex name with
      | none =>
        rw [hdot] at hparts
        obtain ⟨h₁, rfl, h₃, h₄⟩ := shortNameParts_none hparts
        rw [List.nil_append] at h₁
        subst h₁
        exact ⟨h₄ (by simp), by simp, hup name (fun _ h => h) h₃, by simp, if_pos rfl⟩
      | some d =>
        obtain ⟨hd, hlt, hend⟩ := lastDotIndex_spec hdot
        rw [hdot] at hparts
        obtain ⟨-, h₂, h₃, h₄⟩ := shortNameParts_some hparts (fun _ => ⟨hd, hlt⟩)
        obtain ⟨p, q, hpq, hp, rfl, rfl, hall⟩ := h₂ (Nat.zero_le _)
        have hq : q ≠ [] := by
          rintro rfl
          rw [hpq, List.length_append, List.length_singleton] at hend
          omega
        refine ⟨h₃ (by simp), h₄ (by simp), ?_, ?_, ?_⟩
        · rw [List.nil_append]
          exact hup p (fun c hc => by rw [hpq]; simp [hc]) (fun c hc => hall c (by simp [hc]))
        · rw [List.nil_append]
          exact hup q (fun c hc => by rw [hpq]; simp [hc]) (fun c hc => hall c (by simp [hc]))
        · rw [if_neg (by simpa using hq), hpq]
          simp [show kToupper 0x2E = 0x2E by decide]
    constructor
    · refine ⟨by rw [List.length_append, padField_length hb8, padField_length hx3], ?_⟩
      obtain ⟨c, b', rfl⟩ := List.exists_cons_of_ne_nil hb
      have hc := hbc c (by simp)
      exact ⟨c, _, rfl, hc.1, hc.2.1, hc.2.2.1⟩
    · rw [formatShortName_parts hb8 hx3 hbc hxc, hname]

/-- The exact short name is read back as the name, up to the case of letters. -/
theorem makeShortNameIfPossible_spec (h : makeShortNameIfPossible name = some shortName) :
    ShortNameOk shortName ∧
      nameEqualsIgnoreCase (cString (formatShortName shortName)) name = true := by
  obtain ⟨hok, hfmt⟩ := makeShortNameIfPossible_format h
  refine ⟨hok, ?_⟩
  rw [hfmt, nameEqualsIgnoreCase, map_kToupper_idem]
  exact beq_self_eq_true _

/-! ## Aliases -/

theorem aliasParts_chars {dot : Option Nat} {rest : CStr} {i : Nat} {base ext : List UInt8}
    (hb : ∀ c ∈ base, ShortNameChar c) :
    ∀ c ∈ (aliasParts dot rest i base ext).1, ShortNameChar c := by
  induction rest generalizing i base ext with
  | nil => exact hb
  | cons y rest ih =>
    rw [aliasParts]
    split_ifs with h₁ h₂ h₃ h₄
    · exact ih hb
    · exact ih hb
    · exact ih hb
    · refine ih ?_
      intro c hc
      rcases List.mem_append.mp hc with hc | hc
      · exact hb c hc
      · rw [List.mem_singleton.mp hc]
        simp only [Bool.or_eq_true, not_or, decide_eq_true_eq, Bool.not_eq_true] at h₁
        exact shortNameChar_toupper y ⟨h₁.1.2, h₁.1.1, h₁.2⟩
    · exact ih hb

theorem buildShortAlias_spec {ordinal : Nat} (h : buildShortAlias name ordinal = some shortName) :
    ShortNameOk shortName := by
  unfold buildShortAlias at h
  simp only at h
  generalize hbase : (if (aliasParts (lastDotIndex name) name 0 [] []).1 = [] then [0x46]
    else (aliasParts (lastDotIndex name) name 0 [] []).1) = base at h
  have hchars : ∀ c ∈ base, ShortNameChar c := by
    rw [← hbase]
    split
    · intro c hc
      rw [List.mem_singleton.mp hc]
      decide
    · exact aliasParts_chars (by simp)
  split_ifs at h with hlen
  obtain rfl := Option.some.inj h
  refine ⟨by simp, ?_⟩
  rw [List.range_succ_eq_map, List.map_cons]
  refine ⟨_, _, rfl, ?_⟩
  simp only [show ¬ (8 ≤ 0 ∧ 0 - 8 < (aliasParts (lastDotIndex name) name 0 [] []).2.length) by
    omega, if_false]
  rw [List.getD_eq_getElem?_getD]
  cases htake : base.take (min ((8 + 2 ^ 32 - ((aliasDigits 10 ordinal).length + 1)) % 2 ^ 32)
      base.length) with
  | nil => rw [List.nil_append]; simp [deletedMark]
  | cons c front =>
    have hc : c ∈ base := List.mem_of_mem_take (htake ▸ List.mem_cons_self)
    exact ⟨(hchars c hc).1, (hchars c hc).2.1, (hchars c hc).2.2.1⟩

/-! ## Long-name slots -/

theorem le16_leByte {n : Nat} (h : n < 65536) : le16 (leByte n 0) (leByte n 1) = n := by
  simp only [le16, leByte, UInt8.toNat_ofNat']
  omega

theorem lfnSegmentUnit_lt {i : Nat} : lfnSegmentUnit name i < 65536 := by
  unfold lfnSegmentUnit
  split_ifs
  · have := (name.getD i 0).toNat_lt; omega
  · decide
  · decide

/-- Each code unit is a character of the name, or padding that stands for the end. -/
theorem decode_lfnSegmentUnit (hvalid : ∀ c ∈ name, isInvalidLfnCharacter c = false) (i : Nat) :
    decodeLfnCharacter (lfnSegmentUnit name i) = some (name.getD i 0) := by
  unfold lfnSegmentUnit
  by_cases hi : i < name.length
  · rw [if_pos hi]
    have hmem : name.getD i 0 ∈ name := by
      rw [List.getD_eq_getElem _ _ hi]
      exact List.getElem_mem hi
    exact decodeLfnCharacter_valid _ (hvalid _ hmem)
  · rw [if_neg hi, List.getD_eq_default _ _ (Nat.le_of_not_lt hi)]
    split <;> rfl

theorem lfnUnits_buildLfnEntry {order sum : UInt8} {offset : Nat} :
    (buildLfnEntry name order sum offset).lfnUnits
      = (List.range 13).map (fun k => lfnSegmentUnit name (offset + k)) := by
  have h : ∀ k, le16 (leByte (lfnSegmentUnit name (offset + k)) 0)
      (leByte (lfnSegmentUnit name (offset + k)) 1) = lfnSegmentUnit name (offset + k) :=
    fun k => le16_leByte lfnSegmentUnit_lt
  have hunits : (buildLfnEntry name order sum offset).lfnUnits
      = (List.range 13).map (fun k => le16 (leByte (lfnSegmentUnit name (offset + k)) 0)
        (leByte (lfnSegmentUnit name (offset + k)) 1)) := rfl
  rw [hunits]
  exact List.map_congr_left fun k _ => h k

/-- The order byte of slot number `order` of a set of `count` slots. -/
def orderByte (count order : Nat) : UInt8 :=
  UInt8.ofNat order ||| (if order = count then lfnLast else 0)

theorem orderByte_facts {count order : Nat} (h₀ : 0 < order) (h₁ : order ≤ 10) :
    (orderByte count order &&& lfnEntryMask).toNat = order ∧
    ((orderByte count order &&& lfnLast != 0) = decide (order = count)) ∧
    orderByte count order ≠ 0 ∧ orderByte count order ≠ deletedMark := by
  unfold orderByte
  by_cases hc : order = count
  · simp only [hc, if_true]
    subst hc
    interval_cases order <;> decide
  · simp only [hc, if_false]
    interval_cases order <;> decide

/-- Storing the units of one slot, all of which can be decoded. -/
theorem lfnStoreUnits_eq {f : Nat → UInt8} : ∀ (units : List Nat) (index : Nat) (st : LfnState),
    (∀ k, (hk : k < units.length) → decodeLfnCharacter units[k] = some (f (index + k))) →
    st.name (nameCapacity - 1) = 0 →
    lfnStoreUnits units index st = { st with
      name := fun i =>
        if index ≤ i ∧ i < index + units.length ∧ i + 1 < nameCapacity then f i
        else st.name i } := by
  intro units
  induction units with
  | nil =>
    intro index st _ hlast
    have hany : (List.range nameCapacity).any (fun i => st.name i == 0) = true := by
      rw [List.any_eq_true]
      exact ⟨nameCapacity - 1, by simp [nameCapacity], by simpa using hlast⟩
    simp only [lfnStoreUnits, lfnTerminateName, hany, if_true]
    have hnone : ∀ i, ¬ (index ≤ i ∧ i < index + 0 ∧ i + 1 < nameCapacity) := by
      intro i; omega
    simp only [List.length_nil, hnone, if_false]
  | cons u units ih =>
    intro index st hdec hlast
    have hu : decodeLfnCharacter u = some (f index) := hdec 0 (by simp)
    rw [lfnStoreUnits, hu]
    simp only
    rw [ih (index + 1) _ ?_ ?_]
    · congr 1
      funext i
      simp only [lfnStoreCharacter, List.length_cons]
      by_cases h₁ : index + 1 ≤ i ∧ i < index + 1 + units.length ∧ i + 1 < nameCapacity
      · rw [if_pos h₁, if_pos (by omega)]
      · rw [if_neg h₁]
        by_cases h₂ : index + 1 < nameCapacity
        · rw [if_pos h₂]
          by_cases h₃ : i = index
          · subst h₃
            rw [if_pos rfl, if_pos (by omega)]
          · rw [if_neg h₃, if_neg (by omega)]
        · rw [if_neg h₂, if_neg (by omega)]
    · intro k hk
      have := hdec (k + 1) (by simpa using hk)
      rw [List.getElem_cons_succ] at this
      rw [this]
      congr 2
      omega
    · simp only [lfnStoreCharacter]
      by_cases h₂ : index + 1 < nameCapacity
      · rw [if_pos h₂, if_neg (by simp only [nameCapacity] at *; omega)]
        exact hlast
      · rw [if_neg h₂]
        exact hlast

/-- The slot number `order` of the long-name set for `name`. -/
def lfnSlot (name : CStr) (sum : UInt8) (count order : Nat) : DirectoryEntry :=
  buildLfnEntry name (orderByte count order) sum ((order - 1) * 13)

theorem buildLfnEntries_eq (name : CStr) (sum : UInt8) (count : Nat) :
    buildLfnEntries name sum count
      = (List.range count).map (fun i => lfnSlot name sum count (count - i)) := by
  refine List.map_congr_left ?_
  intro i hi
  have := List.mem_range.mp hi
  have hiff : (count - i = count) = (i = 0) := by
    refine propext ⟨fun h => by omega, fun h => by omega⟩
  simp only [lfnSlot, orderByte, hiff]

section

variable {sum : UInt8} {count order : Nat}

variable (name sum count) in
theorem lfnSlot_kind (h₀ : 0 < order) (h₁ : order ≤ 10) :
    (lfnSlot name sum count order).kind = .longName := by
  obtain ⟨-, -, h₂, h₃⟩ := orderByte_facts h₀ h₁
  have hname0 : (lfnSlot name sum count order).name0 = orderByte count order := rfl
  have hattr : (lfnSlot name sum count order).attributes = attrLfn := rfl
  unfold DirectoryEntry.kind
  rw [hname0, if_neg h₂, if_neg h₃, if_pos hattr]

variable (name sum count) in
theorem lfnSlot_order (h₀ : 0 < order) (h₁ : order ≤ 10) :
    (lfnSlot name sum count order).lfnOrder = order :=
  (orderByte_facts h₀ h₁).1

variable (name sum count) in
theorem lfnSlot_isLast (h₀ : 0 < order) (h₁ : order ≤ 10) :
    (lfnSlot name sum count order).isLfnLast = decide (order = count) :=
  (orderByte_facts h₀ h₁).2.1

variable (sum count order) in
theorem lfnSlot_decodable (hvalid : ∀ c ∈ name, isInvalidLfnCharacter c = false) :
    (lfnSlot name sum count order).lfnUnits.all
      (fun u => (decodeLfnCharacter u).isSome) = true := by
  rw [lfnSlot, lfnUnits_buildLfnEntry, List.all_map, List.all_eq_true]
  intro k _
  simp [decode_lfnSegmentUnit hvalid]

/-- The driver's state once the slots down to number `order` have been read. -/
structure NameRead (name : CStr) (sum : UInt8) (order : Nat) (st : LfnState) : Prop where
  active : st.active = true
  valid : st.valid = true
  checksum : st.checksum = sum
  expected : st.expectedOrder.toNat = order
  chars : ∀ i, (order - 1) * 13 ≤ i → st.name i = if i + 1 < nameCapacity then name.getD i 0 else 0
  rest : ∀ i, i < (order - 1) * 13 → st.name i = 0

/-- Reading one slot of the set. -/
theorem nameRead_step (hvalid : ∀ c ∈ name, isInvalidLfnCharacter c = false)
    (hcount : name.length ≤ count * 13) (h₀ : 0 < order) (h₁ : order ≤ 10)
    {st : LfnState} (h : if order = count then st.Dead else NameRead name sum (order + 1) st) :
    SlotStrict st (lfnSlot name sum count order) ∧
      NameRead name sum order (lfnStep st (lfnSlot name sum count order)) := by
  have hk := lfnSlot_kind name sum count h₀ h₁
  have hord := lfnSlot_order name sum count h₀ h₁
  have hlast := lfnSlot_isLast name sum count h₀ h₁
  have hdec := lfnSlot_decodable sum count order hvalid
  have hne : (lfnSlot name sum count order).lfnOrder ≠ 0 := by omega
  have hstored : ∀ base : LfnState, base.name (nameCapacity - 1) = 0 →
      lfnStoreUnits (lfnSlot name sum count order).lfnUnits
        (((lfnSlot name sum count order).lfnOrder - 1) * 13) base
      = { base with name := fun i =>
          if (order - 1) * 13 ≤ i ∧ i < (order - 1) * 13 + 13 ∧ i + 1 < nameCapacity
          then name.getD i 0 else base.name i } := by
    intro base hbase
    rw [hord, lfnStoreUnits_eq (f := fun i => name.getD i 0) _ _ _ ?_ hbase]
    · simp [lfnSlot, lfnUnits_buildLfnEntry]
    · intro k hk
      simp only [lfnSlot, lfnUnits_buildLfnEntry, List.getElem_map, List.getElem_range]
      exact decode_lfnSegmentUnit hvalid _
  have hsum : (lfnSlot name sum count order).lfnChecksum = sum := rfl
  unfold lfnStep SlotStrict
  simp only [hk]
  by_cases hc : order = count
  · rw [if_pos hc] at h
    have hl : (lfnSlot name sum count order).isLfnLast = true := by rw [hlast]; simpa using hc
    refine ⟨⟨hdec, hne, .inl ⟨hl, h⟩⟩, ?_⟩
    rw [processLfnEntry_first hl hne, hstored _ rfl]
    refine ⟨rfl, rfl, rfl, hord, ?_, ?_⟩
    · intro i hi
      simp only
      by_cases hcap : i + 1 < nameCapacity
      · by_cases hin : i < (order - 1) * 13 + 13
        · rw [if_pos ⟨hi, hin, hcap⟩, if_pos hcap]
        · rw [if_neg (by omega), if_pos hcap, List.getD_eq_default _ _ (by omega)]
      · rw [if_neg (by omega), if_neg hcap]
    · intro i hi
      exact if_neg (by omega)
  · rw [if_neg hc] at h
    have hl : (lfnSlot name sum count order).isLfnLast = false := by rw [hlast]; simpa using hc
    have hlive : ¬ st.Dead := by simp [LfnState.Dead, h.active, h.valid]
    have hexp : (lfnSlot name sum count order).lfnOrder + 1 = st.expectedOrder.toNat := by
      rw [hord, h.expected]
    have hcs : (lfnSlot name sum count order).lfnChecksum = st.checksum := by
      rw [hsum, h.checksum]
    refine ⟨⟨hdec, hne, .inr ⟨hl, hlive, hexp, hcs⟩⟩, ?_⟩
    have hzero : st.name (nameCapacity - 1) = 0 := by
      by_cases hi : (order + 1 - 1) * 13 ≤ nameCapacity - 1
      · rw [h.chars _ hi, if_neg (by decide)]
      · exact h.rest _ (by omega)
    rw [processLfnEntry_next hl hne hlive hexp hcs,
      hstored
        { st with expectedOrder := (lfnSlot name sum count order).name0 &&& lfnEntryMask } hzero]
    refine ⟨h.active, h.valid, h.checksum, hord, ?_, ?_⟩
    · intro i hi
      simp only
      by_cases hin : i < (order - 1) * 13 + 13
      · by_cases hcap : i + 1 < nameCapacity
        · rw [if_pos ⟨hi, hin, hcap⟩, if_pos hcap]
        · rw [if_neg (by omega), if_neg hcap]
          by_cases hi' : (order + 1 - 1) * 13 ≤ i
          · rw [h.chars i hi', if_neg hcap]
          · exact h.rest i (by omega)
      · rw [if_neg (by omega)]
        exact h.chars i (by omega)
    · intro i hi
      simp only
      rw [if_neg (by omega)]
      exact h.rest i (by omega)

/-- Reading the slots from number `n` down to 1. -/
theorem nameRead_run (sum : UInt8) (hvalid : ∀ c ∈ name, isInvalidLfnCharacter c = false)
    (hcount : name.length ≤ count * 13) (h₁ : count ≤ 10) :
    ∀ (n : Nat) (st : LfnState), 0 < n → n ≤ count →
    (if n = count then st.Dead else NameRead name sum (n + 1) st) →
    Checked lfnStep SlotStrict st ((List.range n).map (fun i => lfnSlot name sum count (n - i))) ∧
      NameRead name sum 1
        (((List.range n).map (fun i => lfnSlot name sum count (n - i))).foldl lfnStep st) := by
  intro n
  induction n with
  | zero => intro st h; omega
  | succ n ih =>
    intro st _ hle h
    obtain ⟨hok, hread⟩ := nameRead_step hvalid hcount (by omega) (by omega) h
    have hmap : (List.range (n + 1)).map (fun i => lfnSlot name sum count (n + 1 - i))
        = lfnSlot name sum count (n + 1)
          :: (List.range n).map (fun i => lfnSlot name sum count (n - i)) := by
      rw [List.range_succ_eq_map, List.map_cons, List.map_map]
      congr 1
      refine List.map_congr_left fun i _ => ?_
      simp only [Function.comp, Nat.succ_eq_add_one, Nat.add_sub_add_right]
    rw [hmap]
    by_cases hn : n = 0
    · subst hn
      exact ⟨⟨hok, trivial⟩, hread⟩
    · obtain ⟨h₂, h₃⟩ := ih (lfnStep st (lfnSlot name sum count (n + 1))) (by omega) (by omega)
        (by rw [if_neg (by omega)]; exact hread)
      exact ⟨⟨hok, h₂⟩, h₃⟩

end

/-! ## The slots of a name -/

/-- The attributes of a file or a directory. -/
def LiveAttributes (attributes : UInt8) : Prop :=
  attributes ≠ attrLfn ∧ attributes &&& attrVolumeId = 0

instance (attributes : UInt8) : Decidable (LiveAttributes attributes) :=
  inferInstanceAs (Decidable (_ ∧ _))

section

variable {attributes : UInt8} {firstCluster size start : Nat} {new : List DirectoryEntry}

variable (attributes firstCluster size) in
theorem buildShortEntry_name (h : shortName.length = 11) :
    (buildShortEntry shortName attributes firstCluster size).name = shortName := by
  refine List.ext_getElem (by simp [DirectoryEntry.name, h]) ?_
  intro i h₁ h₂
  simp only [DirectoryEntry.name, List.length_ofFn] at h₁
  have hbyte : (buildShortEntry shortName attributes firstCluster size).byte ⟨i, by omega⟩
      = shortName.getD i 0 := by
    interval_cases i <;> rfl
  rw [List.getD_eq_getElem _ _ h₂] at hbyte
  simp only [DirectoryEntry.name, List.getElem_ofFn]
  exact hbyte

theorem buildShortEntry_attributes :
    (buildShortEntry shortName attributes firstCluster size).attributes = attributes := rfl

variable (firstCluster size) in
theorem buildShortEntry_live (h : ShortNameOk shortName) (ha : LiveAttributes attributes) :
    (buildShortEntry shortName attributes firstCluster size).kind = .live := by
  obtain ⟨c, rest, rfl, h₀, h₁, h₂⟩ := h.first
  have hn : (buildShortEntry (c :: rest) attributes firstCluster size).name0 = c := rfl
  rw [DirectoryEntry.kind_eq_live, hn, buildShortEntry_attributes]
  exact ⟨h₀, h₁, ha.1, ha.2, h₂⟩

/-- The buffer that holds the whole name is read back as the name. -/
theorem NameRead.cString_eq {sum : UInt8} {st : LfnState} (h : NameRead name sum 1 st)
    (hname : validateLongName name = true) :
    cString ((List.range nameCapacity).map st.name) = name := by
  have hlen := (validateLongName_length hname).2
  have hchars := validateLongName_valid hname
  have hbuf : (List.range nameCapacity).map st.name
      = name ++ List.replicate (nameCapacity - name.length) 0 := by
    refine List.ext_getElem (by simp; omega) ?_
    intro i h₁ h₂
    rw [List.getElem_map, List.getElem_range, h.chars i (by omega)]
    by_cases hi : i < name.length
    · rw [List.getElem_append_left hi, if_pos (by omega), List.getD_eq_getElem _ _ hi]
    · rw [List.getElem_append_right (by omega), List.getElem_replicate,
        List.getD_eq_default _ _ (by omega), ite_self]
  rw [hbuf, cString, List.takeWhile_append_of_pos]
  · obtain ⟨n, hn⟩ : ∃ n, nameCapacity - name.length = n + 1 :=
      ⟨nameCapacity - name.length - 1, by omega⟩
    simp [hn, List.replicate_succ]
  · intro c hc
    simpa using valid_ne_zero c (hchars c hc)

/-- The slots of a long name are read back, whatever dead state they are read from. -/
theorem buildLfnEntries_read (hname : validateLongName name = true) (sum : UInt8) (st : LfnState)
    (hst : st.Dead) :
    Checked lfnStep SlotStrict st (buildLfnEntries name sum (lfnEntryCountForName name)) ∧
      NameRead name sum 1
        ((buildLfnEntries name sum (lfnEntryCountForName name)).foldl lfnStep st) ∧
      ∀ e ∈ buildLfnEntries name sum (lfnEntryCountForName name), e.kind = .longName := by
  obtain ⟨hpos, hcap⟩ := validateLongName_length hname
  simp only [nameCapacity] at hcap
  obtain ⟨hcount₁, hcount₂, hcount₃⟩ : 0 < lfnEntryCountForName name ∧
      lfnEntryCountForName name ≤ 10 ∧ name.length ≤ lfnEntryCountForName name * 13 := by
    unfold lfnEntryCountForName; omega
  generalize lfnEntryCountForName name = count at *
  obtain ⟨hchecked, hread⟩ := nameRead_run sum (validateLongName_valid hname) hcount₃
    hcount₂ count st hcount₁ (Nat.le_refl _) (by rw [if_pos rfl]; exact hst)
  rw [← buildLfnEntries_eq] at hchecked hread
  refine ⟨hchecked, hread, ?_⟩
  intro e he
  rw [buildLfnEntries_eq] at he
  obtain ⟨i, hi, rfl⟩ := List.mem_map.mp he
  have := List.mem_range.mp hi
  exact lfnSlot_kind _ _ _ (by omega) (by omega)

/-- The long name that has been read attaches to the short slot that follows. -/
theorem NameRead.decode_eq {st : LfnState} {e : DirectoryEntry}
    (h : NameRead name (shortNameChecksum shortName) 1 st) (hname : validateLongName name = true)
    (he : e.name = shortName) :
    st.attached e = true ∧ decodeDirectoryEntryName e st = name := by
  obtain ⟨hpos, -⟩ := validateLongName_length hname
  have hatt : st.attached e = true := by
    have h1 : st.expectedOrder = 1 := UInt8.toNat_inj.mp h.expected
    simp [LfnState.attached, h.active, h.valid, h1, h.checksum, he]
  have hfirst : st.name 0 ≠ 0 := by
    rw [h.chars 0 (Nat.zero_le _), if_pos (by decide), List.getD_eq_getElem _ _ hpos]
    exact valid_ne_zero _ (validateLongName_valid hname _ (List.getElem_mem hpos))
  refine ⟨hatt, ?_⟩
  unfold decodeDirectoryEntryName
  rw [if_pos (by rw [hatt]; simpa using hfirst)]
  exact h.cString_eq hname

/-- What the slots built for a name are in a directory: one entry with that name. -/
structure NameBlock (name : CStr) (entry : DirectoryEntry) (new : List DirectoryEntry) :
    Prop where
  closed : ClosedBlock SlotStrict new
  length_pos : 0 < new.length
  length_le : new.length ≤ maxNameEntries
  parts : ∃ lfn, new = lfn ++ [entry] ∧ ∀ e ∈ lfn, e.kind = .longName
  live : entry.kind = .live
  items : ∃ found attached, nameEqualsIgnoreCase found name = true ∧
    ∀ start, dirItems new start .initial
      = [⟨start + (new.length - 1), entry, found, attached⟩]

theorem dirItems_longNames {es : List DirectoryEntry} {index : Nat} {st : LfnState}
    (h : ∀ e ∈ es, e.kind = .longName) : dirItems es index st = [] := by
  induction es generalizing index st with
  | nil => rfl
  | cons e es ih =>
    simp only [dirItems, h e (by simp)]
    exact ih (fun x hx => h x (by simp [hx]))

/-- The slots that `build_name_entries` makes. -/
theorem NameEntries.block (h : NameEntries name attributes firstCluster size shortName new)
    (hname : validateLongName name = true) (ha : LiveAttributes attributes) :
    NameBlock name (buildShortEntry shortName attributes firstCluster size) new := by
  have hcap := (validateLongName_length hname).2
  simp only [nameCapacity] at hcap
  cases h with
  | short exact =>
    obtain ⟨hok, hfmt⟩ := makeShortNameIfPossible_spec exact
    have hlive := buildShortEntry_live firstCluster size hok ha
    have hn := buildShortEntry_name attributes firstCluster size hok.length
    have hdecode : decodeDirectoryEntryName
        (buildShortEntry shortName attributes firstCluster size) .initial
          = cString (formatShortName shortName) := by
      rw [LfnState.dead_initial.decode_eq, hn]
    refine ⟨⟨⟨?_, trivial⟩, lfnStep_dead (by simp [hlive])⟩, by simp, show 1 ≤ maxNameEntries by decide,
      ⟨[], rfl, by simp⟩, hlive, _, false, hfmt, fun start => ?_⟩
    · simp only [SlotStrict, hlive]
      exact .inl LfnState.dead_initial
    · simp only [dirItems, hlive, hdecode, LfnState.dead_initial.not_attached]
      rfl
  | long ordinal made =>
    have hok := buildShortAlias_spec made
    have hlive := buildShortEntry_live firstCluster size hok ha
    have hn := buildShortEntry_name attributes firstCluster size hok.length
    obtain ⟨hchecked, hread, hkinds⟩ := buildLfnEntries_read hname
      (shortNameChecksum shortName) _ LfnState.dead_initial
    have hlen : (buildLfnEntries name (shortNameChecksum shortName)
        (lfnEntryCountForName name)).length ≤ 10 := by
      simp only [buildLfnEntries, List.length_map, List.length_range, lfnEntryCountForName]
      omega
    generalize buildLfnEntries name (shortNameChecksum shortName)
      (lfnEntryCountForName name) = lfn at *
    obtain ⟨hatt, hdecode⟩ := hread.decode_eq hname hn
    refine ⟨⟨checked_append.mpr ⟨hchecked, ?_, trivial⟩, ?_⟩, by simp, ?_, ⟨lfn, rfl, hkinds⟩,
      hlive, name, true, by simp [nameEqualsIgnoreCase], fun start => ?_⟩
    · simp only [SlotStrict, hlive]
      exact .inr hatt
    · rw [List.foldl_append]
      exact lfnStep_dead (by simp [hlive])
    · rw [List.length_append, List.length_singleton, maxNameEntries]
      omega
    · rw [dirItems_append (checked_name0_ne hchecked), dirItems_longNames hkinds,
        List.nil_append]
      simp only [dirItems, hlive, hdecode, hatt, List.length_append, List.length_singleton,
        Nat.add_sub_cancel]

theorem NameEntries.shortName_length
    (h : NameEntries name attributes firstCluster size shortName new) : shortName.length = 11 := by
  cases h with
  | short exact => exact (makeShortNameIfPossible_spec exact).1.length
  | long ordinal made => exact (buildShortAlias_spec made).length

/-- The short name of the entry that has been built is not taken. -/
theorem NameBuilt.unused_entry {env : Env} {es : List DirectoryEntry} {ignore : Option (List UInt8)}
    (h : NameBuilt env es name attributes firstCluster size ignore shortName new)
    (hrel : ¬ env.Faulty) :
    scanForShortName (buildShortEntry shortName attributes firstCluster size).name ignore es
      ≠ .found () := by
  rw [buildShortEntry_name _ _ _ h.entries.shortName_length]
  exact h.unused.resolve_right hrel

/-- The slots are acceptable whatever the rule for long-name slots. -/
theorem NameBlock.closedBlock {entry : DirectoryEntry} {ok : LfnState → DirectoryEntry → Prop}
    [NameRules ok] (h : NameBlock name entry new) : ClosedBlock ok new :=
  ⟨(h.closed.tidy.simulate lfnStep ok Eq
    (fun _ _ _ hR hok => hR ▸ ⟨NameRules.strict hok, rfl⟩) rfl).1, h.closed.dead⟩

end

end

end FunnyOS.Fat32
