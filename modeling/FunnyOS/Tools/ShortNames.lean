import FunnyOS.Fat32.ExactNames

/-!
# The names of an image

`short_name_11` of `tools/make_fat32_image.py` beside the kernel's functions on names. A Python
string is the list of its characters, and the kernel gets the bytes of a name in UTF-8. What Python
makes of characters beyond ASCII depends on its Unicode data, and these are left open. A lone
surrogate is no letter and stays one in upper case, so no name with one is accepted.

The two agree on the names that are ASCII and do not end in a dot, and on no others: a dot with
nothing behind it is dropped, and characters are checked in upper case, where some beyond ASCII
have letters of ASCII.
-/

namespace FunnyOS.Tools

open Fat32

/-! ## The tool -/

/-- What `str.upper` and `str.isalnum` know of the characters beyond ASCII. -/
structure UnicodeData where
  upper : Char → List Char
  isalnum : Char → Bool

/-- `str.upper` for one character. -/
def UnicodeData.upperChar (u : UnicodeData) (c : Char) : List Char :=
  if c.toNat < 128 then [c.toUpper] else u.upper c

/-- `str.upper`. -/
def UnicodeData.strUpper (u : UnicodeData) (s : List Char) : List Char := s.flatMap u.upperChar

/-- `str.isalnum` for one character. -/
def UnicodeData.strIsalnum (u : UnicodeData) (c : Char) : Bool :=
  if c.toNat < 128 then c.isAlphanum else u.isalnum c

/-- `str.split` at the first dot, where there is one. -/
def splitDot (s : List Char) : List Char × List Char :=
  (s.takeWhile (· != '.'), (s.dropWhile (· != '.')).drop 1)

/-- `str.ljust`. -/
def strLjust (s : List Char) (width : Nat) : List Char :=
  s ++ List.replicate (width - s.length) ' '

/-- `str.encode("ascii")`. -/
def encodeAscii (s : List Char) : Except String (List UInt8) :=
  if s.all (fun c => c.toNat < 128) then .ok (s.map fun c => UInt8.ofNat c.toNat)
  else .error "ordinal not in range(128)"

/-- `is_valid_short_char`. -/
def isValidShortChar (u : UnicodeData) (ch : Char) : Bool := u.strIsalnum ch || ch == '_'

/-- `short_name_11`. -/
def shortName11 (u : UnicodeData) (name : List Char) : Except String (List UInt8) :=
  let upper := u.strUpper name
  if upper = ['.'] ∨ upper = ['.', '.'] then .error "dot entries must be generated internally"
  else if upper.count '.' > 1 then .error ("invalid 8.3 name: " ++ String.ofList name)
  else
    let parts := if '.' ∈ upper then splitDot upper else (upper, [])
    let base := parts.1
    let ext := parts.2
    if base = [] ∨ base.length > 8 ∨ ext.length > 3 then
      .error ("name does not fit 8.3 format: " ++ String.ofList name)
    else if !(base ++ ext).all (isValidShortChar u) then
      .error ("name contains unsupported FAT character: " ++ String.ofList name)
    else encodeAscii (strLjust base 8 ++ strLjust ext 3)

/-! ## Agreement -/

/-- The bytes of a name. -/
def nameBytes (name : List Char) : CStr := name.flatMap String.utf8EncodeChar

/-- The kernel finds the entry that the tool has stored as `bytes` under its name, and would store
the name in the same way. -/
structure Agrees (name : List Char) (bytes : List UInt8) : Prop where
  found : nameEqualsIgnoreCase (cString (formatShortName bytes)) (nameBytes name) = true
  valid : validateLongName (nameBytes name) = true
  stored : makeShortNameIfPossible (nameBytes name) = some bytes

/-- A name in ASCII that does not end in a dot. -/
def Plain (name : List Char) : Prop := (∀ c ∈ name, c.toNat < 128) ∧ name.getLast? ≠ some '.'

instance (name : List Char) : Decidable (Plain name) :=
  decidable_of_iff (name.all (fun c => c.toNat < 128) = true ∧ name.getLast? ≠ some '.')
    (by simp [Plain])

section

variable {u : UnicodeData} {name name' s base ext p q : List Char} {bytes bytes' : List UInt8}
  {c : Char}

/-! ### Characters -/

/-- A decidable fact about ASCII characters is checked on all of them. -/
theorem forall_ascii {P : Char → Prop} (h : ∀ n < 128, P (Char.ofNat n)) :
    ∀ c, c.toNat < 128 → P c := by
  intro c hc
  have hchar := h c.toNat hc
  rwa [Char.ofNat_toNat] at hchar

/-- The byte of an ASCII character. -/
def asciiByte (c : Char) : UInt8 := UInt8.ofNat c.toNat

theorem toUpper_ascii : ∀ c : Char, c.toNat < 128 →
    c.toUpper.toNat < 128 ∧ asciiByte c.toUpper = kToupper (asciiByte c) ∧
      (c.toUpper = '.' → c = '.') :=
  forall_ascii (by decide +kernel)

/-- The characters that the tool accepts are kept by the kernel. -/
theorem exactChar_ascii : ∀ c : Char, c.toNat < 128 →
    (c.toUpper.isAlphanum || c.toUpper == '_') = true → ExactChar (asciiByte c) :=
  forall_ascii (by decide +kernel)

theorem utf8EncodeChar_ascii (h : c.toNat < 128) : String.utf8EncodeChar c = [asciiByte c] := by
  have hsize : c.utf8Size = 1 := by
    rw [Char.utf8Size_eq_one_iff, UInt32.le_iff_toNat_le]
    exact Nat.le_of_lt_succ h
  rw [String.utf8EncodeChar_eq_singleton hsize, asciiByte]
  rfl

/-- A character beyond ASCII begins with a byte from 0x80 on. -/
theorem utf8EncodeChar_beyond (h : ¬ c.toNat < 128) :
    ∃ b ∈ String.utf8EncodeChar c, isInvalidLfnCharacter b = true := by
  have hlast : ∀ m < 64, isInvalidLfnCharacter (UInt8.ofNat (m + 0x80)) = true := by decide +kernel
  refine ⟨UInt8.ofNat (c.toNat % 64 + 0x80), ?_, hlast _ (Nat.mod_lt _ (by decide))⟩
  have hbeyond : ¬ c.val.toNat ≤ 0x7F := fun hle => h (Nat.lt_succ_of_le hle)
  unfold String.utf8EncodeChar
  simp only [if_neg hbeyond]
  split_ifs <;> simp

theorem nameBytes_ascii (h : ∀ c ∈ name, c.toNat < 128) : nameBytes name = name.map asciiByte := by
  induction name with
  | nil => rfl
  | cons c rest ih =>
    rw [nameBytes, List.flatMap_cons, utf8EncodeChar_ascii (h c List.mem_cons_self)]
    exact congrArg _ (ih fun c' hc' => h c' (List.mem_cons_of_mem c hc'))

theorem strUpper_ascii (h : ∀ c ∈ name, c.toNat < 128) :
    u.strUpper name = name.map Char.toUpper := by
  induction name with
  | nil => rfl
  | cons c rest ih =>
    rw [UnicodeData.strUpper, List.flatMap_cons, UnicodeData.upperChar,
      if_pos (h c List.mem_cons_self)]
    exact congrArg _ (ih fun c' hc' => h c' (List.mem_cons_of_mem c hc'))

/-! ### What the tool accepts -/

/-- The base and the extension of a name that the tool accepts. -/
structure Accepted (u : UnicodeData) (name base ext : List Char) (bytes : List UInt8) : Prop where
  name : u.strUpper name = base ∧ ext = [] ∨ u.strUpper name = base ++ '.' :: ext
  base_ne : base ≠ []
  base_le : base.length ≤ 8
  ext_le : ext.length ≤ 3
  valid : ∀ c ∈ base ++ ext, isValidShortChar u c = true
  ascii : ∀ c ∈ base ++ ext, c.toNat < 128
  bytes : bytes = (strLjust base 8 ++ strLjust ext 3).map asciiByte

theorem splitDot_eq (h : '.' ∈ s) : s = (splitDot s).1 ++ '.' :: (splitDot s).2 := by
  induction s with
  | nil => cases h
  | cons c rest ih =>
    by_cases hc : c = '.'
    · subst hc
      rfl
    · have hrest : '.' ∈ rest := (List.mem_cons.mp h).resolve_left (Ne.symm hc)
      have hstep : splitDot (c :: rest) = (c :: (splitDot rest).1, (splitDot rest).2) := by
        simp [splitDot, hc]
      rw [hstep]
      exact congrArg _ (ih hrest)

theorem shortName11_accepted (h : shortName11 u name = .ok bytes) :
    ∃ base ext, Accepted u name base ext bytes := by
  unfold shortName11 at h
  simp only at h
  generalize hparts : (if '.' ∈ u.strUpper name then splitDot (u.strUpper name)
    else (u.strUpper name, [])) = parts at h
  split_ifs at h with hdots hcount hfits hchars
  obtain ⟨hne, hfits⟩ := not_or.mp hfits
  obtain ⟨hbase, hext⟩ := not_or.mp hfits
  have hvalid : (parts.1 ++ parts.2).all (isValidShortChar u) = true := by simpa using hchars
  unfold encodeAscii at h
  split_ifs at h with hascii
  rw [List.all_eq_true] at hvalid hascii
  refine ⟨parts.1, parts.2, ?_, hne, not_lt.mp hbase, not_lt.mp hext, hvalid, ?_,
    (Except.ok.inj h).symm⟩
  · by_cases hdot : '.' ∈ u.strUpper name
    · rw [if_pos hdot] at hparts
      rw [← hparts]
      exact .inr (splitDot_eq hdot)
    · rw [if_neg hdot] at hparts
      rw [← hparts]
      exact .inl ⟨rfl, rfl⟩
  · intro c hc
    have hmem : c ∈ strLjust parts.1 8 ++ strLjust parts.2 3 := by
      rcases List.mem_append.mp hc with hc | hc
      · exact List.mem_append_left _ (List.mem_append_left _ hc)
      · exact List.mem_append_right _ (List.mem_append_left _ hc)
    simpa using hascii c hmem

/-! ### Both -/

theorem strLjust_bytes {width : Nat} :
    (strLjust p width).map asciiByte = padField width (p.map asciiByte) := by
  rw [strLjust, padField, List.map_append, List.map_replicate, List.length_map]
  rfl

theorem upper_bytes (h : ∀ c ∈ p, c.toNat < 128) :
    (p.map Char.toUpper).map asciiByte = (p.map asciiByte).map kToupper := by
  rw [List.map_map, List.map_map]
  exact List.map_congr_left fun c hc => (toUpper_ascii c (h c hc)).2.1

/-- A part of an accepted name consists of characters that the kernel keeps. -/
theorem exactChars (hascii : ∀ c ∈ p, c.toNat < 128)
    (hvalid : ∀ c ∈ p.map Char.toUpper, isValidShortChar u c = true) :
    ∀ b ∈ p.map asciiByte, ExactChar b := by
  intro b hb
  obtain ⟨c, hc, rfl⟩ := List.mem_map.mp hb
  have hupper := hvalid c.toUpper (List.mem_map_of_mem hc)
  rw [isValidShortChar, UnicodeData.strIsalnum, if_pos (toUpper_ascii c (hascii c hc)).1] at hupper
  exact exactChar_ascii c (hascii c hc) hupper

/-- The kernel agrees on the plain names that the tool accepts. -/
theorem agrees_of_plain (h : shortName11 u name = .ok bytes) (hplain : Plain name) :
    Agrees name bytes := by
  obtain ⟨base, ext, haccepted⟩ := shortName11_accepted h
  obtain ⟨hascii, hlast⟩ := hplain
  have hbase := haccepted.base_le
  have hext := haccepted.ext_le
  have hvalid := haccepted.valid
  have hbytes := haccepted.bytes
  suffices hkernel : validateLongName (nameBytes name) = true ∧
      makeShortNameIfPossible (nameBytes name) = some bytes from
    ⟨(makeShortNameIfPossible_spec hkernel.2).2, hkernel.1, hkernel.2⟩
  rw [nameBytes_ascii hascii]
  have hname := haccepted.name
  rw [strUpper_ascii hascii] at hname
  rcases hname with ⟨rfl, rfl⟩ | hname
  · have hne : name.map asciiByte ≠ [] := by simpa using haccepted.base_ne
    have hchars := exactChars hascii fun c hc => hvalid c (List.mem_append_left _ hc)
    rw [List.length_map] at hbase
    rw [List.map_append, strLjust_bytes, upper_bytes hascii] at hbytes
    rw [hbytes]
    exact makeShortNameIfPossible_base hne hchars (by rwa [List.length_map])
  · obtain ⟨p, r, rfl, rfl, hr⟩ := List.map_eq_append_iff.mp hname
    obtain ⟨c, q, rfl, hc, rfl⟩ := List.map_eq_cons_iff.mp hr
    obtain rfl := (toUpper_ascii c (hascii c (by simp))).2.2 hc
    have hp : ∀ c ∈ p, c.toNat < 128 := fun c hc => hascii c (List.mem_append_left _ hc)
    have hq : ∀ c ∈ q, c.toNat < 128 :=
      fun c hc => hascii c (List.mem_append_right _ (List.mem_cons_of_mem _ hc))
    have hqne : q ≠ [] := by
      rintro rfl
      exact hlast (List.getLast?_concat ..)
    have hchars : ∀ b ∈ p.map asciiByte ++ q.map asciiByte, ExactChar b := by
      intro b hb
      rcases List.mem_append.mp hb with hb | hb
      · exact exactChars hp (fun c hc => hvalid c (List.mem_append_left _ hc)) b hb
      · exact exactChars hq (fun c hc => hvalid c (List.mem_append_right _ hc)) b hb
    rw [List.length_map] at hbase hext
    rw [List.map_append, strLjust_bytes, strLjust_bytes, upper_bytes hp, upper_bytes hq] at hbytes
    rw [hbytes, List.map_append, List.map_cons]
    refine makeShortNameIfPossible_ext ?_ ?_ hchars (by rwa [List.length_map])
      (by rwa [List.length_map])
    · simpa using haccepted.base_ne
    · simpa using hqne

/-- And on no others. -/
theorem Agrees.plain (h : Agrees name bytes) : Plain name := by
  have hvalid := validateLongName_valid h.valid
  constructor
  · intro c hc
    by_contra hbeyond
    obtain ⟨b, hb, hinvalid⟩ := utf8EncodeChar_beyond hbeyond
    have hgood := hvalid b (List.mem_flatMap.mpr ⟨c, hc, hb⟩)
    rw [hinvalid] at hgood
    cases hgood
  · intro hlast
    obtain ⟨front, rfl⟩ := List.getLast?_eq_some_iff.mp hlast
    have hbytes : nameBytes (front ++ ['.']) = nameBytes front ++ [0x2E] := by
      rw [nameBytes, List.flatMap_append]
      rfl
    have hend : (nameBytes (front ++ ['.'])).getLast? = some 0x2E := by
      rw [hbytes, List.getLast?_concat]
    have hname := h.valid
    rw [validateLongName, hend] at hname
    simp at hname

/-- Names that get the same bytes are the same, ignoring case. -/
theorem Agrees.same (h : Agrees name bytes) (h' : Agrees name' bytes) :
    nameEqualsIgnoreCase (nameBytes name) (nameBytes name') = true := by
  have hfound := h.found
  have hfound' := h'.found
  rw [nameEqualsIgnoreCase, beq_iff_eq] at hfound hfound' ⊢
  exact hfound.symm.trans hfound'

/-- Of any two names that the tool accepts: the kernel finds both entries under their names and
would store them in the same way, and the names are told apart, exactly where both are plain. -/
theorem shortName11_agrees_iff (h : shortName11 u name = .ok bytes)
    (h' : shortName11 u name' = .ok bytes') :
    (Agrees name bytes ∧ Agrees name' bytes' ∧ (bytes = bytes' →
      nameEqualsIgnoreCase (nameBytes name) (nameBytes name') = true)) ↔
    Plain name ∧ Plain name' := by
  constructor
  · intro hall
    exact ⟨hall.1.plain, hall.2.1.plain⟩
  · intro hplain
    have hagrees := agrees_of_plain h hplain.1
    have hagrees' := agrees_of_plain h' hplain.2
    refine ⟨hagrees, hagrees', fun hsame => ?_⟩
    rw [← hsame] at hagrees'
    exact hagrees.same hagrees'

/-- Unicode data with a letter whose upper case is two letters of ASCII. -/
def sampleUnicode : UnicodeData where
  upper c := if c = 'ß' then ['S', 'S'] else [c]
  isalnum _ := true

theorem shortName11_agrees_iff_sample :
    Agrees ['l', 's', '.', 'E', 'l', 'f'] (padField 8 [0x4C, 0x53] ++ [0x45, 0x4C, 0x46]) ∧
      nameEqualsIgnoreCase (nameBytes ['l', 's', '.', 'E', 'l', 'f'])
        (nameBytes ['L', 'S', '.', 'e', 'l', 'f']) = true := by
  have hname : shortName11 sampleUnicode ['l', 's', '.', 'E', 'l', 'f'] =
      .ok (padField 8 [0x4C, 0x53] ++ [0x45, 0x4C, 0x46]) := by decide +kernel
  have hname' : shortName11 sampleUnicode ['L', 'S', '.', 'e', 'l', 'f'] =
      .ok (padField 8 [0x4C, 0x53] ++ [0x45, 0x4C, 0x46]) := by decide +kernel
  obtain ⟨hagrees, -, hsame⟩ := (shortName11_agrees_iff hname hname').mpr
    ⟨by decide, by decide⟩
  exact ⟨hagrees, hsame rfl⟩

/-- `A.` gets the bytes of `A` and `ß` those of `SS`, and the kernel takes neither for a name. -/
theorem shortName11_disagrees :
    (shortName11 sampleUnicode ['A', '.'] = .ok (padField 11 [0x41]) ∧
      shortName11 sampleUnicode ['A'] = .ok (padField 11 [0x41]) ∧
      nameEqualsIgnoreCase (nameBytes ['A', '.']) (nameBytes ['A']) = false ∧
      nameEqualsIgnoreCase (cString (formatShortName (padField 11 [0x41])))
        (nameBytes ['A', '.']) = false ∧
      validateLongName (nameBytes ['A', '.']) = false ∧
      makeShortNameIfPossible (nameBytes ['A', '.']) = none) ∧
    shortName11 sampleUnicode ['ß'] = .ok (padField 11 [0x53, 0x53]) ∧
      nameEqualsIgnoreCase (cString (formatShortName (padField 11 [0x53, 0x53])))
        (nameBytes ['ß']) = false ∧
      validateLongName (nameBytes ['ß']) = false ∧
      makeShortNameIfPossible (nameBytes ['ß']) = none := by
  decide +kernel

end

end FunnyOS.Tools
