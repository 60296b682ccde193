import FunnyOS.Fat32.Paths
import FunnyOS.Tools.ShortNames

/-!
# The names that the kernel shows

`format_short_name` of what `short_name_11` stores. The kernel accepts every name that it shows,
takes it for a canonical component of a path, and would store it in the bytes that the tool has
stored: so entries with different bytes are shown under different names.
-/

namespace FunnyOS.Tools

open Fat32

/-- `str.upper` leaves no small letter of ASCII. -/
def UnicodeData.Uppercase (u : UnicodeData) : Prop :=
  ∀ c : Char, 128 ≤ c.toNat → ∀ d ∈ u.upper c, d.toUpper = d

/-- The name under which the kernel shows an entry: `format_short_name` of `short_name_11`. -/
def kernelName (u : UnicodeData) (name : List Char) : CStr :=
  match shortName11 u name with
  | .ok bytes => cString (formatShortName bytes)
  | .error _ => []

/-- The kernel shows the stored bytes as this name, and takes the name for these bytes. -/
structure ShownAs (name : CStr) (bytes : List UInt8) : Prop where
  shown : cString (formatShortName bytes) = name
  ok : ShortNameOk bytes
  valid : validateLongName name = true
  upper : name.map kToupper = name
  stored : makeShortNameIfPossible name = some bytes

section

variable {u : UnicodeData} {name base ext : List Char} {bytes bytes' : List UInt8} {c : Char}
  {shown : CStr}

theorem toUpper_toUpper : ∀ c : Char, c.toNat < 128 → c.toUpper.toUpper = c.toUpper :=
  forall_ascii (by decide +kernel)

theorem strUpper_upper (hu : u.Uppercase) (hc : c ∈ u.strUpper name) : c.toUpper = c := by
  obtain ⟨d, -, hc⟩ := List.mem_flatMap.mp hc
  unfold UnicodeData.upperChar at hc
  split at hc
  · next hascii =>
    obtain rfl := List.mem_singleton.mp hc
    exact toUpper_toUpper d hascii
  · next hbeyond => exact hu d (not_lt.mp hbeyond) c hc

/-- A part of a name in upper case that the tool accepts is one that the kernel keeps. -/
theorem upperPart (hupper : ∀ c ∈ name, c.toUpper = c) (hascii : ∀ c ∈ name, c.toNat < 128)
    (hvalid : ∀ c ∈ name, isValidShortChar u c = true) :
    (∀ b ∈ name.map asciiByte, ExactChar b) ∧
      (name.map asciiByte).map kToupper = name.map asciiByte := by
  have hmap : name.map Char.toUpper = name := by
    conv_rhs => rw [← List.map_id name]
    exact List.map_congr_left hupper
  constructor
  · exact exactChars (u := u) hascii (by rwa [hmap])
  · rw [← upper_bytes hascii, hmap]

/-- A name that is shown as it is stored. -/
theorem shownAs_of_stored (hupper : shown.map kToupper = shown)
    (h : validateLongName shown = true ∧ makeShortNameIfPossible shown = some bytes) :
    ShownAs shown bytes := by
  obtain ⟨hok, hformat⟩ := makeShortNameIfPossible_format h.2
  exact ⟨hformat.trans hupper, hok, h.1, hupper, h.2⟩

theorem Accepted.shownAs (hu : u.Uppercase) (h : Accepted u name base ext bytes) :
    ∃ shown, ShownAs shown bytes := by
  have hmem : ∀ c ∈ base ++ ext, c ∈ u.strUpper name := by
    intro c hc
    rcases h.name with ⟨hname, rfl⟩ | hname
    · rwa [hname, ← List.append_nil base]
    · rw [hname]
      rcases List.mem_append.mp hc with hc | hc
      · exact List.mem_append_left _ hc
      · exact List.mem_append_right _ (List.mem_cons_of_mem _ hc)
  have hupper : ∀ c ∈ base ++ ext, c.toUpper = c := fun c hc => strUpper_upper hu (hmem c hc)
  have hchars := upperPart hupper h.ascii h.valid
  rw [List.map_append, List.map_append] at hchars
  obtain ⟨hbase, hext⟩ := List.append_inj hchars.2 (List.length_map _)
  have hne : base.map asciiByte ≠ [] := by simpa using h.base_ne
  have hle : (base.map asciiByte).length ≤ 8 := by simpa using h.base_le
  have hbytes := h.bytes
  rw [List.map_append, strLjust_bytes, strLjust_bytes] at hbytes
  by_cases hnil : ext = []
  · subst hnil
    refine ⟨base.map asciiByte, shownAs_of_stored hbase ?_⟩
    rw [hbytes]
    have hstored := makeShortNameIfPossible_base hne
      (fun c hc => hchars.1 c (List.mem_append_left _ hc)) hle
    rwa [hbase] at hstored
  · refine ⟨base.map asciiByte ++ 0x2E :: ext.map asciiByte, shownAs_of_stored ?_ ?_⟩
    · rw [List.map_append, List.map_cons, hbase, hext]
      rfl
    · rw [hbytes]
      have hstored := makeShortNameIfPossible_ext hne (by simpa using hnil) hchars.1 hle
        (by simpa using h.ext_le)
      rwa [hbase, hext] at hstored

/-- The kernel shows every name that the tool accepts as a name of its own. -/
theorem shownAs_of_shortName11 (hu : u.Uppercase) (h : shortName11 u name = .ok bytes) :
    ShownAs (kernelName u name) bytes := by
  obtain ⟨base, ext, haccepted⟩ := shortName11_accepted h
  obtain ⟨shown, hshown⟩ := haccepted.shownAs hu
  have hname : kernelName u name = shown := by
    rw [kernelName, h]
    exact hshown.shown
  rwa [hname]

/-- The name shown determines the bytes. -/
theorem ShownAs.unique (h : ShownAs shown bytes) (h' : ShownAs shown bytes') : bytes = bytes' :=
  Option.some.inj (h.stored.symm.trans h'.stored)

theorem ShownAs.component (h : ShownAs shown bytes) : CanonicalComponent shown := by
  have hvalid := h.valid
  refine ⟨?_, ?_, ?_, ?_, h.upper⟩
  · exact List.ne_nil_of_length_pos (validateLongName_length hvalid).1
  · rintro x hx rfl
    have hchar := validateLongName_valid hvalid slash hx
    revert hchar
    decide
  · rintro rfl
    revert hvalid
    decide
  · rintro rfl
    revert hvalid
    decide

end

end FunnyOS.Tools
