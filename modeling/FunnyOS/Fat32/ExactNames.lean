import FunnyOS.Fat32.NameSpec

/-!
# Names that are short names

What `make_short_name_if_possible` accepts, seen from the name: a base of one to eight characters,
alone or with a dot and an extension of one to three.
-/

namespace FunnyOS.Fat32

/-- A character that `make_short_name_if_possible` keeps. -/
def ExactChar (c : UInt8) : Prop :=
  isInvalidLfnCharacter c = false ∧ c ≠ 0x2E ∧ kIsSpace c = false ∧
    c ∉ [0x2B, 0x2C, 0x3B, 0x3D, 0x5B, 0x5D]

instance (c : UInt8) : Decidable (ExactChar c) := inferInstanceAs (Decidable (_ ∧ _ ∧ _ ∧ _))

theorem ExactChar.ne_space : ∀ c, ExactChar c → c ≠ 0x20 := forall_byte (by decide +kernel)

section

variable {name p q : CStr} {base ext : List UInt8} {dot : Option Nat} {i : Nat}

/-! ## The dot -/

/-- Indices without a dot leave what the search has found. -/
theorem lastDot_unchanged {l : List Nat} (h : ∀ i ∈ l, name.getD i 0 ≠ 0x2E)
    (found : Option Nat) :
    l.foldl (fun acc i => if name.getD i 0 = 0x2E then some i else acc) found = found := by
  induction l with
  | nil => rfl
  | cons i l ih =>
    rw [List.foldl_cons, if_neg (h i List.mem_cons_self)]
    exact ih fun j hj => h j (List.mem_cons_of_mem i hj)

theorem lastDotIndex_none (h : ∀ c ∈ name, c ≠ 0x2E) : lastDotIndex name = none := by
  have hchars : ∀ i ∈ List.range name.length, name.getD i 0 ≠ 0x2E := by
    intro i hi
    rw [List.getD_eq_getElem _ _ (List.mem_range.mp hi)]
    exact h _ (List.getElem_mem _)
  unfold lastDotIndex
  simp only [lastDot_unchanged hchars, ite_self]

theorem lastDotIndex_some (hp : p ≠ []) (hq : q ≠ []) (hdots : ∀ c ∈ p ++ q, c ≠ 0x2E) :
    lastDotIndex (p ++ 0x2E :: q) = some p.length := by
  have hbefore : ∀ i ∈ List.range p.length, (p ++ 0x2E :: q).getD i 0 ≠ 0x2E := by
    intro i hi
    have hlt := List.mem_range.mp hi
    rw [List.getD_append _ _ _ _ hlt, List.getD_eq_getElem _ _ hlt]
    exact hdots _ (List.mem_append_left q (List.getElem_mem hlt))
  have hat : (p ++ 0x2E :: q).getD p.length 0 = 0x2E := by
    rw [List.getD_append_right _ _ _ _ le_rfl, Nat.sub_self]
    rfl
  have hbehind : ∀ i ∈ (List.range q.length).map fun i => p.length + (i + 1),
      (p ++ 0x2E :: q).getD i 0 ≠ 0x2E := by
    intro i hi
    obtain ⟨k, hk, rfl⟩ := List.mem_map.mp hi
    have hlt := List.mem_range.mp hk
    rw [List.getD_append_right _ _ _ _ (Nat.le_add_right ..), Nat.add_sub_cancel_left,
      List.getD_cons_succ, List.getD_eq_getElem _ _ hlt]
    exact hdots _ (List.mem_append_right p (List.getElem_mem hlt))
  have hrange : List.range (p ++ 0x2E :: q).length =
      List.range p.length ++ p.length :: (List.range q.length).map fun i => p.length + (i + 1) := by
    rw [List.length_append, List.length_cons, List.range_add, List.range_succ_eq_map,
      List.map_cons, List.map_map]
    rfl
  have hends : ¬ (some p.length = some 0 ∨ some p.length = some ((p ++ 0x2E :: q).length - 1)) := by
    have := List.length_pos_of_ne_nil hp
    have := List.length_pos_of_ne_nil hq
    simp only [Option.some.injEq, List.length_append, List.length_cons]
    omega
  unfold lastDotIndex
  simp only
  rw [hrange, List.foldl_append, lastDot_unchanged hbefore, List.foldl_cons, if_pos hat,
    lastDot_unchanged hbehind, if_neg hends]

/-! ## The two parts -/

theorem ExactChar.kept {c : UInt8} (h : ExactChar c) :
    ¬ (kIsSpace c || c == 0x2B || c == 0x2C || c == 0x3B || c == 0x3D || c == 0x5B || c == 0x5D)
      = true := by
  obtain ⟨-, -, hspace, hmem⟩ := h
  simp only [List.mem_cons, List.not_mem_nil, or_false, not_or] at hmem
  simp [hspace, hmem]

/-- The characters before the dot go into the base. -/
theorem shortNameParts_base (hchars : ∀ c ∈ p, ExactChar c) (hroom : base.length + p.length ≤ 8)
    (hdot : ∀ d, dot = some d → i + p.length ≤ d) :
    shortNameParts dot (p ++ q) i base ext =
      shortNameParts dot q (i + p.length) (base ++ p.map kToupper) ext := by
  induction p generalizing i base with
  | nil => simp
  | cons c p ih =>
    have hc := hchars c List.mem_cons_self
    rw [List.length_cons] at hroom hdot
    have hbefore : dot.all (fun d => i < d) = true := by
      cases hd : dot with
      | none => rfl
      | some d =>
        have hle := hdot d hd
        simp only [Option.all_some, decide_eq_true_eq]
        omega
    rw [List.cons_append, shortNameParts, if_neg hc.2.1, if_neg hc.kept, if_pos hbefore,
      if_neg (by omega), ih (fun c' hc' => hchars c' (List.mem_cons_of_mem c hc'))
        (by rw [List.length_append, List.length_singleton]; omega)
        (fun d hd => by have hle := hdot d hd; omega)]
    rw [List.map_cons, List.append_assoc, List.singleton_append, List.length_cons]
    congr 1
    omega

/-- The characters behind the dot go into the extension. -/
theorem shortNameParts_ext {d : Nat} (hchars : ∀ c ∈ q, ExactChar c)
    (hroom : ext.length + q.length ≤ 3) (hdot : d < i) :
    shortNameParts (some d) q i base ext = some (base, ext ++ q.map kToupper) := by
  induction q generalizing i ext with
  | nil => simp [shortNameParts]
  | cons c q ih =>
    have hc := hchars c List.mem_cons_self
    rw [List.length_cons] at hroom
    have hbehind : ¬ (some d).all (fun d => i < d) = true := by
      simp only [Option.all_some, decide_eq_true_eq]
      omega
    rw [shortNameParts, if_neg hc.2.1, if_neg hc.kept, if_neg hbehind, if_neg (by omega),
      ih (fun c' hc' => hchars c' (List.mem_cons_of_mem c hc'))
        (by rw [List.length_append, List.length_singleton]; omega) (by omega),
      List.map_cons, List.append_assoc, List.singleton_append]

/-- Names of up to twelve of these characters and dots that do not end in a dot are valid. -/
theorem validateLongName_exact (hchars : ∀ c ∈ name, ExactChar c ∨ c = 0x2E)
    (hlength : name.length ≤ 12) {c : UInt8} (hlast : name.getLast? = some c) (hc : ExactChar c) :
    validateLongName name = true := by
  have hne : name ≠ [] := by
    rintro rfl
    cases hlast
  have hdot : name ≠ [0x2E] := by
    rintro rfl
    exact hc.2.1 (Option.some.inj hlast).symm
  have hdots : name ≠ [0x2E, 0x2E] := by
    rintro rfl
    exact hc.2.1 (Option.some.inj hlast).symm
  have hvalid : ∀ c ∈ name, isInvalidLfnCharacter c = false := by
    intro c' hc'
    rcases hchars c' hc' with hexact | rfl
    · exact hexact.1
    · decide
  have hcapacity : name.length < nameCapacity := by
    have h : 12 < nameCapacity := by decide
    omega
  simp only [validateLongName, Bool.and_eq_true, bne_iff_ne, decide_eq_true_eq, List.all_eq_true,
    Bool.not_eq_true']
  refine ⟨⟨⟨⟨⟨⟨hne, hdot⟩, hdots⟩, hcapacity⟩, hvalid⟩, ?_⟩, ?_⟩
  · rw [hlast]
    exact fun h => ExactChar.ne_space c hc (Option.some.inj h)
  · rw [hlast]
    exact fun h => hc.2.1 (Option.some.inj h)

/-- A base without a dot. -/
theorem makeShortNameIfPossible_base (hp : p ≠ []) (hchars : ∀ c ∈ p, ExactChar c)
    (hlength : p.length ≤ 8) : validateLongName p = true ∧
      makeShortNameIfPossible p = some (padField 8 (p.map kToupper) ++ padField 3 []) := by
  have hvalid : validateLongName p = true :=
    validateLongName_exact (fun c hc => .inl (hchars c hc)) (by omega)
      (List.getLast?_eq_some_getLast hp) (hchars _ (List.getLast_mem hp))
  have hparts : shortNameParts none p 0 [] [] = some (p.map kToupper, []) := by
    have hroom : ([] : List UInt8).length + p.length ≤ 8 := by simpa using hlength
    have hnone : ∀ d, (none : Option Nat) = some d → 0 + p.length ≤ d := by
      intro d hd
      cases hd
    calc shortNameParts none p 0 [] []
        = shortNameParts none (p ++ []) 0 [] [] := by rw [List.append_nil]
      _ = shortNameParts none [] (0 + p.length) ([] ++ p.map kToupper) [] :=
          shortNameParts_base hchars hroom hnone
      _ = some (p.map kToupper, []) := rfl
  refine ⟨hvalid, ?_⟩
  unfold makeShortNameIfPossible
  rw [if_pos hvalid, lastDotIndex_none fun c hc => (hchars c hc).2.1, hparts]
  simp only [List.map_eq_nil_iff, if_neg hp]

/-- A base, a dot and an extension. -/
theorem makeShortNameIfPossible_ext (hp : p ≠ []) (hq : q ≠ [])
    (hchars : ∀ c ∈ p ++ q, ExactChar c) (hbase : p.length ≤ 8) (hext : q.length ≤ 3) :
    validateLongName (p ++ 0x2E :: q) = true ∧ makeShortNameIfPossible (p ++ 0x2E :: q) =
      some (padField 8 (p.map kToupper) ++ padField 3 (q.map kToupper)) := by
  have hleft : ∀ c ∈ p, ExactChar c := fun c hc => hchars c (List.mem_append_left q hc)
  have hright : ∀ c ∈ q, ExactChar c := fun c hc => hchars c (List.mem_append_right p hc)
  have hlast : (p ++ 0x2E :: q).getLast? = some (q.getLast hq) := by
    rw [List.getLast?_append_of_ne_nil _ (List.cons_ne_nil _ _), List.getLast?_cons,
      List.getLast?_eq_some_getLast hq]
    rfl
  have hvalid : validateLongName (p ++ 0x2E :: q) = true := by
    refine validateLongName_exact (fun c hc => ?_) ?_ hlast (hright _ (List.getLast_mem hq))
    · rcases List.mem_append.mp hc with hc | hc
      · exact .inl (hleft c hc)
      · rcases List.mem_cons.mp hc with rfl | hc
        · exact .inr rfl
        · exact .inl (hright c hc)
    · rw [List.length_append, List.length_cons]
      omega
  have hparts : shortNameParts (some p.length) (p ++ 0x2E :: q) 0 [] [] =
      some (p.map kToupper, q.map kToupper) := by
    rw [shortNameParts_base hleft (by simpa using hbase) (fun d hd => by cases hd; omega),
      shortNameParts, if_pos rfl, if_pos (by rw [Nat.zero_add]),
      shortNameParts_ext hright (by simpa using hext) (by omega)]
    rfl
  refine ⟨hvalid, ?_⟩
  unfold makeShortNameIfPossible
  rw [if_pos hvalid, lastDotIndex_some hp hq fun c hc => (hchars c hc).2.1, hparts]
  simp only [List.map_eq_nil_iff, if_neg hp]

end

end FunnyOS.Fat32
