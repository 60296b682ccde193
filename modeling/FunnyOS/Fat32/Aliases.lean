import FunnyOS.Fat32.NameRoundTrip

/-!
# Aliases

What `build_short_alias` writes for the ordinals with at most seven digits: eleven bytes that are
a short name as the standard has it, and a different one for every ordinal. So the loop of
`build_name_entries` tries at most one alias more than the directory has entries.
-/

namespace FunnyOS.Fat32

open Prog

/-- The eleven bytes of a short name: the first stands for nothing special, and spaces only fill
the ends of the base and of the extension. -/
structure AliasShape (shortName : List UInt8) : Prop where
  length : shortName.length = 11
  first : ∀ c ∈ shortName.head?, c ≠ 0 ∧ c ≠ 0x20 ∧ c ≠ deletedMark ∧ c ≠ 0x2E
  base : ∀ p q, p < q → q < 8 → shortName[p]? = some 0x20 → shortName[q]? = some 0x20
  extension : ∀ p q, 8 ≤ p → p < q → q < 11 → shortName[p]? = some 0x20 →
    shortName[q]? = some 0x20

section

variable {name : CStr} {n : Nat} {es : List DirectoryEntry} {shortName : List UInt8}
  {ignore : Option (List UInt8)}

theorem aliasParts_extension {dot : Option Nat} {rest : CStr} {i : Nat} {base ext : List UInt8}
    (hx : ∀ c ∈ ext, ShortNameChar c) :
    ∀ c ∈ (aliasParts dot rest i base ext).2, ShortNameChar c := by
  induction rest generalizing i base ext with
  | nil => exact hx
  | cons y rest ih =>
    rw [aliasParts]
    split_ifs with h₁ h₂ h₃ h₄
    · exact ih hx
    · refine ih ?_
      intro c hc
      rcases List.mem_append.mp hc with hc | hc
      · exact hx c hc
      · rw [List.mem_singleton.mp hc]
        simp only [Bool.or_eq_true, not_or, decide_eq_true_eq, Bool.not_eq_true] at h₁
        exact shortNameChar_toupper y ⟨h₁.1.2, h₁.1.1, h₁.2⟩
    · exact ih hx
    · exact ih hx
    · exact ih hx

/-- In a field filled up with spaces a space is followed by spaces. -/
theorem getD_space {field : List UInt8} (hchars : ∀ c ∈ field, c ≠ 0x20) {p q : Nat} (hpq : p < q)
    (hp : field.getD p 0x20 = 0x20) : field.getD q 0x20 = 0x20 := by
  have hend : field.length ≤ p := by
    by_contra hlt
    have hlt := Nat.lt_of_not_le hlt
    rw [List.getD_eq_getElem _ _ hlt] at hp
    exact hchars _ (List.getElem_mem hlt) hp
  exact List.getD_eq_default _ _ (by omega)

/-- What the alias holds in its two fields. -/
theorem buildShortAlias_fields (name : CStr) (h : n ≤ maxOrdinal) :
    ∃ shortName, buildShortAlias name n = some shortName ∧ shortName.length = 11 ∧
      (∀ p < 8, shortName[p]? = some ((aliasFront name n).getD p 0x20)) ∧
      ∀ p, 8 ≤ p → p < 11 → shortName[p]? =
        some ((aliasParts (lastDotIndex name) name 0 [] []).2.getD (p - 8) 0x20) := by
  have hlen := aliasFront_length name h
  refine ⟨_, buildShortAlias_eq name h, by simp, ?_, ?_⟩
  · intro p hp
    rw [List.getElem?_map, List.getElem?_range (by omega), Option.map_some, if_neg (by omega)]
  · intro p hp hlt
    rw [List.getElem?_map, List.getElem?_range hlt, Option.map_some]
    by_cases hin : p - 8 < (aliasParts (lastDotIndex name) name 0 [] []).2.length
    · rw [if_pos ⟨hp, hin⟩]
    · rw [if_neg fun h => hin h.2, List.getD_eq_default _ _ (by omega),
        List.getD_eq_default _ _ (Nat.le_of_not_lt hin)]

/-- Every alias with at most seven digits is well shaped. -/
theorem buildShortAlias_shape (name : CStr) (h : n ≤ maxOrdinal) :
    ∃ shortName, buildShortAlias name n = some shortName ∧ AliasShape shortName := by
  obtain ⟨shortName, hmade, hlength, hbase, hext⟩ := buildShortAlias_fields name h
  have hext_chars : ∀ c ∈ (aliasParts (lastDotIndex name) name 0 [] []).2, c ≠ 0x20 :=
    fun c hc => (aliasParts_extension (by simp) c hc).2.2.2
  refine ⟨shortName, hmade, hlength, ?_, ?_, ?_⟩
  · intro c hc
    obtain ⟨c', rest, heq, h₁, h₂, h₃⟩ := (buildShortAlias_spec hmade).first
    rw [heq, List.head?_cons] at hc
    obtain rfl := Option.some.inj hc
    refine ⟨h₁, ?_, h₂, h₃⟩
    -- the front of an alias has a character, and no space
    have hfirst := hbase 0 (by decide)
    have hpos : 0 < (aliasFront name n).length := by simp [aliasFront]
    rw [heq, List.getElem?_cons_zero, List.getD_eq_getElem _ _ hpos] at hfirst
    rw [Option.some.inj hfirst]
    exact aliasFront_chars (List.getElem_mem hpos)
  · intro p q hpq hq hspace
    rw [hbase p (by omega)] at hspace
    rw [hbase q hq, getD_space (fun c hc => aliasFront_chars hc) hpq (Option.some.inj hspace)]
  · intro p q hp hpq hq hspace
    rw [hext p hp (by omega)] at hspace
    have hlt : p - 8 < q - 8 := by omega
    rw [hext q (by omega) hq, getD_space hext_chars hlt (Option.some.inj hspace)]

/-- A short name that is not taken is the name of no entry, unless the caller wants that name
ignored. -/
theorem not_taken (h : scanForShortName shortName ignore es ≠ .found ()) :
    ∀ e ∈ liveSlots es, e.name = shortName → ignore = some e.name := by
  induction es with
  | nil => simp [liveSlots]
  | cons x es ih =>
    intro e he hname
    rw [scanForShortName] at h
    have hsplit : e ∈ liveSlots (x :: es) → x.name0 ≠ 0 ∧
        ((e = x ∧ x.kind = .live) ∨ e ∈ liveSlots es) := by
      intro he
      by_cases h₀ : x.name0 = 0
      · simp [liveSlots, h₀] at he
      · refine ⟨h₀, ?_⟩
        have htake : (x :: es).takeWhile (fun e => e.name0 != 0) =
            x :: es.takeWhile (fun e => e.name0 != 0) := by simp [h₀]
        rw [liveSlots, htake, List.filter_cons] at he
        split at he
        · next hlive =>
          rcases List.mem_cons.mp he with rfl | he
          · exact .inl ⟨rfl, by simpa using hlive⟩
          · exact .inr he
        · exact .inr he
    obtain ⟨h₀, hcase⟩ := hsplit he
    rw [if_neg h₀] at h
    rcases hcase with ⟨rfl, hlive⟩ | he
    · obtain ⟨-, h₁, h₂, h₃, -⟩ := DirectoryEntry.kind_eq_live.mp hlive
      rw [if_neg (by simp [h₁, h₂]), if_neg (by simp [h₃])] at h
      by_contra hignore
      rw [if_neg hignore, if_pos hname] at h
      exact h rfl
    · split_ifs at h
      · exact ih h e he hname
      · exact ih h e he hname
      · exact ih h e he hname
      · exact absurd rfl h
      · exact ih h e he hname

end

/-- The loop of `build_name_entries` takes the alias `shortName` at its try number `tries`: the
aliases before are taken, and no entry has this one, unless the caller wants it ignored. -/
structure AliasFound (env : Env) (s : State) (d : Nat) (es : List DirectoryEntry) (name : CStr)
    (ignore : Option (List UInt8)) (tries : Nat) (shortName : List UInt8) : Prop where
  ends : ∃ s', chooseAlias env d name ignore s = .ok shortName s' ∧
    s'.volume env.geometry = s.volume env.geometry
  made : buildShortAlias name tries = some shortName
  earlier : ∀ k, 0 < k → k < tries → ∀ taken, buildShortAlias name k = some taken →
    ∃ e ∈ liveSlots es, e.name = taken
  unused : ∀ e ∈ liveSlots es, e.name = shortName → ignore = some e.name

/-- The aliases of a name, and the search for one that is not taken. -/
theorem aliases_of_name (name : CStr) :
    (∀ i, 1 ≤ i → i ≤ maxOrdinal →
      ∃ shortName, buildShortAlias name i = some shortName ∧ AliasShape shortName) ∧
    (∀ i j, 1 ≤ i → i < j → j ≤ maxOrdinal → buildShortAlias name i ≠ buildShortAlias name j) ∧
    ∀ (env : Env) (s : State) (d : Nat) (l : List Nat) (ignore : Option (List UInt8)),
      env.geometry.totalClusters < env.fuel → ¬ env.Faulty → Chain env.geometry s.fat d l →
      (liveSlots (chainEntries env.geometry (s.volume env.geometry) l)).length < maxOrdinal →
      ∃ tries shortName, 1 ≤ tries ∧
        tries ≤ (liveSlots (chainEntries env.geometry (s.volume env.geometry) l)).length + 1 ∧
        AliasFound env s d (chainEntries env.geometry (s.volume env.geometry) l) name ignore tries
          shortName := by
  refine ⟨fun i _ hi => buildShortAlias_shape name hi, ?_, ?_⟩
  · intro i j _ hij hj heq
    exact absurd (buildShortAlias_injective (by omega) hj heq) (Nat.ne_of_lt hij)
  · intro env s d l ignore hfuel hrel hch hlive
    obtain ⟨n, shortName, s', hrun, hv, hpos, hle, hmade, hfree, htaken⟩ :=
      chooseAlias_run name ignore hfuel hrel hch hlive
    refine ⟨n, shortName, hpos, hle, ⟨s', hrun, hv⟩, hmade, ?_, not_taken hfree⟩
    intro k hk hkn taken hmade'
    exact scanForShortName_mem (htaken k hk hkn taken hmade') (buildShortAlias_spec hmade')

/-- A file whose name is the first alias of `a b`. -/
def aliasState : State := smallState [0, 0, endOfChain] fun _ =>
  [buildShortEntry ((buildShortAlias [0x61, 0x20, 0x62] 1).getD []) attrArchive 0 0]

/-- Where another entry has the first alias of `a b`, the second one is taken. -/
theorem aliases_of_name_taken : ∃ shortName,
    AliasFound smallEnv aliasState 2
      (chainEntries smallGeometry (aliasState.volume smallGeometry) [2]) [0x61, 0x20, 0x62] none
      2 shortName := by
  have hdir : Chain smallGeometry aliasState.fat 2 [2] :=
    chain_cons.mpr ⟨rfl, by decide, chain_nil.mpr (by decide +kernel)⟩
  obtain ⟨hlength, hfirst⟩ : (liveSlots (chainEntries smallGeometry
        (aliasState.volume smallGeometry) [2])).length = 1 ∧
      ∃ e ∈ liveSlots (chainEntries smallGeometry (aliasState.volume smallGeometry) [2]),
        buildShortAlias [0x61, 0x20, 0x62] 1 = some e.name := by decide +kernel
  obtain ⟨tries, shortName, hpos, hle, hfound⟩ := (aliases_of_name [0x61, 0x20, 0x62]).2.2 smallEnv
    aliasState 2 [2] none (by decide) smallEnv_reliable hdir (by
      change (liveSlots (chainEntries smallGeometry (aliasState.volume smallGeometry)
        [2])).length < maxOrdinal
      rw [hlength]
      decide)
  change tries ≤ (liveSlots (chainEntries smallGeometry
    (aliasState.volume smallGeometry) [2])).length + 1 at hle
  rw [hlength] at hle
  obtain ⟨e, he, halias⟩ := hfirst
  have hne : tries ≠ 1 := by
    rintro rfl
    rw [hfound.made] at halias
    cases hfound.unused e he (Option.some.inj halias).symm
  obtain rfl : tries = 2 := by omega
  exact ⟨shortName, hfound⟩

end FunnyOS.Fat32
