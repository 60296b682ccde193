import FunnyOS.Fat32.NameSpec
import FunnyOS.Fat32.Reading
import FunnyOS.Fat32.Check

/-!
# Names written and read back

`build_short_alias` numbers the aliases of a name. Up to seven digits they fit into the base of the
short name and are different for different numbers, so that a directory with fewer entries than
there are numbers leaves one of them free, and the loop of `build_name_entries` finds it. The slots
that it then makes are read back by `process_lfn_entry` and `decode_directory_entry_name` as the
name: exactly where long-name slots were made, in upper case where the short slot stands alone.
-/

namespace FunnyOS.Fat32

open Prog

/-- The ordinals with at most seven digits. -/
def maxOrdinal : Nat := 9999999

/-- The base bytes that `build_short_alias` works with. -/
def aliasBase (name : CStr) : List UInt8 :=
  if (aliasParts (lastDotIndex name) name 0 [] []).1 = [] then [0x46]
  else (aliasParts (lastDotIndex name) name 0 [] []).1

/-- The bytes that `build_short_alias` writes into the base field. -/
def aliasFront (name : CStr) (ordinal : Nat) : List UInt8 :=
  (aliasBase name).take (min ((8 + 2 ^ 32 - ((aliasDigits 10 ordinal).length + 1)) % 2 ^ 32)
    (aliasBase name).length) ++ 0x7E :: (aliasDigits 10 ordinal).reverse

/-! ## Digits -/

section

variable {name : CStr} {room n m i j : Nat} {shortName : List UInt8}

theorem aliasDigits_ne_nil : aliasDigits (room + 1) n ≠ [] := by simp [aliasDigits]

theorem aliasDigits_mem {c : UInt8} (h : c ∈ aliasDigits room n) :
    c ≠ 0x7E ∧ c ≠ 0x20 := by
  induction room generalizing n with
  | zero => cases h
  | succ room ih =>
    have hdigit : ∀ d < 10, UInt8.ofNat (0x30 + d) ≠ 0x7E ∧ UInt8.ofNat (0x30 + d) ≠ 0x20 := by
      decide
    rw [aliasDigits] at h
    rcases List.mem_cons.mp h with rfl | h
    · exact hdigit _ (Nat.mod_lt _ (by decide))
    · split at h
      · cases h
      · exact ih h

theorem aliasDigits_injective (hn : n < 10 ^ room) (hm : m < 10 ^ room)
    (h : aliasDigits room n = aliasDigits room m) : n = m := by
  induction room generalizing n m with
  | zero => omega
  | succ room ih =>
    have hdigit : ∀ d < 10, ∀ d' < 10,
        UInt8.ofNat (0x30 + d) = UInt8.ofNat (0x30 + d') → d = d' := by decide
    rw [aliasDigits, aliasDigits] at h
    obtain ⟨hhead, htail⟩ := List.cons.inj h
    have hmod := hdigit _ (Nat.mod_lt n (by decide)) _ (Nat.mod_lt m (by decide)) hhead
    rw [Nat.pow_succ] at hn hm
    have hn' : n / 10 < 10 ^ room := Nat.div_lt_of_lt_mul (by omega)
    have hm' : m / 10 < 10 ^ room := Nat.div_lt_of_lt_mul (by omega)
    have hdiv : n / 10 = m / 10 := by
      by_cases h₁ : n / 10 = 0 <;> by_cases h₂ : m / 10 = 0
      · omega
      · rw [if_pos h₁, if_neg h₂] at htail
        cases room with
        | zero => omega
        | succ room => exact absurd htail.symm aliasDigits_ne_nil
      · rw [if_neg h₁, if_pos h₂] at htail
        cases room with
        | zero => omega
        | succ room => exact absurd htail aliasDigits_ne_nil
      · rw [if_neg h₁, if_neg h₂] at htail
        exact ih hn' hm' htail
    omega

/-- A number below `10 ^ k` has at most `k` digits. -/
theorem aliasDigits_length_of_lt {k : Nat} (hk : 0 < k) (hn : n < 10 ^ k) :
    (aliasDigits room n).length ≤ k := by
  induction room generalizing n k with
  | zero => exact Nat.zero_le _
  | succ room ih =>
    rw [aliasDigits, List.length_cons]
    split
    · rw [List.length_nil]
      exact hk
    · next h =>
      obtain ⟨k, rfl⟩ : ∃ k', k = k' + 1 := ⟨k - 1, by omega⟩
      rw [Nat.pow_succ] at hn
      have hdiv : n / 10 < 10 ^ k := Nat.div_lt_of_lt_mul (by omega)
      have hk' : 0 < k := by
        by_contra h0
        obtain rfl : k = 0 := by omega
        omega
      exact Nat.succ_le_succ (ih hk' hdiv)

/-! ## The base field of an alias -/

theorem aliasFront_length (name : CStr) (h : n ≤ maxOrdinal) : (aliasFront name n).length ≤ 8 := by
  have hdigits : (aliasDigits 10 n).length ≤ 7 :=
    aliasDigits_length_of_lt (by decide) (Nat.lt_succ_of_le h)
  simp only [aliasFront, List.length_append, List.length_take, List.length_cons,
    List.length_reverse]
  omega

/-- With at most seven digits an alias is made. -/
theorem buildShortAlias_eq (name : CStr) (h : n ≤ maxOrdinal) :
    buildShortAlias name n = some ((List.range 11).map fun i =>
      if 8 ≤ i ∧ i - 8 < (aliasParts (lastDotIndex name) name 0 [] []).2.length
      then (aliasParts (lastDotIndex name) name 0 [] []).2.getD (i - 8) 0x20
      else (aliasFront name n).getD i 0x20) := by
  have hlen := aliasFront_length name h
  have hle : (aliasFront name n).length ≤ 11 := by omega
  exact if_pos hle

/-- Its base field holds its front. -/
theorem buildShortAlias_front (name : CStr) (h : n ≤ maxOrdinal) :
    ∃ shortName, buildShortAlias name n = some shortName ∧
      shortName.take 8 = padField 8 (aliasFront name n) := by
  have hlen := aliasFront_length name h
  refine ⟨_, buildShortAlias_eq name h, ?_⟩
  rw [← List.map_take, List.take_range]
  refine List.ext_getElem (by simp [padField]; omega) ?_
  intro i h₁ h₂
  have hi : i < 8 := by simpa using h₁
  rw [List.getElem_map, List.getElem_range, if_neg (by omega)]
  simp only [padField]
  by_cases hin : i < (aliasFront name n).length
  · rw [List.getElem_append_left hin, List.getD_eq_getElem _ _ hin]
  · rw [List.getElem_append_right (by omega), List.getElem_replicate,
      List.getD_eq_default _ _ (by omega)]

theorem aliasBase_chars : ∀ c ∈ aliasBase name, ShortNameChar c := by
  unfold aliasBase
  split
  · intro c hc
    rw [List.mem_singleton.mp hc]
    decide
  · exact aliasParts_chars (by simp)

theorem aliasFront_chars {c : UInt8} (h : c ∈ aliasFront name n) : c ≠ 0x20 := by
  rcases List.mem_append.mp h with h | h
  · exact (aliasBase_chars c (List.mem_of_mem_take h)).2.2.2
  · rcases List.mem_cons.mp h with rfl | h
    · decide
    · exact (aliasDigits_mem (List.mem_reverse.mp h)).2

/-- The front of an alias tells its number: the digits stand behind the last tilde. -/
theorem aliasFront_injective (hi : i ≤ maxOrdinal) (hj : j ≤ maxOrdinal)
    (h : aliasFront name i = aliasFront name j) : i = j := by
  have hdigits : ∀ n, (aliasFront name n).reverse.takeWhile (· != 0x7E) = aliasDigits 10 n := by
    intro n
    rw [aliasFront, List.reverse_append, List.reverse_cons, List.reverse_reverse,
      List.append_assoc, List.takeWhile_append_of_pos]
    · simp
    · intro c hc
      simpa using (aliasDigits_mem hc).1
  have hlt : maxOrdinal < 10 ^ 10 := by decide
  have hsame : aliasDigits 10 i = aliasDigits 10 j := by rw [← hdigits i, ← hdigits j, h]
  exact aliasDigits_injective (by omega) (by omega) hsame

/-- Different numbers make different aliases. -/
theorem buildShortAlias_injective (hi : i ≤ maxOrdinal) (hj : j ≤ maxOrdinal)
    (h : buildShortAlias name i = buildShortAlias name j) : i = j := by
  obtain ⟨a, ha, hfront⟩ := buildShortAlias_front name hi
  obtain ⟨b, hb, hfront'⟩ := buildShortAlias_front name hj
  obtain rfl : a = b := Option.some.inj (ha.symm.trans (h.trans hb))
  have hstrip : ∀ n, (padField 8 (aliasFront name n)).takeWhile (· != 0x20) = aliasFront name n := by
    intro n
    rw [padField, List.takeWhile_append_of_pos]
    · cases 8 - (aliasFront name n).length <;> simp [List.replicate_succ]
    · intro c hc
      simpa using aliasFront_chars hc
  apply aliasFront_injective hi hj
  rw [← hstrip i, ← hstrip j, ← hfront, ← hfront']

end

/-! ## A free alias -/

/-- The entries before the end mark. -/
def liveSlots (es : List DirectoryEntry) : List DirectoryEntry :=
  (es.takeWhile (fun e => e.name0 != 0)).filter (fun e => e.kind = .live)

section

variable {es : List DirectoryEntry} {name : CStr} {shortName : List UInt8}
  {ignore : Option (List UInt8)}

/-- A short name that is taken is the name of an entry. -/
theorem scanForShortName_mem (h : scanForShortName shortName ignore es = .found ())
    (hname : ShortNameOk shortName) : ∃ e ∈ liveSlots es, e.name = shortName := by
  induction es with
  | nil => cases h
  | cons e es ih =>
    rw [scanForShortName] at h
    by_cases h₀ : e.name0 = 0
    · rw [if_pos h₀] at h
      cases h
    have hrest : scanForShortName shortName ignore es = .found () →
        ∃ x ∈ liveSlots (e :: es), x.name = shortName := by
      intro h
      obtain ⟨x, hx, heq⟩ := ih h
      refine ⟨x, ?_, heq⟩
      have htake : (e :: es).takeWhile (fun e => e.name0 != 0) =
          e :: es.takeWhile (fun e => e.name0 != 0) := by simp [h₀]
      rw [liveSlots, htake, List.filter_cons]
      split
      · exact List.mem_cons_of_mem _ hx
      · exact hx
    rw [if_neg h₀] at h
    split_ifs at h with h₁ h₂ h₃ h₄
    · exact hrest h
    · exact hrest h
    · exact hrest h
    · refine ⟨e, ?_, h₄⟩
      obtain ⟨c, rest, hc, -, -, hdot⟩ := hname.first
      have hname0 : e.name0 = c := by
        have hhead := congrArg List.head? (h₄.trans hc)
        simpa [DirectoryEntry.name, DirectoryEntry.name0] using hhead
      obtain ⟨h₅, h₆⟩ := not_or.mp h₁
      have hlive : e.kind = .live :=
        DirectoryEntry.kind_eq_live.mpr ⟨h₀, h₅, h₆, not_not.mp h₂, hname0 ▸ hdot⟩
      rw [liveSlots, List.mem_filter]
      exact ⟨by simp [h₀], by simpa using hlive⟩
    · exact hrest h

variable (name ignore) in
/-- Where there are fewer entries than ordinals, one of the first aliases is not taken. -/
theorem exists_free_ordinal (hlive : (liveSlots es).length < maxOrdinal) :
    ∃ n, 0 < n ∧ n ≤ (liveSlots es).length + 1 ∧ ∃ shortName,
      buildShortAlias name n = some shortName ∧
      scanForShortName shortName ignore es ≠ .found () := by
  by_contra hall
  push Not at hall
  -- every one of these ordinals has an alias that is the name of an entry
  have hnames : ∀ n ∈ Finset.Icc 1 ((liveSlots es).length + 1),
      buildShortAlias name n ∈ ((liveSlots es).map fun e => some e.name).toFinset := by
    intro n hn
    obtain ⟨h₁, h₂⟩ := Finset.mem_Icc.mp hn
    obtain ⟨shortName, hmade, -⟩ := buildShortAlias_front (n := n) name (by omega)
    obtain ⟨e, he, hname⟩ := scanForShortName_mem (hall n h₁ h₂ shortName hmade)
      (buildShortAlias_spec hmade)
    rw [List.mem_toFinset, hmade]
    exact List.mem_map.mpr ⟨e, he, congrArg some hname⟩
  have hcard := Finset.card_le_card_of_injOn _ hnames fun i hi j hj heq => by
    have hi := (Finset.mem_Icc.mp hi).2
    have hj := (Finset.mem_Icc.mp hj).2
    exact buildShortAlias_injective (by omega) (by omega) heq
  have hle := List.toFinset_card_le ((liveSlots es).map fun e => some e.name)
  rw [Nat.card_Icc] at hcard
  rw [List.length_map] at hle
  omega

end

/-! ## The loop that looks for it -/

section

variable {env : Env} {s : State} {d : Nat} {l : List Nat} {name : CStr}
  {shortName : List UInt8} {ignore : Option (List UInt8)}

theorem shortNameExistsInDirectory_defined :
    Defined (shortNameExistsInDirectory env d shortName ignore) := by
  refine Defined.loop (fun x => ?_) _ _
  refine Defined.ite ?_ Defined.pure
  refine Defined.bind readCluster_defined fun b => Defined.ite ?_ Defined.pure
  refine Defined.bind Defined.get fun s => ?_
  split <;> exact Defined.pure

/-- `short_name_exists_in_directory` in a directory that can be read. -/
theorem shortNameExistsInDirectory_run (hfuel : env.geometry.totalClusters < env.fuel)
    (hrel : ¬ env.Faulty) (h : Chain env.geometry s.fat d l) (shortName : List UInt8)
    (ignore : Option (List UInt8)) :
    ∃ b s', shortNameExistsInDirectory env d shortName ignore s = .ok b s' ∧
      s'.volume env.geometry = s.volume env.geometry ∧
      (b = true ↔ scanForShortName shortName ignore
        (chainEntries env.geometry (s.volume env.geometry) l) = .found ()) := by
  have hsat : Sat (shortNameExistsInDirectory env d shortName ignore) s _ _ :=
    shortNameExistsInDirectory_sat hfuel h
  have hdefined : Defined (shortNameExistsInDirectory env d shortName ignore) :=
    shortNameExistsInDirectory_defined
  have hdef := hdefined s
  unfold Sat at hsat
  cases hx : shortNameExistsInDirectory env d shortName ignore s with
  | ok b s' =>
    rw [hx] at hsat
    exact ⟨b, s', rfl, hsat.1, hsat.2.resolve_right hrel⟩
  | error e s' => rw [hx] at hsat; exact hsat.elim
  | fault s' => exact absurd hx (hdef s')
  | timeout s' => rw [hx] at hsat; exact hsat.elim

/-- The loop of `build_name_entries` that looks for an alias ends with the first ordinal whose
alias is not taken. -/
theorem chooseAlias_run (name : CStr) (ignore : Option (List UInt8))
    (hfuel : env.geometry.totalClusters < env.fuel) (hrel : ¬ env.Faulty)
    (h : Chain env.geometry s.fat d l)
    (hlive : (liveSlots (chainEntries env.geometry (s.volume env.geometry) l)).length < maxOrdinal) :
    ∃ n shortName s', chooseAlias env d name ignore s = .ok shortName s' ∧
      s'.volume env.geometry = s.volume env.geometry ∧ 0 < n ∧
      n ≤ (liveSlots (chainEntries env.geometry (s.volume env.geometry) l)).length + 1 ∧
      buildShortAlias name n = some shortName ∧
      scanForShortName shortName ignore
        (chainEntries env.geometry (s.volume env.geometry) l) ≠ .found () ∧
      ∀ k, 0 < k → k < n → ∀ taken, buildShortAlias name k = some taken →
        scanForShortName taken ignore
          (chainEntries env.geometry (s.volume env.geometry) l) = .found () := by
  obtain ⟨n, hpos, hn, target, hmade, hfree⟩ := exists_free_ordinal name ignore hlive
  obtain ⟨body, hbody, hnext⟩ : ∃ body, chooseAlias env d name ignore = loop body aliasLimit 1 ∧
      ∀ ordinal shortName, buildShortAlias name ordinal = some shortName → body ordinal = (do
        if ← shortNameExistsInDirectory env d shortName ignore then
          pure (.again (ordinal + 1))
        else pure (.done shortName)) := by
    refine ⟨_, rfl, ?_⟩
    intro ordinal shortName hmade
    simp only [hmade]
  -- from every ordinal up to `n` on the loop ends
  have hloop : ∀ (k fuel : Nat) (st : State), k ≤ n → n - k < fuel →
      st.volume env.geometry = s.volume env.geometry →
      ∃ m shortName s', loop body fuel k st = .ok shortName s' ∧
        s'.volume env.geometry = s.volume env.geometry ∧ k ≤ m ∧ m ≤ n ∧
        buildShortAlias name m = some shortName ∧
        scanForShortName shortName ignore
          (chainEntries env.geometry (s.volume env.geometry) l) ≠ .found () ∧
        ∀ j, k ≤ j → j < m → ∀ taken, buildShortAlias name j = some taken →
          scanForShortName taken ignore
            (chainEntries env.geometry (s.volume env.geometry) l) = .found () := by
    intro k fuel
    induction fuel generalizing k with
    | zero => intro st _ hlt; omega
    | succ fuel ih =>
      intro st hk hlt hv
      have hfat : st.fat = s.fat := congrArg Volume.fat hv
      obtain ⟨shortName, hmade', -⟩ := buildShortAlias_front (n := k) name (by omega)
      obtain ⟨b, s₁, hrun, hv₁, hexists⟩ := shortNameExistsInDirectory_run hfuel hrel
        (s := st) (by rw [hfat]; exact h) shortName ignore
      rw [hv] at hexists
      have hv₁ := hv₁.trans hv
      cases b with
      | false =>
        refine ⟨k, shortName, s₁, ?_, hv₁, Nat.le_refl _, hk, hmade', ?_, ?_⟩
        · rw [loop, bind_of_ok (a := .done shortName)]
          · rfl
          · rw [hnext k shortName hmade', bind_of_ok hrun]
            rfl
        · intro htaken
          exact Bool.noConfusion (hexists.mpr htaken)
        · intro j hj hlt
          omega
      | true =>
        have hne : k ≠ n := by
          rintro rfl
          obtain rfl : shortName = target := Option.some.inj (hmade'.symm.trans hmade)
          exact hfree (hexists.mp rfl)
        obtain ⟨m, chosen, s₂, hrest, hv₂, hkm, hmn, hchosen, hfree', htaken⟩ :=
          ih (k + 1) s₁ (by omega) (by omega) hv₁
        refine ⟨m, chosen, s₂, ?_, hv₂, by omega, hmn, hchosen, hfree', ?_⟩
        · rw [loop, bind_of_ok (a := .again (k + 1))]
          · exact hrest
          · rw [hnext k shortName hmade', bind_of_ok hrun]
            rfl
        · intro j hj hlt taken hmade₁
          rcases Nat.eq_or_lt_of_le hj with rfl | hj
          · obtain rfl : shortName = taken := Option.some.inj (hmade'.symm.trans hmade₁)
            exact hexists.mp rfl
          · exact htaken j hj hlt taken hmade₁
  have hlimit : maxOrdinal < aliasLimit := by decide
  obtain ⟨m, shortName, s', hrun, hv, hm, hmn, hrest⟩ :=
    hloop 1 aliasLimit s hpos (by omega) rfl
  rw [← hbody] at hrun
  exact ⟨m, shortName, s', hrun, hv, hm, hmn.trans hn, hrest⟩

/-- `build_name_entries` succeeds for every valid name in a directory that can be read and has
fewer entries than there are ordinals. -/
theorem buildNameEntries_run (ignore : Option (List UInt8))
    (hfuel : env.geometry.totalClusters < env.fuel) (hrel : ¬ env.Faulty)
    (h : Chain env.geometry s.fat d l)
    (hlive : (liveSlots (chainEntries env.geometry (s.volume env.geometry) l)).length < maxOrdinal)
    (hname : validateLongName name = true) (attributes : UInt8) (firstCluster size : Nat) :
    ∃ entries s' shortName,
      buildNameEntries env d name attributes firstCluster size ignore s = .ok entries s' ∧
      NameEntries name attributes firstCluster size shortName entries := by
  have hsat : Sat (buildNameEntries env d name attributes firstCluster size ignore) s _ _ :=
    buildNameEntries_sat hfuel h hname
  suffices hok : ∃ entries s',
      buildNameEntries env d name attributes firstCluster size ignore s = .ok entries s' by
    obtain ⟨entries, s', hrun⟩ := hok
    obtain ⟨-, shortName, hbuilt⟩ := hsat.of_ok hrun
    exact ⟨entries, s', shortName, hrun, hbuilt.entries⟩
  have hcount : ¬ lfnEntryCountForName name + 1 > maxNameEntries := by
    have hlen := (validateLongName_length hname).2
    simp only [nameCapacity] at hlen
    simp only [lfnEntryCountForName, maxNameEntries]
    omega
  have hlong : ∀ s₁ : State, s₁.volume env.geometry = s.volume env.geometry →
      ∃ entries s', (do
        let shortName ← chooseAlias env d name ignore
        let lfnCount := lfnEntryCountForName name
        if lfnCount + 1 > maxNameEntries then raise .invalidName
        else
          pure (buildLfnEntries name (shortNameChecksum shortName) lfnCount
            ++ [buildShortEntry shortName attributes firstCluster size]) :
          Driver (List DirectoryEntry)) s₁ = .ok entries s' := by
    intro s₁ hv
    have hfat : s₁.fat = s.fat := congrArg Volume.fat hv
    obtain ⟨-, shortName, s₂, hrun, -⟩ := chooseAlias_run name ignore hfuel hrel (s := s₁)
      (by rw [hfat]; exact h) (by rw [hv]; exact hlive)
    refine ⟨buildLfnEntries name (shortNameChecksum shortName) (lfnEntryCountForName name)
      ++ [buildShortEntry shortName attributes firstCluster size], s₂, ?_⟩
    rw [bind_of_ok hrun]
    simp only [if_neg hcount]
    rfl
  unfold buildNameEntries
  rw [if_pos hname]
  cases hexact : makeShortNameIfPossible name with
  | none => exact hlong s rfl
  | some shortName =>
    obtain ⟨b, s₁, hrun, hv, -⟩ := shortNameExistsInDirectory_run hfuel hrel h shortName ignore
    cases b with
    | true =>
      obtain ⟨entries, s', hrest⟩ := hlong s₁ hv
      exact ⟨entries, s', (bind_of_ok hrun).trans hrest⟩
    | false => exact ⟨_, s₁, bind_of_ok hrun⟩

/-! ## The round trip -/

/-- The name decoded for the last of the slots `entries`, scanned in order from the state `st`. -/
def scannedName (st : LfnState) (entries : List DirectoryEntry) : Option CStr :=
  entries.getLast?.map fun e =>
    decodeDirectoryEntryName e (entries.dropLast.foldl (fun st e => processLfnEntry e st) st)

theorem scannedName_append {st : LfnState} {lfn : List DirectoryEntry} {e : DirectoryEntry} :
    scannedName st (lfn ++ [e]) =
      some (decodeDirectoryEntryName e (lfn.foldl (fun st e => processLfnEntry e st) st)) := by
  simp [scannedName]

/-- The slots made for a name are read back as the name, from any state that has been reset. -/
theorem NameEntries.scannedName_eq {attributes : UInt8} {firstCluster size : Nat}
    {entries : List DirectoryEntry}
    (h : NameEntries name attributes firstCluster size shortName entries)
    (hname : validateLongName name = true) (st : LfnState) :
    entries.length ≤ maxNameEntries ∧ ∃ found, scannedName (lfnStateReset st) entries = some found ∧
      found = (if entries.length = 1 then name.map kToupper else name) ∧
      nameEqualsIgnoreCase found name = true := by
  obtain ⟨hpos, hcap⟩ := validateLongName_length hname
  simp only [nameCapacity] at hcap
  cases h with
  | short exact =>
    obtain ⟨hok, hfmt⟩ := makeShortNameIfPossible_format exact
    have hn := buildShortEntry_name attributes firstCluster size hok.length
    refine ⟨show 1 ≤ maxNameEntries by decide, name.map kToupper, ?_, rfl, ?_⟩
    · have hdecode : decodeDirectoryEntryName
          (buildShortEntry shortName attributes firstCluster size) (lfnStateReset st) =
            name.map kToupper := by
        rw [LfnState.dead_reset.decode_eq, hn, hfmt]
      exact congrArg some hdecode
    · rw [nameEqualsIgnoreCase, map_kToupper_idem]
      exact beq_self_eq_true _
  | long ordinal made =>
    have hn := buildShortEntry_name attributes firstCluster size
      (buildShortAlias_spec made).length
    obtain ⟨-, hread, hkinds⟩ := buildLfnEntries_read hname
      (shortNameChecksum shortName) (lfnStateReset st) LfnState.dead_reset
    have hlen : (buildLfnEntries name (shortNameChecksum shortName)
        (lfnEntryCountForName name)).length = lfnEntryCountForName name := buildLfnEntries_length
    have hcount : 0 < lfnEntryCountForName name ∧ lfnEntryCountForName name ≤ 10 := by
      unfold lfnEntryCountForName
      omega
    have hfold : (buildLfnEntries name (shortNameChecksum shortName)
        (lfnEntryCountForName name)).foldl (fun st e => processLfnEntry e st) (lfnStateReset st) =
        (buildLfnEntries name (shortNameChecksum shortName)
          (lfnEntryCountForName name)).foldl lfnStep (lfnStateReset st) := by
      refine List.foldl_ext _ _ _ fun st e he => ?_
      simp [lfnStep, hkinds e he]
    refine ⟨?_, name, ?_, ?_, by simp [nameEqualsIgnoreCase]⟩
    · rw [List.length_append, hlen, List.length_singleton, maxNameEntries]
      omega
    · rw [scannedName_append, hfold, (hread.decode_eq hname hn).2]
    · rw [List.length_append, hlen, List.length_singleton, if_neg (by omega)]

/-- Every valid name is built, in a directory that can be read and has few enough entries, and read
back: as it is where long-name slots were made, in upper case where only a short slot was. -/
theorem buildNameEntries_roundTrip (hfuel : env.geometry.totalClusters < env.fuel)
    (hrel : ¬ env.Faulty) (h : Chain env.geometry s.fat d l)
    (hlive : (liveSlots (chainEntries env.geometry (s.volume env.geometry) l)).length < maxOrdinal)
    (hname : validateLongName name = true) {attributes : UInt8} (hattr : LiveAttributes attributes)
    (firstCluster size : Nat) (st : LfnState) :
    ∃ entries, (buildNameEntries env d name attributes firstCluster size ignore s).result =
        some (.ok entries) ∧ entries.length ≤ maxNameEntries ∧
      (∀ e ∈ entries.dropLast, e.kind = .longName) ∧
      (∀ e ∈ entries.getLast?, e.kind = .live ∧ e.attributes = attributes) ∧
      ∃ found, scannedName (lfnStateReset st) entries = some found ∧
        found = (if entries.length = 1 then name.map kToupper else name) ∧
        nameEqualsIgnoreCase found name = true := by
  obtain ⟨entries, s', shortName, hrun, hentries⟩ := buildNameEntries_run ignore hfuel
    hrel h hlive hname attributes firstCluster size
  obtain ⟨hlen, hread⟩ := hentries.scannedName_eq hname st
  obtain ⟨lfn, rfl, hkinds⟩ := (hentries.block hname hattr).parts
  have hshort := (hentries.block hname hattr).live
  refine ⟨_, by rw [hrun]; rfl, hlen, ?_, ?_, hread⟩
  · rw [List.dropLast_concat]
    exact hkinds
  · intro e he
    rw [List.getLast?_concat, Option.mem_some_iff] at he
    subst he
    exact ⟨hshort, rfl⟩

theorem buildNameEntries_roundTrip_empty : ∃ entries,
    (buildNameEntries smallEnv 2 [0x61, 0x20, 0x62] attrArchive 0 0 none emptyState).result =
      some (.ok entries) ∧ entries.length ≤ maxNameEntries :=
  have hdir : Chain smallGeometry emptyState.fat 2 [2] :=
    chain_cons.mpr ⟨rfl, by decide, chain_nil.mpr (by decide +kernel)⟩
  have hbuilt := @buildNameEntries_roundTrip smallEnv emptyState 2 [2] [0x61, 0x20, 0x62] none
    (by decide) smallEnv_reliable hdir (by decide +kernel) (by decide +kernel) attrArchive
    (by decide) 0 0 .initial
  hbuilt.imp fun _ h => ⟨h.1, h.2.1⟩

end

end FunnyOS.Fat32
