import FunnyOS.Fat32.NameSpec

/-!
# Which long name belongs to a short slot

The state machine of `process_lfn_entry` is fed with arbitrary slots. What it decides is a
condition on the slots directly before the short slot alone: `LongNameSet`, a run of long-name
slots numbered from `n` down to 1, the first and only the first marked as such, all with the
checksum of the short name and all of whose characters can be decoded.
-/

namespace FunnyOS.Fat32

/-- A code unit of a long name: an end mark, or an ASCII character that a name may have. -/
def NameUnit (u : Nat) : Prop :=
  u = 0x0000 ∨ u = 0xFFFF ∨ (u < 0x80 ∧ isInvalidLfnCharacter (UInt8.ofNat u) = false)

instance (u : Nat) : Decidable (NameUnit u) := inferInstanceAs (Decidable (_ ∨ _ ∨ _))

/-- The slots of `run` are a complete long-name set for a short name with the checksum `sum`. -/
structure LongNameSet (run : List DirectoryEntry) (sum : UInt8) : Prop where
  nonempty : run ≠ []
  undeleted : ∀ e ∈ run, e.name0 ≠ deletedMark
  attributes : ∀ e ∈ run, e.attributes = attrLfn
  order : ∀ k (h : k < run.length), run[k].lfnOrder = run.length - k
  first : ∀ k (h : k < run.length), run[k].isLfnLast = true ↔ k = 0
  checksum : ∀ e ∈ run, e.lfnChecksum = sum
  units : ∀ e ∈ run, ∀ u ∈ e.lfnUnits, NameUnit u

/-- The characters of a set, slot 1 first: up to the first end mark, cut to fit the buffer. -/
def assembledName (run : List DirectoryEntry) : CStr :=
  (((run.reverse.flatMap DirectoryEntry.lfnUnits).takeWhile
    (fun u => u != 0x0000 && u != 0xFFFF)).map UInt8.ofNat).take (nameCapacity - 1)

/-- The slots directly before the short slot `e` spell the long name `name` for it. -/
def CarriesLongName (before : List DirectoryEntry) (e : DirectoryEntry) (name : CStr) : Prop :=
  name ≠ [] ∧ ∃ run, run <:+ before ∧ LongNameSet run (shortNameChecksum e.name) ∧
    assembledName run = name

/-- The name of the short slot `e` with the slots `before` in front of it. -/
def SlotName (before : List DirectoryEntry) (e : DirectoryEntry) (name : CStr) : Prop :=
  CarriesLongName before e name ∨
    (name = cString (formatShortName e.name) ∧ ∀ long, ¬ CarriesLongName before e long)

/-! ## Characters -/

theorem decodeLfnCharacter_isSome {u : Nat} (hu : u < 65536) :
    (decodeLfnCharacter u).isSome = true ↔ NameUnit u := by
  unfold decodeLfnCharacter NameUnit
  by_cases hend : u = 0x0000 ∨ u = 0xFFFF
  · rw [if_pos hend]
    exact ⟨fun _ => hend.imp_right .inl, fun _ => rfl⟩
  rw [if_neg hend]
  obtain ⟨h₀, h₁⟩ := not_or.mp hend
  have hbyte : ∀ c : UInt8, isInvalidLfnCharacter c = false → c.toNat < 0x80 :=
    forall_byte (by decide +kernel)
  by_cases hhigh : u / 256 = 0
  · have hlt : u < 256 := Nat.lt_of_div_eq_zero (by decide) hhigh
    have hnat : (UInt8.ofNat u).toNat = u := by simp [Nat.mod_eq_of_lt hlt]
    rw [if_neg (by simpa using hhigh)]
    cases hc : isInvalidLfnCharacter (UInt8.ofNat u)
    · have := hbyte _ hc
      rw [hnat] at this
      simp [this]
    · simp [h₀, h₁]
  · rw [if_pos (by simpa using hhigh)]
    have : ¬ u < 0x80 := fun h => hhigh (Nat.div_eq_of_lt (by omega))
    simp [h₀, h₁, this]

/-- The character that a code unit stands for, 0 for an end mark. -/
def unitChar (u : Nat) : UInt8 := (decodeLfnCharacter u).getD 0

theorem decodeLfnCharacter_eq {u : Nat} (h : (decodeLfnCharacter u).isSome = true) :
    decodeLfnCharacter u = some (unitChar u) := by
  obtain ⟨c, hc⟩ := Option.isSome_iff_exists.mp h
  rw [unitChar, hc]
  rfl

theorem lfnUnits_length (e : DirectoryEntry) : e.lfnUnits.length = 13 := rfl

theorem le16_lt (lo hi : UInt8) : le16 lo hi < 65536 := by
  have h₁ := lo.toNat_lt
  have h₂ := hi.toNat_lt
  unfold le16
  omega

theorem lfnUnits_lt {e : DirectoryEntry} {u : Nat} (h : u ∈ e.lfnUnits) : u < 65536 := by
  simp only [DirectoryEntry.lfnUnits, List.mem_cons, List.not_mem_nil, or_false] at h
  rcases h with rfl | rfl | rfl | rfl | rfl | rfl | rfl | rfl | rfl | rfl | rfl | rfl | rfl <;>
    exact le16_lt _ _

theorem lfnUnits_decodable {e : DirectoryEntry} :
    e.lfnUnits.all (fun u => (decodeLfnCharacter u).isSome) = true ↔
      ∀ u ∈ e.lfnUnits, NameUnit u := by
  rw [List.all_eq_true]
  exact forall₂_congr fun u hu => decodeLfnCharacter_isSome (lfnUnits_lt hu)

/-! ## Runs that may still go on -/

/-- The slots of a set down to number `order`. -/
inductive LongNameRun : List DirectoryEntry → UInt8 → Nat → Prop
  | first (e : DirectoryEntry) (kind : e.kind = .longName) (last : e.isLfnLast = true)
      (order : e.lfnOrder ≠ 0) (units : ∀ u ∈ e.lfnUnits, NameUnit u) :
      LongNameRun [e] e.lfnChecksum e.lfnOrder
  | next (run : List DirectoryEntry) (e : DirectoryEntry)
      (before : LongNameRun run e.lfnChecksum (e.lfnOrder + 1)) (kind : e.kind = .longName)
      (last : e.isLfnLast = false) (order : e.lfnOrder ≠ 0)
      (units : ∀ u ∈ e.lfnUnits, NameUnit u) :
      LongNameRun (run ++ [e]) e.lfnChecksum e.lfnOrder

/-- The code units that a run has collected, from number `order` on. -/
def runUnits (run : List DirectoryEntry) : List Nat :=
  run.reverse.flatMap DirectoryEntry.lfnUnits

section

variable {run run' before : List DirectoryEntry} {sum sum' : UInt8} {order order' : Nat}
  {e : DirectoryEntry} {st : LfnState}

theorem runUnits_snoc : runUnits (run ++ [e]) = e.lfnUnits ++ runUnits run := by
  simp [runUnits]

theorem LongNameRun.ne_nil (h : LongNameRun run sum order) : run ≠ [] := by
  cases h <;> simp

/-- The last slot of a run tells its checksum and its number. -/
theorem LongNameRun.getLast (h : LongNameRun (run ++ [e]) sum order) :
    e.kind = .longName ∧ e.lfnChecksum = sum ∧ e.lfnOrder = order ∧ e.lfnOrder ≠ 0 ∧
      (∀ u ∈ e.lfnUnits, NameUnit u) ∧
      ((run = [] ∧ e.isLfnLast = true) ∨
        (e.isLfnLast = false ∧ LongNameRun run sum (order + 1))) := by
  generalize hl : run ++ [e] = l at h
  cases h with
  | first e' hk hlast ho hu =>
    have hlen := congrArg List.length hl
    rw [List.length_append, List.length_singleton, List.length_singleton] at hlen
    have hnil : run = [] := List.eq_nil_of_length_eq_zero (by omega)
    rw [hnil, List.nil_append, List.singleton_inj] at hl
    subst hl
    exact ⟨hk, rfl, rfl, ho, hu, .inl ⟨hnil, hlast⟩⟩
  | next run' e' hrun hk hlast ho hu =>
    obtain ⟨rfl, he⟩ := List.append_inj' hl rfl
    obtain rfl := List.singleton_inj.mp he
    exact ⟨hk, rfl, rfl, ho, hu, .inr ⟨hlast, hrun⟩⟩

theorem LongNameRun.functional (h : LongNameRun run sum order) (h' : LongNameRun run sum' order') :
    sum = sum' ∧ order = order' := by
  rcases List.eq_nil_or_concat run with rfl | ⟨init, e, rfl⟩
  · exact absurd rfl h.ne_nil
  · rw [List.concat_eq_append] at h h'
    obtain ⟨-, hsum, horder, -⟩ := h.getLast
    obtain ⟨-, hsum', horder', -⟩ := h'.getLast
    exact ⟨hsum.symm.trans hsum', horder.symm.trans horder'⟩

/-- A list ends in one run at most. -/
theorem LongNameRun.unique (h : LongNameRun run sum order) (h' : LongNameRun run' sum' order')
    (hs : run <:+ before) (hs' : run' <:+ before) : run = run' := by
  induction before using List.reverseRecOn generalizing run run' sum sum' order order' with
  | nil => exact absurd (List.suffix_nil.mp hs) h.ne_nil
  | append_singleton before x ih =>
    rcases List.suffix_concat_iff.mp hs with rfl | ⟨a, rfl, ha⟩
    · exact absurd rfl h.ne_nil
    rcases List.suffix_concat_iff.mp hs' with rfl | ⟨b, rfl, hb⟩
    · exact absurd rfl h'.ne_nil
    obtain ⟨-, -, -, -, -, hprev⟩ := h.getLast
    obtain ⟨-, -, -, -, -, hprev'⟩ := h'.getLast
    rcases hprev with ⟨rfl, hlast⟩ | ⟨hlast, hrun⟩ <;>
      rcases hprev' with ⟨rfl, hlast'⟩ | ⟨hlast', hrun'⟩
    · rfl
    · exact absurd (hlast.symm.trans hlast') Bool.noConfusion
    · exact absurd (hlast.symm.trans hlast') Bool.noConfusion
    · rw [ih hrun hrun' ha hb]

/-! ## What the driver has read of a run -/

/-- The driver's state when it has read the slots of a run. -/
structure RunRead (run : List DirectoryEntry) (sum : UInt8) (order : Nat) (st : LfnState) :
    Prop where
  active : st.active = true
  valid : st.valid = true
  checksum : st.checksum = sum
  expected : st.expectedOrder.toNat = order
  chars : ∀ i, st.name i = if (order - 1) * 13 ≤ i ∧ i + 1 < nameCapacity
    then unitChar ((runUnits run).getD (i - (order - 1) * 13) 0) else 0

/-- Storing the units of one slot in front of what is stored already. -/
theorem stored_chars (run : List DirectoryEntry) (base : LfnState) (h0 : e.lfnOrder ≠ 0)
    (hunits : ∀ u ∈ e.lfnUnits, NameUnit u)
    (hbase : ∀ i, base.name i = if e.lfnOrder * 13 ≤ i ∧ i + 1 < nameCapacity
      then unitChar ((runUnits run).getD (i - e.lfnOrder * 13) 0) else 0) (i : Nat) :
    (lfnStoreUnits e.lfnUnits ((e.lfnOrder - 1) * 13) base).name i =
      if (e.lfnOrder - 1) * 13 ≤ i ∧ i + 1 < nameCapacity
      then unitChar ((runUnits (run ++ [e])).getD (i - (e.lfnOrder - 1) * 13) 0) else 0 := by
  have hsucc : e.lfnOrder * 13 = (e.lfnOrder - 1) * 13 + 13 := by omega
  have hdecode : ∀ k, (hk : k < e.lfnUnits.length) →
      decodeLfnCharacter e.lfnUnits[k] =
        some (unitChar (e.lfnUnits.getD ((e.lfnOrder - 1) * 13 + k - (e.lfnOrder - 1) * 13) 0)) := by
    intro k hk
    have hmem := List.getElem_mem hk
    rw [Nat.add_sub_cancel_left, List.getD_eq_getElem _ _ hk]
    exact decodeLfnCharacter_eq
      ((decodeLfnCharacter_isSome (lfnUnits_lt hmem)).mpr (hunits _ hmem))
  have hlast : base.name (nameCapacity - 1) = 0 := by
    rw [hbase, if_neg (fun h => absurd h.2 (by decide))]
  rw [lfnStoreUnits_eq (f := fun i => unitChar (e.lfnUnits.getD (i - (e.lfnOrder - 1) * 13) 0))
    _ _ base hdecode hlast]
  simp only [lfnUnits_length, runUnits_snoc, hbase i]
  by_cases hin : (e.lfnOrder - 1) * 13 ≤ i ∧ i < (e.lfnOrder - 1) * 13 + 13 ∧ i + 1 < nameCapacity
  · rw [if_pos hin, if_pos ⟨hin.1, hin.2.2⟩,
      List.getD_append _ _ _ _ (by rw [lfnUnits_length]; omega)]
  rw [if_neg hin]
  by_cases hold : e.lfnOrder * 13 ≤ i ∧ i + 1 < nameCapacity
  · have hsub : i - (e.lfnOrder - 1) * 13 - 13 = i - e.lfnOrder * 13 := by omega
    have hlow : (e.lfnOrder - 1) * 13 ≤ i := by omega
    rw [if_pos hold, if_pos ⟨hlow, hold.2⟩,
      List.getD_append_right _ _ _ _ (by rw [lfnUnits_length]; omega), lfnUnits_length, hsub]
  · have hout : ¬ ((e.lfnOrder - 1) * 13 ≤ i ∧ i + 1 < nameCapacity) := by omega
    rw [if_neg hold, if_neg hout]

/-- The first slot of a set has been read. -/
theorem runRead_first (hlast : e.isLfnLast = true) (h0 : e.lfnOrder ≠ 0)
    (hunits : ∀ u ∈ e.lfnUnits, NameUnit u) :
    RunRead [e] e.lfnChecksum e.lfnOrder (processLfnEntry e st) := by
  rw [processLfnEntry_first hlast h0]
  obtain ⟨ha, hc, ho, hv⟩ := lfnStoreUnits_fields e.lfnUnits ((e.lfnOrder - 1) * 13)
    { active := true, valid := true, checksum := e.lfnChecksum,
      expectedOrder := e.name0 &&& lfnEntryMask, name := fun _ => 0 }
  refine ⟨ha, ?_, hc, by rw [ho]; rfl, ?_⟩
  · rw [hv, lfnUnits_decodable.mpr hunits, Bool.and_true]
  · intro i
    have hstored := stored_chars []
      { active := true, valid := true, checksum := e.lfnChecksum,
        expectedOrder := e.name0 &&& lfnEntryMask, name := fun _ => 0 } h0 hunits
      (fun i => by simp [runUnits, unitChar, decodeLfnCharacter]) i
    simpa using hstored

/-- The next slot of a set has been read. -/
theorem runRead_next (h : RunRead run sum (e.lfnOrder + 1) st) (hlast : e.isLfnLast = false)
    (h0 : e.lfnOrder ≠ 0) (hsum : e.lfnChecksum = sum)
    (hunits : ∀ u ∈ e.lfnUnits, NameUnit u) :
    RunRead (run ++ [e]) sum e.lfnOrder (processLfnEntry e st) := by
  have hlive : ¬ st.Dead := by simp [LfnState.Dead, h.active, h.valid]
  rw [processLfnEntry_next hlast h0 hlive h.expected.symm (hsum.trans h.checksum.symm)]
  obtain ⟨ha, hc, ho, hv⟩ := lfnStoreUnits_fields e.lfnUnits ((e.lfnOrder - 1) * 13)
    { st with expectedOrder := e.name0 &&& lfnEntryMask }
  refine ⟨ha.trans h.active, ?_, hc.trans h.checksum, by rw [ho]; rfl, ?_⟩
  · rw [hv, lfnUnits_decodable.mpr hunits, Bool.and_true]
    exact h.valid
  · exact stored_chars run { st with expectedOrder := e.name0 &&& lfnEntryMask } h0 hunits
      h.chars

/-- A slot with the long-name attribute that does not go on with what has been read. -/
theorem processLfnEntry_ends (hdead : st.Dead ∨ e.lfnOrder + 1 ≠ st.expectedOrder.toNat ∨
    e.lfnChecksum ≠ st.checksum ∨ e.lfnOrder = 0) (hlast : e.isLfnLast = false) :
    (processLfnEntry e st).Dead := by
  by_cases hd : st.Dead
  · exact processLfnEntry_dead hlast hd
  have hcond : (!st.active || !st.valid || e.lfnChecksum != st.checksum
      || (e.name0 &&& lfnEntryMask) == 0
      || (e.name0 &&& lfnEntryMask).toNat + 1 != st.expectedOrder.toNat) = true := by
    rcases hdead with h | h | h | h
    · exact absurd h hd
    · rw [DirectoryEntry.lfnOrder] at h
      rw [Bool.or_eq_true]
      exact .inr (bne_iff_ne.mpr h)
    · simp [h]
    · simp [lfnOrder_eq_zero.mpr h]
  unfold processLfnEntry
  rw [DirectoryEntry.isLfnLast] at hlast
  simp only [hlast, Bool.false_eq_true, if_false, hcond, if_true]
  exact LfnState.dead_reset

/-- A slot whose characters cannot be decoded ends what has been read. -/
theorem processLfnEntry_undecodable (h : ¬ ∀ u ∈ e.lfnUnits, NameUnit u) :
    (processLfnEntry e st).Dead := by
  have hstored : ∀ index base, (lfnStoreUnits e.lfnUnits index base).Dead := by
    intro index base
    obtain ⟨-, -, -, hv⟩ := lfnStoreUnits_fields e.lfnUnits index base
    have hfalse : e.lfnUnits.all (fun u => (decodeLfnCharacter u).isSome) = false :=
      Bool.eq_false_iff.mpr (fun hall => h (lfnUnits_decodable.mp hall))
    rw [LfnState.Dead, hv, hfalse, Bool.and_false, Bool.and_false]
  unfold processLfnEntry
  simp only
  split_ifs
  · exact LfnState.dead_reset
  · exact hstored _ _
  · exact LfnState.dead_reset
  · exact hstored _ _

/-- What the driver's state says of the slots that have been read: it has read the run in which
they end, or they end in no run. -/
theorem lfnState_cases (before : List DirectoryEntry) (st₀ : LfnState) (h₀ : st₀.Dead) :
    (∃ run sum order, run <:+ before ∧ LongNameRun run sum order ∧
      RunRead run sum order (before.foldl lfnStep st₀)) ∨
    ((before.foldl lfnStep st₀).Dead ∧
      ∀ run sum order, run <:+ before → ¬ LongNameRun run sum order) := by
  induction before using List.reverseRecOn with
  | nil =>
    right
    exact ⟨h₀, fun run sum order hs h => h.ne_nil (List.suffix_nil.mp hs)⟩
  | append_singleton before e ih =>
    rw [List.foldl_append, List.foldl_cons, List.foldl_nil]
    generalize before.foldl lfnStep st₀ = st at ih
    -- a run in which the longer list ends has `e` as its last slot
    have hlastSlot : ∀ run sum order, run <:+ before ++ [e] → LongNameRun run sum order →
        ∃ run', run = run' ++ [e] ∧ run' <:+ before := by
      intro run sum order hs h
      rcases List.suffix_concat_iff.mp hs with rfl | ⟨run', rfl, hs'⟩
      · exact absurd rfl h.ne_nil
      · exact ⟨run', rfl, hs'⟩
    have hnone : (∀ run sum order, run <:+ before → ¬ LongNameRun (run ++ [e]) sum order) →
        ∀ run sum order, run <:+ before ++ [e] → ¬ LongNameRun run sum order := by
      intro hno run sum order hs h
      obtain ⟨run', rfl, hs'⟩ := hlastSlot run sum order hs h
      exact hno run' sum order hs' h
    by_cases hk : e.kind = .longName
    · have hstep : lfnStep st e = processLfnEntry e st := by simp [lfnStep, hk]
      rw [hstep]
      by_cases hunits : ∀ u ∈ e.lfnUnits, NameUnit u
      · by_cases h0 : e.lfnOrder = 0
        · right
          refine ⟨?_, hnone fun run sum order _ h => h.getLast.2.2.2.1 h0⟩
          cases hlast : e.isLfnLast
          · exact processLfnEntry_ends (.inr (.inr (.inr h0))) hlast
          · unfold processLfnEntry
            rw [DirectoryEntry.isLfnLast] at hlast
            simp only [hlast, if_true, lfnOrder_eq_zero.mpr h0]
            exact LfnState.dead_reset
        · cases hlast : e.isLfnLast
          · rcases ih with ⟨run, sum, order, hs, hrun, hread⟩ | ⟨hdead, hno⟩
            · by_cases hfits : e.lfnOrder + 1 = order ∧ e.lfnChecksum = sum
              · obtain ⟨rfl, rfl⟩ := hfits
                left
                exact ⟨run ++ [e], e.lfnChecksum, e.lfnOrder,
                  List.suffix_concat_iff.mpr (.inr ⟨run, rfl, hs⟩),
                  .next run e hrun hk hlast h0 hunits, runRead_next hread hlast h0 rfl hunits⟩
              · right
                refine ⟨processLfnEntry_ends ?_ hlast, hnone ?_⟩
                · rw [hread.expected, hread.checksum]
                  rcases not_and_or.mp hfits with h | h
                  · exact .inr (.inl h)
                  · exact .inr (.inr (.inl h))
                · intro run' sum' order' hs' h
                  obtain ⟨-, hsum, horder, -, -, ⟨-, hl⟩ | ⟨-, hprev⟩⟩ := h.getLast
                  · exact absurd (hlast.symm.trans hl) Bool.noConfusion
                  · obtain rfl := hprev.unique hrun hs' hs
                    obtain ⟨h₁, h₂⟩ := hprev.functional hrun
                    exact hfits ⟨horder ▸ h₂, hsum.trans h₁⟩
            · right
              refine ⟨processLfnEntry_dead hlast hdead, hnone ?_⟩
              intro run' sum' order' hs' h
              obtain ⟨-, -, -, -, -, ⟨-, hl⟩ | ⟨-, hprev⟩⟩ := h.getLast
              · exact absurd (hlast.symm.trans hl) Bool.noConfusion
              · exact hno run' sum' (order' + 1) hs' hprev
          · left
            exact ⟨[e], e.lfnChecksum, e.lfnOrder,
              List.suffix_concat_iff.mpr (.inr ⟨[], rfl, List.nil_suffix⟩),
              .first e hk hlast h0 hunits, runRead_first hlast h0 hunits⟩
      · right
        exact ⟨processLfnEntry_undecodable hunits,
          hnone fun run sum order _ h => hunits h.getLast.2.2.2.2.1⟩
    · right
      exact ⟨lfnStep_dead hk, hnone fun run sum order _ h => hk h.getLast.1⟩

/-! ## Complete sets -/

theorem kind_eq_longName : e.kind = .longName ↔
    e.name0 ≠ 0 ∧ e.name0 ≠ deletedMark ∧ e.attributes = attrLfn := by
  unfold DirectoryEntry.kind
  split_ifs <;> simp_all

theorem name0_of_lfnOrder (h : e.lfnOrder ≠ 0) : e.name0 ≠ 0 := by
  intro h0
  rw [DirectoryEntry.lfnOrder, h0] at h
  exact h (by decide)

/-- A run down to number `order` is a run whose slots are numbered so, and so on. -/
theorem longNameRun_iff : LongNameRun run sum order ↔
    order ≠ 0 ∧ run ≠ [] ∧ (∀ e ∈ run, e.kind = .longName) ∧
      (∀ k (h : k < run.length), run[k].lfnOrder + 1 = run.length - k + order) ∧
      (∀ k (h : k < run.length), run[k].isLfnLast = true ↔ k = 0) ∧
      (∀ e ∈ run, e.lfnChecksum = sum) ∧ ∀ e ∈ run, ∀ u ∈ e.lfnUnits, NameUnit u := by
  induction run using List.reverseRecOn generalizing order with
  | nil => exact ⟨fun h => absurd rfl h.ne_nil, fun h => absurd rfl h.2.1⟩
  | append_singleton run e ih =>
    constructor
    · intro h
      obtain ⟨hk, rfl, rfl, h0, hunits, ⟨rfl, hlast⟩ | ⟨hlast, hprev⟩⟩ := h.getLast
      · refine ⟨h0, by simp, by simp [hk], ?_, ?_, by simp, by simpa using hunits⟩
        · intro k hk
          obtain rfl : k = 0 := by simpa using hk
          simp [Nat.add_comm]
        · intro k hk
          obtain rfl : k = 0 := by simpa using hk
          simp [hlast]
      · obtain ⟨-, hne, hkinds, horder, hfirst, hsum, hun⟩ := ih.mp hprev
        refine ⟨h0, by simp, ?_, ?_, ?_, ?_, ?_⟩
        · exact List.forall_mem_append.mpr ⟨hkinds, by simp [hk]⟩
        · intro k hlt
          rw [List.length_append, List.length_singleton] at hlt ⊢
          by_cases hin : k < run.length
          · rw [List.getElem_append_left hin]
            have := horder k hin
            omega
          · obtain rfl : k = run.length := by omega
            rw [List.getElem_concat_length rfl]
            omega
        · intro k hlt
          rw [List.length_append, List.length_singleton] at hlt
          by_cases hin : k < run.length
          · rw [List.getElem_append_left hin]
            exact hfirst k hin
          · obtain rfl : k = run.length := by omega
            rw [List.getElem_concat_length rfl, hlast]
            simpa using hne
        · exact List.forall_mem_append.mpr ⟨hsum, by simp⟩
        · exact List.forall_mem_append.mpr ⟨hun, by simpa using hunits⟩
    · rintro ⟨h0, -, hkinds, horder, hfirst, hsum, hun⟩
      obtain ⟨hkinds, hk⟩ := List.forall_mem_append.mp hkinds
      obtain ⟨hsum, hs⟩ := List.forall_mem_append.mp hsum
      obtain ⟨hun, hunits⟩ := List.forall_mem_append.mp hun
      have hk := hk e (by simp)
      obtain rfl := hs e (by simp)
      have hunits := hunits e (by simp)
      have hlen : run.length < (run ++ [e]).length := by simp
      have hord : e.lfnOrder = order := by
        have := horder run.length hlen
        rw [List.getElem_concat_length rfl, List.length_append, List.length_singleton] at this
        omega
      have hlast := hfirst run.length hlen
      rw [List.getElem_concat_length rfl] at hlast
      subst hord
      by_cases hnil : run = []
      · subst hnil
        exact .first e hk (hlast.mpr rfl) h0 hunits
      · have hfalse : e.isLfnLast = false := by
          rw [Bool.eq_false_iff]
          exact fun ht => hnil (List.eq_nil_of_length_eq_zero (hlast.mp ht))
        refine .next run e (ih.mpr ⟨by omega, hnil, hkinds, ?_, ?_, hsum, hun⟩) hk hfalse h0 hunits
        · intro k hlt
          have := horder k (by simp; omega)
          rw [List.getElem_append_left hlt, List.length_append, List.length_singleton] at this
          omega
        · intro k hlt
          have := hfirst k (by simp; omega)
          rwa [List.getElem_append_left hlt] at this

/-- A complete set is a run down to number 1. -/
theorem longNameSet_iff : LongNameSet run sum ↔ LongNameRun run sum 1 := by
  rw [longNameRun_iff]
  constructor
  · intro h
    refine ⟨by decide, h.nonempty, ?_, fun k hk => by rw [h.order k hk], h.first, h.checksum,
      h.units⟩
    intro e he
    obtain ⟨k, hk, rfl⟩ := List.getElem_of_mem he
    have horder := h.order k hk
    exact kind_eq_longName.mpr
      ⟨name0_of_lfnOrder (by omega), h.undeleted _ he, h.attributes _ he⟩
  · rintro ⟨-, hne, hkinds, horder, hfirst, hsum, hun⟩
    exact ⟨hne, fun e he => (kind_eq_longName.mp (hkinds e he)).2.1,
      fun e he => (kind_eq_longName.mp (hkinds e he)).2.2,
      fun k hk => Nat.succ_injective (horder k hk), hfirst, hsum, hun⟩

/-- A set has at most as many slots as an order byte can number. -/
theorem LongNameSet.length_le (h : LongNameSet run sum) : run.length ≤ 31 := by
  have hpos := List.length_pos_of_ne_nil h.nonempty
  have horder := h.order 0 hpos
  have hmask : ∀ b : UInt8, (b &&& lfnEntryMask).toNat ≤ 31 := forall_byte (by decide +kernel)
  have := hmask run[0].name0
  rw [DirectoryEntry.lfnOrder] at horder
  omega

/-! ## The name of a slot -/

theorem unitChar_eq_zero {u : Nat} (h : NameUnit u) : unitChar u = 0 ↔ u = 0x0000 ∨ u = 0xFFFF := by
  unfold unitChar decodeLfnCharacter
  by_cases hend : u = 0x0000 ∨ u = 0xFFFF
  · simp [hend]
  · obtain ⟨hlt, hvalid⟩ := (h.resolve_left (not_or.mp hend).1).resolve_left (not_or.mp hend).2
    have hhigh : ¬ u / 256 ≠ 0 := by omega
    rw [if_neg hend, if_neg hhigh, hvalid]
    simpa [hend] using valid_ne_zero _ hvalid

theorem unitChar_of_ne_zero {u : Nat} (h : unitChar u ≠ 0) : unitChar u = UInt8.ofNat u := by
  unfold unitChar decodeLfnCharacter at h ⊢
  split_ifs at h ⊢ <;> simp_all

/-- Up to the first end mark, the characters of the units are the units. -/
theorem takeWhile_unitChar {l : List Nat} (h : ∀ u ∈ l, NameUnit u) :
    (l.map unitChar).takeWhile (· != 0) =
      (l.takeWhile (fun u => u != 0x0000 && u != 0xFFFF)).map UInt8.ofNat := by
  induction l with
  | nil => rfl
  | cons u l ih =>
    have hzero := unitChar_eq_zero (h u (by simp))
    rw [List.map_cons, List.takeWhile_cons, List.takeWhile_cons]
    by_cases hu : u = 0x0000 ∨ u = 0xFFFF
    · have hstop : (u != 0x0000 && u != 0xFFFF) = false := by
        rcases hu with rfl | rfl <;> rfl
      simp [hzero.mpr hu, hstop]
    · have hgo : (u != 0x0000 && u != 0xFFFF) = true := by simpa using hu
      have hne : unitChar u ≠ 0 := fun h0 => hu (hzero.mp h0)
      rw [if_pos (by simpa using hne), if_pos hgo, List.map_cons, unitChar_of_ne_zero hne,
        ih fun x hx => h x (by simp [hx])]

/-- The buffer after a complete set holds the assembled name. -/
theorem RunRead.cString_eq (h : RunRead run sum 1 st)
    (hunits : ∀ e ∈ run, ∀ u ∈ e.lfnUnits, NameUnit u) :
    cString ((List.range nameCapacity).map st.name) = assembledName run := by
  have hunits' : ∀ u ∈ runUnits run, NameUnit u := by
    intro u hu
    obtain ⟨e, he, hu⟩ := List.mem_flatMap.mp hu
    exact hunits e (List.mem_reverse.mp he) u hu
  have hbuf : (List.range nameCapacity).map st.name =
      ((runUnits run).map unitChar).take (nameCapacity - 1) ++
        List.replicate (nameCapacity - min (nameCapacity - 1) (runUnits run).length) 0 := by
    refine List.ext_getElem (by simp) ?_
    intro i h₁ h₂
    have hi : i < nameCapacity := by simpa using h₁
    rw [List.getElem_map, List.getElem_range, h.chars i]
    simp only [Nat.sub_self, Nat.zero_mul, Nat.zero_le, true_and, Nat.sub_zero]
    by_cases hin : i < nameCapacity - 1 ∧ i < (runUnits run).length
    · rw [if_pos (by omega), List.getElem_append_left (by simp; omega), List.getElem_take,
        List.getElem_map, List.getD_eq_getElem _ _ hin.2]
    · rw [List.getElem_append_right (by simp; omega), List.getElem_replicate]
      split_ifs with hcap
      · rw [List.getD_eq_default _ _ (by omega)]
        rfl
      · rfl
  have hzeros : nameCapacity - min (nameCapacity - 1) (runUnits run).length =
      nameCapacity - min (nameCapacity - 1) (runUnits run).length - 1 + 1 := by
    simp only [nameCapacity]
    omega
  have htake : ∀ l : List UInt8, ∀ n, (l ++ List.replicate (n + 1) 0).takeWhile (· != 0) =
      l.takeWhile (· != 0) := by
    intro l n
    induction l with
    | nil => simp [List.replicate_succ]
    | cons c l ih => simp only [List.cons_append, List.takeWhile_cons, ih]
  rw [hbuf, hzeros, cString, htake, ← List.take_takeWhile, takeWhile_unitChar hunits']
  rfl

/-- Whether a set spells an empty name shows in the first byte of the buffer. -/
theorem RunRead.name_zero (h : RunRead run sum 1 st)
    (hunits : ∀ e ∈ run, ∀ u ∈ e.lfnUnits, NameUnit u) :
    st.name 0 = 0 ↔ assembledName run = [] := by
  rw [← h.cString_eq hunits, cString]
  have hrange : List.range nameCapacity = 0 :: (List.range' 1 (nameCapacity - 1)) := by decide
  rw [hrange, List.map_cons, List.takeWhile_cons]
  by_cases h0 : st.name 0 = 0 <;> simp [h0]

/-- The name that the driver decodes is the one that the slots before the short slot give it. -/
theorem slotName_decode (before : List DirectoryEntry) (e : DirectoryEntry) :
    SlotName before e (decodeDirectoryEntryName e (before.foldl lfnStep .initial)) := by
  have hshort : ∀ st : LfnState, (st.attached e && st.name 0 != 0) = false →
      decodeDirectoryEntryName e st = cString (formatShortName e.name) := by
    intro st h
    rw [decodeDirectoryEntryName, h]
    simp
  rcases lfnState_cases before .initial LfnState.dead_initial with
    ⟨run, sum, order, hs, hrun, hread⟩ | ⟨hdead, hno⟩
  · generalize before.foldl lfnStep .initial = st at hread
    by_cases hset : order = 1 ∧ sum = shortNameChecksum e.name
    · obtain ⟨rfl, rfl⟩ := hset
      have hcomplete := longNameSet_iff.mpr hrun
      have hatt : st.attached e = true := by
        have h1 : st.expectedOrder = 1 := UInt8.toNat_inj.mp hread.expected
        simp [LfnState.attached, hread.active, hread.valid, h1, hread.checksum]
      by_cases hempty : assembledName run = []
      · right
        refine ⟨hshort st ?_, ?_⟩
        · simp [(hread.name_zero hcomplete.units).mpr hempty]
        · rintro long ⟨hne, run', hs', hset', rfl⟩
          rw [(longNameSet_iff.mp hset').unique hrun hs' hs] at hne
          exact hne hempty
      · left
        have hname : st.name 0 ≠ 0 := fun h0 => hempty ((hread.name_zero hcomplete.units).mp h0)
        rw [decodeDirectoryEntryName, hatt, Bool.true_and, if_pos (by simpa using hname),
          hread.cString_eq hcomplete.units]
        exact ⟨hempty, run, hs, hcomplete, rfl⟩
    · right
      refine ⟨hshort st ?_, ?_⟩
      · have hatt : st.attached e = false := by
          rw [Bool.eq_false_iff]
          intro hatt
          simp only [LfnState.attached, Bool.and_eq_true, beq_iff_eq] at hatt
          apply hset
          rw [← hread.checksum, ← hread.expected, hatt.1.2]
          exact ⟨rfl, hatt.2⟩
        rw [hatt, Bool.false_and]
      · rintro long ⟨-, run', hs', hset', rfl⟩
        have hrun' := longNameSet_iff.mp hset'
        obtain rfl := hrun'.unique hrun hs' hs
        obtain ⟨h₁, h₂⟩ := hrun.functional hrun'
        exact hset ⟨h₂, h₁⟩
  · right
    refine ⟨hdead.decode_eq, ?_⟩
    rintro long ⟨-, run, hs, hset, rfl⟩
    exact hno run _ 1 hs (longNameSet_iff.mp hset)

/-- Slots give at most one long name. -/
theorem CarriesLongName.unique {a b : CStr} (ha : CarriesLongName before e a)
    (hb : CarriesLongName before e b) : a = b := by
  obtain ⟨-, run, hs, hset, rfl⟩ := ha
  obtain ⟨-, run', hs', hset', rfl⟩ := hb
  rw [(longNameSet_iff.mp hset).unique (longNameSet_iff.mp hset') hs hs']

/-- Every short slot has one name. -/
theorem SlotName.unique {a b : CStr} (ha : SlotName before e a) (hb : SlotName before e b) :
    a = b := by
  rcases ha with ha | ⟨rfl, hno⟩ <;> rcases hb with hb | ⟨rfl, hno'⟩
  · exact ha.unique hb
  · exact absurd ha (hno' a)
  · exact absurd hb (hno b)
  · rfl

/-- A name fits into the buffer with its terminating NUL. -/
theorem SlotName.length_lt {name : CStr} (h : SlotName before e name) :
    name.length < nameCapacity := by
  rcases h with ⟨-, run, -, -, rfl⟩ | ⟨rfl, -⟩
  · rw [assembledName, List.length_take]
    exact (Nat.min_le_left _ _).trans_lt (by decide)
  · have hle : (cString (formatShortName e.name)).length ≤ (formatShortName e.name).length :=
      (List.takeWhile_sublist _).length_le
    have hbase := (List.takeWhile_sublist (l := e.name.take 8) (· != 0x20)).length_le
    have hext := (List.takeWhile_sublist (l := e.name.drop 8) (· != 0x20)).length_le
    have hname : e.name.length = 11 := by simp [DirectoryEntry.name]
    rw [List.length_take, hname] at hbase
    rw [List.length_drop, hname] at hext
    refine hle.trans_lt ?_
    unfold formatShortName
    simp only [nameCapacity]
    split
    · rw [List.length_append, List.length_cons]
      omega
    · omega

end

end FunnyOS.Fat32
