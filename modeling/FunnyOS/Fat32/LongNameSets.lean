import FunnyOS.Fat32.LongNames

/-!
# Complete long-name sets

In a well-formed directory long-name slots occur only as complete sets: the slots are
numbered from `n` down to 1, the first one carries `FAT32_LFN_LAST`, all carry the checksum
of the short slot that follows. This is a condition on the bytes of the slots alone
(`Orderly`). The driver recognises such a set where it can decode its characters; with
that, the condition can be said in terms of the driver's own long-name state (`SlotStrict`).
-/

namespace FunnyOS.Fat32

/-- The number of a long-name slot in its set. -/
def DirectoryEntry.lfnOrder (e : DirectoryEntry) : Nat := (e.name0 &&& lfnEntryMask).toNat

/-- The slot is the first of its set. -/
def DirectoryEntry.isLfnLast (e : DirectoryEntry) : Bool := e.name0 &&& lfnLast != 0

/-- What must follow: nothing in particular, or slot number `n` of a set with a checksum,
where number 0 is the short slot. -/
abbrev SetState := Option (Nat × UInt8)

/-- What must follow a slot. -/
def setStep (_ : SetState) (e : DirectoryEntry) : SetState :=
  match e.kind with
  | .longName => some (e.lfnOrder - 1, e.lfnChecksum)
  | _ => none

/-- A slot is what must follow. -/
def SetOk (next : SetState) (e : DirectoryEntry) : Prop :=
  match e.kind with
  | .endMark => False
  | .longName => e.lfnOrder ≠ 0 ∧
    match next with
    | none => e.isLfnLast = true
    | some (n, sum) => e.isLfnLast = false ∧ e.lfnOrder = n ∧ e.lfnChecksum = sum
  | .live => next = none ∨ next = some (0, shortNameChecksum e.name)
  | .special => next = none ∧ e.IsDot
  | _ => next = none

/-- Long-name slots that are not deleted occur only as complete sets directly before the
entry they describe, slots that begin with a dot are `.` and `..`, and from the end mark on
every first byte is 0. -/
def Orderly (es : List DirectoryEntry) : Prop :=
  ∃ body tail, es = body ++ tail ∧ Checked setStep SetOk none body ∧
    body.foldl setStep none = none ∧ ∀ e ∈ tail, e.name0 = 0

/-- The driver can decode the characters of the long-name slots. -/
def Decodable (es : List DirectoryEntry) : Prop :=
  ∀ e ∈ es, e.kind = .longName → e.lfnUnits.all (fun u => (decodeLfnCharacter u).isSome) = true

/-- Complete, decodable sets in terms of the driver's state. -/
def SlotStrict (st : LfnState) (e : DirectoryEntry) : Prop :=
  match e.kind with
  | .endMark => False
  | .longName => e.lfnUnits.all (fun u => (decodeLfnCharacter u).isSome) = true ∧
    e.lfnOrder ≠ 0 ∧
    ((e.isLfnLast = true ∧ st.Dead) ∨
      (e.isLfnLast = false ∧ ¬ st.Dead ∧ e.lfnOrder + 1 = st.expectedOrder.toNat ∧
        e.lfnChecksum = st.checksum))
  | .live => st.Dead ∨ st.attached e = true
  | .special => st.Dead ∧ e.IsDot
  | _ => st.Dead

section

variable {st : LfnState} {e : DirectoryEntry} {es : List DirectoryEntry} {next : SetState}

instance : SlotRules SlotStrict where
  tidy := by
    intro st e h
    unfold SlotStrict at h
    unfold SlotTidy
    cases hk : e.kind <;> simp only [hk] at h ⊢ <;> exact h
  alike := by
    intro st st' e h hs
    rcases hs with rfl | ⟨hd, hd'⟩
    · exact h
    · unfold SlotStrict at h ⊢
      cases hk : e.kind <;> simp only [hk] at h ⊢
      · exact hd'
      · obtain ⟨h₁, h₂, h₃ | h₃⟩ := h
        · exact ⟨h₁, h₂, .inl ⟨h₃.1, hd'⟩⟩
        · exact absurd hd h₃.2.1
      · exact hd'
      · exact ⟨hd', h.2⟩
      · exact .inl hd'
  deleted hk hd := by simpa [SlotStrict, hk] using hd
  sameName := by
    intro st e e' hk hname hattr h
    unfold SlotStrict at h ⊢
    rw [kind_of_sameName hname hattr, attached_of_sameName hname]
    unfold DirectoryEntry.IsDot at h ⊢
    rw [hname]
    cases hk' : e.kind <;> simp only [hk'] at h ⊢ <;> first | exact h | exact absurd hk' hk

/-- Rules under which the slots that `build_name_entries` makes are acceptable. -/
class NameRules (ok : LfnState → DirectoryEntry → Prop) : Prop extends SlotRules ok where
  strict : ∀ {st e}, SlotStrict st e → ok st e

instance : NameRules SlotStrict := ⟨fun h => h⟩

instance : NameRules SlotTidy := ⟨fun h => SlotRules.tidy h⟩

/-! ## Storing the characters of a slot -/

theorem lfnStoreUnits_fields (units : List Nat) (index : Nat) (st : LfnState) :
    (lfnStoreUnits units index st).active = st.active ∧
    (lfnStoreUnits units index st).checksum = st.checksum ∧
    (lfnStoreUnits units index st).expectedOrder = st.expectedOrder ∧
    (lfnStoreUnits units index st).valid
      = (st.valid && units.all (fun u => (decodeLfnCharacter u).isSome)) := by
  induction units generalizing index st with
  | nil => simp [lfnStoreUnits]
  | cons u units ih =>
    rw [lfnStoreUnits]
    cases hu : decodeLfnCharacter u with
    | none => simp [hu]
    | some c => simpa [hu] using ih (index + 1) _

theorem lfnOrder_eq_zero : e.name0 &&& lfnEntryMask = 0 ↔ e.lfnOrder = 0 := by
  rw [DirectoryEntry.lfnOrder]
  constructor
  · intro h; rw [h]; rfl
  · intro h; exact UInt8.toNat_inj.mp h

/-- The first slot of a set starts a new name, whatever the state. -/
theorem processLfnEntry_first (hlast : e.isLfnLast = true) (h0 : e.lfnOrder ≠ 0) :
    processLfnEntry e st = lfnStoreUnits e.lfnUnits ((e.lfnOrder - 1) * 13)
      { active := true, valid := true, checksum := e.lfnChecksum,
        expectedOrder := e.name0 &&& lfnEntryMask, name := fun _ => 0 } := by
  have h0' : ¬ e.name0 &&& lfnEntryMask = 0 := fun h => h0 (lfnOrder_eq_zero.mp h)
  unfold processLfnEntry
  rw [DirectoryEntry.isLfnLast] at hlast
  simp only [hlast, if_true, h0', if_false]
  rfl

/-- The next slot of a set goes on with the name. -/
theorem processLfnEntry_next (hlast : e.isLfnLast = false) (h0 : e.lfnOrder ≠ 0)
    (hlive : ¬ st.Dead) (horder : e.lfnOrder + 1 = st.expectedOrder.toNat)
    (hsum : e.lfnChecksum = st.checksum) :
    processLfnEntry e st = lfnStoreUnits e.lfnUnits ((e.lfnOrder - 1) * 13)
      { st with expectedOrder := e.name0 &&& lfnEntryMask } := by
  have h0' : ¬ e.name0 &&& lfnEntryMask = 0 := fun h => h0 (lfnOrder_eq_zero.mp h)
  have hav : st.active = true ∧ st.valid = true := by
    simpa [LfnState.Dead] using hlive
  rw [DirectoryEntry.isLfnLast] at hlast
  rw [DirectoryEntry.lfnOrder] at horder
  have hcond : (!st.active || !st.valid || e.lfnChecksum != st.checksum
      || (e.name0 &&& lfnEntryMask) == 0
      || (e.name0 &&& lfnEntryMask).toNat + 1 != st.expectedOrder.toNat) = false := by
    rw [hav.1, hav.2, hsum, horder]
    simp [h0']
  unfold processLfnEntry
  simp only [hlast, Bool.false_eq_true, if_false, hcond]
  rfl

/-- Any other slot with the long-name attribute ends the name. -/
theorem processLfnEntry_dead (hlast : e.isLfnLast = false) (hd : st.Dead) :
    (processLfnEntry e st).Dead := by
  have hno : (!st.active || !st.valid) = true := by
    simp only [LfnState.Dead] at hd
    cases ha : st.active <;> cases hv : st.valid <;> simp_all
  unfold processLfnEntry
  rw [DirectoryEntry.isLfnLast] at hlast
  simp only [hlast, Bool.false_eq_true, if_false, hno, Bool.true_or, if_true]
  exact LfnState.dead_reset

/-! ## The driver's state follows a set -/

/-- The driver's state while a set is read: it expects what must follow, or, where a
character of the set cannot be decoded, it is dead. -/
def Follows (next : SetState) (st : LfnState) : Prop :=
  match next with
  | none => st.Dead
  | some (n, sum) => st.Dead ∨ (st.expectedOrder.toNat = n + 1 ∧ st.checksum = sum)

theorem follows_stored (base : LfnState) (h0 : e.lfnOrder ≠ 0)
    (horder : base.expectedOrder = e.name0 &&& lfnEntryMask)
    (hsum : base.checksum = e.lfnChecksum) (index : Nat) :
    Follows (some (e.lfnOrder - 1, e.lfnChecksum)) (lfnStoreUnits e.lfnUnits index base) := by
  obtain ⟨-, hc, ho, -⟩ := lfnStoreUnits_fields e.lfnUnits index base
  right
  refine ⟨?_, hc.trans hsum⟩
  rw [ho, horder]
  change e.lfnOrder = _
  omega

/-- Where the long-name slots of a directory are in complete sets, its slots are tidy. -/
theorem slotTidy_of_setOk (hR : Follows next st) (h : SetOk next e) :
    SlotTidy st e ∧ Follows (setStep next e) (lfnStep st e) := by
  unfold SetOk at h
  unfold SlotTidy setStep lfnStep
  cases hk : e.kind <;> simp only [hk] at h ⊢
  · subst h; exact ⟨hR, LfnState.dead_reset⟩
  · refine ⟨trivial, ?_⟩
    obtain ⟨h0, h⟩ := h
    cases next with
    | none =>
      rw [processLfnEntry_first h h0]
      exact follows_stored _ h0 rfl rfl _
    | some p =>
      obtain ⟨n, sum⟩ := p
      obtain ⟨hlast, rfl, rfl⟩ := h
      by_cases hd : st.Dead
      · exact .inl (processLfnEntry_dead hlast hd)
      · rcases hR with hd' | ⟨horder, hsum⟩
        · exact absurd hd' hd
        · rw [processLfnEntry_next hlast h0 hd horder.symm hsum.symm]
          exact follows_stored { st with expectedOrder := e.name0 &&& lfnEntryMask }
            h0 rfl hsum _
  · subst h; exact ⟨hR, LfnState.dead_reset⟩
  · obtain ⟨rfl, hdot⟩ := h; exact ⟨⟨hR, hdot⟩, LfnState.dead_reset⟩
  · refine ⟨?_, LfnState.dead_reset⟩
    rcases h with rfl | rfl
    · exact .inl hR
    · by_cases hd : st.Dead
      · exact .inl hd
      · right
        rcases hR with hd' | ⟨horder, hsum⟩
        · exact absurd hd' hd
        · have hav : st.active = true ∧ st.valid = true := by
            simpa [LfnState.Dead] using hd
          have h1 : st.expectedOrder = 1 := UInt8.toNat_inj.mp horder
          simp [LfnState.attached, hav, h1, hsum]

theorem Orderly.tidy (h : Orderly es) : Tidy SlotTidy es := by
  obtain ⟨body, tail, rfl, hbody, hlast, htail⟩ := h
  obtain ⟨h₁, h₂⟩ := hbody.simulate lfnStep SlotTidy Follows
    (fun _ _ _ hR hok => slotTidy_of_setOk hR hok)
    (show Follows none .initial from LfnState.dead_initial)
  rw [hlast] at h₂
  exact ⟨body, tail, rfl, h₁, h₂, htail⟩

/-- The driver's state while a set that it can decode is read. -/
def FollowsExactly (next : SetState) (st : LfnState) : Prop :=
  match next with
  | none => st.Dead
  | some (n, sum) => ¬ st.Dead ∧ st.expectedOrder.toNat = n + 1 ∧ st.checksum = sum

theorem followsExactly_stored (base : LfnState) (h0 : e.lfnOrder ≠ 0)
    (hunits : e.lfnUnits.all (fun u => (decodeLfnCharacter u).isSome) = true)
    (hav : (base.active && base.valid) = true)
    (horder : base.expectedOrder = e.name0 &&& lfnEntryMask)
    (hsum : base.checksum = e.lfnChecksum) (index : Nat) :
    FollowsExactly (some (e.lfnOrder - 1, e.lfnChecksum))
      (lfnStoreUnits e.lfnUnits index base) := by
  obtain ⟨ha, hc, ho, hv⟩ := lfnStoreUnits_fields e.lfnUnits index base
  refine ⟨?_, ?_, hc.trans hsum⟩
  · rw [LfnState.Dead, ha, hv, hunits, Bool.and_true, hav]
    exact Bool.noConfusion
  · rw [ho, horder]
    change e.lfnOrder = _
    omega

theorem slotStrict_of_setOk (hR : FollowsExactly next st) (h : SetOk next e)
    (hdec : e.kind = .longName →
      e.lfnUnits.all (fun u => (decodeLfnCharacter u).isSome) = true) :
    SlotStrict st e ∧ FollowsExactly (setStep next e) (lfnStep st e) := by
  unfold SetOk at h
  unfold SlotStrict setStep lfnStep
  cases hk : e.kind <;> simp only [hk] at h ⊢
  · subst h; exact ⟨hR, LfnState.dead_reset⟩
  · obtain ⟨h0, h⟩ := h
    have hunits := hdec hk
    cases next with
    | none =>
      rw [processLfnEntry_first h h0]
      exact ⟨⟨hunits, h0, .inl ⟨h, hR⟩⟩, followsExactly_stored _ h0 hunits rfl rfl rfl _⟩
    | some p =>
      obtain ⟨n, sum⟩ := p
      obtain ⟨hlast, rfl, rfl⟩ := h
      obtain ⟨hlive, horder, hsum⟩ := hR
      refine ⟨⟨hunits, h0, .inr ⟨hlast, hlive, horder.symm, hsum.symm⟩⟩, ?_⟩
      rw [processLfnEntry_next hlast h0 hlive horder.symm hsum.symm]
      refine followsExactly_stored { st with expectedOrder := e.name0 &&& lfnEntryMask }
        h0 hunits ?_ rfl hsum _
      simpa [LfnState.Dead] using hlive
  · subst h; exact ⟨hR, LfnState.dead_reset⟩
  · obtain ⟨rfl, hdot⟩ := h; exact ⟨⟨hR, hdot⟩, LfnState.dead_reset⟩
  · refine ⟨?_, LfnState.dead_reset⟩
    rcases h with rfl | rfl
    · exact .inl hR
    · obtain ⟨hlive, horder, hsum⟩ := hR
      have hav : st.active = true ∧ st.valid = true := by simpa [LfnState.Dead] using hlive
      have h1 : st.expectedOrder = 1 := UInt8.toNat_inj.mp horder
      exact .inr (by simp [LfnState.attached, hav, h1, hsum])

theorem setOk_of_slotStrict (hR : FollowsExactly next st) (h : SlotStrict st e) :
    SetOk next e ∧ FollowsExactly (setStep next e) (lfnStep st e) := by
  have hset : SetOk next e := by
    unfold SlotStrict at h
    unfold SetOk
    have hnone : st.Dead → next = none := by
      intro hd
      cases next with
      | none => rfl
      | some p => exact absurd hd hR.1
    cases hk : e.kind <;> simp only [hk] at h ⊢
    · exact hnone h
    · obtain ⟨-, h0, ⟨hlast, hd⟩ | ⟨hlast, hlive, horder, hsum⟩⟩ := h
      · rw [hnone hd]
        exact ⟨h0, hlast⟩
      · cases next with
        | none => exact absurd hR hlive
        | some p =>
          obtain ⟨-, ho, hs⟩ := hR
          exact ⟨h0, hlast, by omega, hsum.trans hs⟩
    · exact hnone h
    · exact ⟨hnone h.1, h.2⟩
    · rcases h with hd | ha
      · exact .inl (hnone hd)
      · right
        cases next with
        | none => rw [LfnState.Dead.not_attached hR] at ha; cases ha
        | some p =>
          obtain ⟨n, sum⟩ := p
          obtain ⟨-, ho, hs⟩ := hR
          simp only [LfnState.attached, Bool.and_eq_true, beq_iff_eq] at ha
          have h1 : st.expectedOrder.toNat = 1 := by rw [ha.1.2]; rfl
          rw [← hs, ha.2]
          congr 2
          omega
  refine ⟨hset, (slotStrict_of_setOk hR hset ?_).2⟩
  intro hk
  unfold SlotStrict at h
  simp only [hk] at h
  exact h.1

/-- In terms of the driver's state: complete sets that it can decode. -/
theorem tidy_slotStrict : Tidy SlotStrict es ↔ Orderly es ∧ Decodable es := by
  constructor
  · rintro ⟨body, tail, rfl, hbody, hdead, htail⟩
    obtain ⟨h₁, h₂⟩ := hbody.simulate setStep SetOk
      (fun st next => FollowsExactly next st)
      (fun _ _ _ hR hok => setOk_of_slotStrict hR hok)
      (show FollowsExactly none .initial from LfnState.dead_initial)
    refine ⟨⟨body, tail, rfl, h₁, ?_, htail⟩, ?_⟩
    · cases hn : body.foldl setStep none with
      | none => rfl
      | some p => rw [hn] at h₂; exact absurd hdead h₂.1
    · intro e he hk
      rcases List.mem_append.mp he with he | he
      · refine hbody.forall (p := fun e => e.kind = .longName →
          e.lfnUnits.all (fun u => (decodeLfnCharacter u).isSome) = true) ?_ e he hk
        intro st e hok hk
        unfold SlotStrict at hok
        simp only [hk] at hok
        exact hok.1
      · rw [DirectoryEntry.kind_endMark (htail e he)] at hk
        cases hk
  · rintro ⟨⟨body, tail, rfl, hbody, hlast, htail⟩, hdec⟩
    have hboth : ∀ (l : List DirectoryEntry) (next : SetState) (st : LfnState),
        (∀ e ∈ l, e ∈ body) → FollowsExactly next st → Checked setStep SetOk next l →
        Checked lfnStep SlotStrict st l ∧
          FollowsExactly (l.foldl setStep next) (l.foldl lfnStep st) := by
      intro l
      induction l with
      | nil => exact fun next st _ hR _ => ⟨trivial, hR⟩
      | cons e l ih =>
        intro next st hmem hR hok
        obtain ⟨h₁, h₂⟩ := slotStrict_of_setOk hR hok.1
          (hdec e (List.mem_append_left _ (hmem e (by simp))))
        obtain ⟨h₃, h₄⟩ := ih _ _ (fun x hx => hmem x (by simp [hx])) h₂ hok.2
        exact ⟨⟨h₁, h₃⟩, h₄⟩
    obtain ⟨h₁, h₂⟩ := hboth body none .initial (fun _ h => h) LfnState.dead_initial hbody
    rw [hlast] at h₂
    exact ⟨body, tail, rfl, h₁, h₂, htail⟩

end

end FunnyOS.Fat32
