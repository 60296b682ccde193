import FunnyOS.Fat32.Api
import FunnyOS.Lib.Checked

/-!
# Entries and their long names

What a scan of a directory sees: the entries in front of the end mark, each with the name
that the long-name slots before it give it. The state that the scans keep for long names
matters only while it is live: `LfnState.Dead` states are all alike. In a tidy directory
every slot that is neither part of a long name nor an entry is met with a dead state, so
that nothing can attach to an entry written in its place.
-/

namespace FunnyOS.Fat32

/-! ## Kinds of slots -/

/-- What a slot is for the scanning loops, in the order of their tests. -/
inductive SlotKind where
  | endMark
  | deleted
  | longName
  | label
  | special
  | live
  deriving DecidableEq

/-- The tests of the scanning loops. -/
def DirectoryEntry.kind (e : DirectoryEntry) : SlotKind :=
  if e.name0 = 0 then .endMark
  else if e.name0 = deletedMark then .deleted
  else if e.attributes = attrLfn then .longName
  else if e.attributes &&& attrVolumeId ≠ 0 then .label
  else if e.name0 = 0x2E then .special
  else .live

/-- The slots `.` and `..`. -/
def DirectoryEntry.IsDot (e : DirectoryEntry) : Prop :=
  e.name = fillSpecialDirName [0x2E] ∨ e.name = fillSpecialDirName [0x2E, 0x2E]

instance (e : DirectoryEntry) : Decidable e.IsDot := inferInstanceAs (Decidable (_ ∨ _))

section

variable {e : DirectoryEntry}

theorem DirectoryEntry.kind_endMark (h : e.name0 = 0) : e.kind = .endMark := if_pos h

theorem DirectoryEntry.kind_eq_endMark : e.kind = .endMark ↔ e.name0 = 0 := by
  unfold kind
  split_ifs with h <;> simp [h]

theorem DirectoryEntry.kind_eq_deleted :
    e.kind = .deleted ↔ e.name0 = deletedMark := by
  unfold kind
  split_ifs with h₀ h₁ <;> simp_all [deletedMark]

theorem DirectoryEntry.kind_setDeleted : e.setDeleted.kind = .deleted :=
  kind_eq_deleted.mpr rfl

/-- The slots that `find_free_entry_in_cluster_dir` takes as free. -/
def DirectoryEntry.IsFree (e : DirectoryEntry) : Prop := e.name0 = 0 ∨ e.name0 = deletedMark

instance : Decidable e.IsFree := inferInstanceAs (Decidable (_ ∨ _))

theorem DirectoryEntry.kind_of_isFree (h : e.IsFree) : e.kind = .endMark ∨ e.kind = .deleted :=
  h.imp kind_endMark kind_eq_deleted.mpr

/-- A live slot is none of the others. -/
theorem DirectoryEntry.kind_eq_live : e.kind = .live ↔
    e.name0 ≠ 0 ∧ e.name0 ≠ deletedMark ∧ e.attributes ≠ attrLfn ∧
      e.attributes &&& attrVolumeId = 0 ∧ e.name0 ≠ 0x2E := by
  unfold kind
  split_ifs <;> simp_all

end

/-! ## The long-name state -/

/-- A state from which no name attaches to the next slot. -/
def LfnState.Dead (st : LfnState) : Prop := (st.active && st.valid) = false

/-- States that no scan can tell apart. -/
def LfnState.Alike (st st' : LfnState) : Prop := st = st' ∨ (st.Dead ∧ st'.Dead)

/-- How the scans change their state at a slot. -/
def lfnStep (st : LfnState) (e : DirectoryEntry) : LfnState :=
  match e.kind with
  | .longName => processLfnEntry e st
  | _ => lfnStateReset st

section

variable {st st' : LfnState} {e : DirectoryEntry}

theorem LfnState.dead_initial : LfnState.initial.Dead := rfl

theorem LfnState.dead_reset : (lfnStateReset st).Dead := rfl

theorem LfnState.Alike.refl : st.Alike st := .inl rfl

theorem LfnState.Dead.alike (h : st.Dead) (h' : st'.Dead) : st.Alike st' := .inr ⟨h, h'⟩

theorem LfnState.Alike.dead (h : st.Alike st') (hd : st.Dead) : st'.Dead := by
  rcases h with rfl | ⟨-, h⟩
  · exact hd
  · exact h

theorem LfnState.Dead.not_attached (h : st.Dead) : st.attached e = false := by
  simp only [Dead] at h
  simp [attached, h]

theorem LfnState.Alike.attached_eq (h : st.Alike st') : st.attached e = st'.attached e := by
  rcases h with rfl | ⟨h, h'⟩
  · rfl
  · rw [h.not_attached, h'.not_attached]

/-- The name of an entry depends on the state only as far as a scan can tell. -/
theorem LfnState.Alike.decode_eq (h : st.Alike st') :
    decodeDirectoryEntryName e st = decodeDirectoryEntryName e st' := by
  rcases h with rfl | ⟨h, h'⟩
  · rfl
  · simp only [decodeDirectoryEntryName, h.not_attached, h'.not_attached, Bool.false_and,
      Bool.false_eq_true, if_false]

theorem LfnState.Dead.decode_eq (h : st.Dead) :
    decodeDirectoryEntryName e st = cString (formatShortName e.name) := by
  simp only [decodeDirectoryEntryName, h.not_attached, Bool.false_and, Bool.false_eq_true,
    if_false]

theorem processLfnEntry_alike (h : st.Alike st') :
    (processLfnEntry e st).Alike (processLfnEntry e st') := by
  rcases h with rfl | ⟨h, h'⟩
  · exact .refl
  · unfold processLfnEntry
    by_cases hlast : (e.name0 &&& lfnLast != 0) = true
    · simp only [hlast, if_true]
      by_cases h0 : e.name0 &&& lfnEntryMask = 0
      · simp only [h0, if_true]
        exact .inr ⟨LfnState.dead_reset, LfnState.dead_reset⟩
      · simp only [h0, if_false]
        exact .refl
    · simp only [LfnState.Dead] at h h'
      have hno : ∀ s : LfnState, (s.active && s.valid) = false → (!s.active || !s.valid) = true := by
        intro s hs
        cases ha : s.active <;> cases hv : s.valid <;> simp_all
      simp only [hlast, hno st h, hno st' h', Bool.true_or, if_true]
      exact .inr ⟨LfnState.dead_reset, LfnState.dead_reset⟩

theorem lfnStep_alike (h : st.Alike st') : (lfnStep st e).Alike (lfnStep st' e) := by
  unfold lfnStep
  split
  · exact processLfnEntry_alike h
  · exact .inr ⟨LfnState.dead_reset, LfnState.dead_reset⟩

/-- Every slot that is no long-name slot leaves a dead state. -/
theorem lfnStep_dead (h : e.kind ≠ .longName) : (lfnStep st e).Dead := by
  unfold lfnStep
  split
  · next hk => exact absurd hk h
  · exact LfnState.dead_reset

end

/-! ## The entries that a scan sees -/

/-- An entry with its slot number, its name, and whether long-name slots belong to it. -/
structure Item where
  index : Nat
  entry : DirectoryEntry
  name : CStr
  attached : Bool

/-- The entries before the end mark, in order. -/
def dirItems : List DirectoryEntry → Nat → LfnState → List Item
  | [], _, _ => []
  | e :: rest, index, st =>
    match e.kind with
    | .endMark => []
    | .live =>
      ⟨index, e, decodeDirectoryEntryName e st, st.attached e⟩
        :: dirItems rest (index + 1) (lfnStep st e)
    | _ => dirItems rest (index + 1) (lfnStep st e)

/-- The entries of a whole directory. -/
def itemsOf (es : List DirectoryEntry) : List Item := dirItems es 0 .initial

/-- What may stand in a tidy directory before the end mark: a slot that is neither a
long-name slot nor an entry is met with a dead state, an entry also with the long name
that is attached to it. -/
def SlotTidy (st : LfnState) (e : DirectoryEntry) : Prop :=
  match e.kind with
  | .endMark => False
  | .longName => True
  | .live => st.Dead ∨ st.attached e = true
  | .special => st.Dead ∧ e.IsDot
  | _ => st.Dead

/-- What a condition on slots, such as `SlotTidy`, must satisfy for directories that meet it
to be edited block by block. -/
class SlotRules (ok : LfnState → DirectoryEntry → Prop) : Prop where
  tidy : ∀ {st e}, ok st e → SlotTidy st e
  alike : ∀ {st st' e}, ok st e → st.Alike st' → ok st' e
  deleted : ∀ {st : LfnState} {e : DirectoryEntry}, e.kind = .deleted → st.Dead → ok st e
  sameName : ∀ {st : LfnState} {e e' : DirectoryEntry}, e.kind ≠ .longName →
    e'.name = e.name → e'.attributes = e.attributes → ok st e → ok st e'

/-- A directory, or the end of one that is scanned from state `st`: acceptable slots, then
slots from the end mark on whose first byte is 0. -/
def TidyFrom (ok : LfnState → DirectoryEntry → Prop) (st : LfnState)
    (es : List DirectoryEntry) : Prop :=
  ∃ body tail, es = body ++ tail ∧ Checked lfnStep ok st body ∧
    (body.foldl lfnStep st).Dead ∧ ∀ e ∈ tail, e.name0 = 0

/-- All slots of a directory are acceptable. -/
def Tidy (ok : LfnState → DirectoryEntry → Prop) (es : List DirectoryEntry) : Prop :=
  TidyFrom ok .initial es

/-- Behind a slot whose first byte is 0 there are only such slots. -/
def Ended (es : List DirectoryEntry) : Prop := es.Pairwise fun a b => a.name0 = 0 → b.name0 = 0

/-- No long name attaches to a special slot, which holds `.` or `..`. -/
def DotsPlain (st : LfnState) (es : List DirectoryEntry) : Prop :=
  ∀ p e q, es = p ++ e :: q → e.kind = .special → (p.foldl lfnStep st).Dead ∧ e.IsDot

section

variable {st st' : LfnState} {e e' : DirectoryEntry} {a b es : List DirectoryEntry} {index : Nat}
  {ok : LfnState → DirectoryEntry → Prop}

theorem name0_of_name (h : e'.name = e.name) : e'.name0 = e.name0 := by
  have := congrArg List.head? h
  simpa [DirectoryEntry.name, DirectoryEntry.name0] using this

/-- A slot with another size or first cluster is of the same kind. -/
theorem kind_of_sameName (hname : e'.name = e.name) (hattr : e'.attributes = e.attributes) :
    e'.kind = e.kind := by
  unfold DirectoryEntry.kind
  rw [name0_of_name hname, hattr]

theorem attached_of_sameName (hname : e'.name = e.name) : st.attached e' = st.attached e := by
  unfold LfnState.attached
  rw [hname]

theorem decode_of_sameName (hname : e'.name = e.name) :
    decodeDirectoryEntryName e' st = decodeDirectoryEntryName e st := by
  unfold decodeDirectoryEntryName
  rw [attached_of_sameName hname, hname]

theorem SlotTidy.alike (h : SlotTidy st e) (hs : st.Alike st') : SlotTidy st' e := by
  unfold SlotTidy at h ⊢
  cases hk : e.kind <;> simp only [hk] at h ⊢
  · exact hs.dead h
  · exact hs.dead h
  · exact ⟨hs.dead h.1, h.2⟩
  · rw [← hs.attached_eq]
    exact h.imp_left hs.dead

instance : SlotRules SlotTidy where
  tidy h := h
  alike := SlotTidy.alike
  deleted hk hd := by simpa [SlotTidy, hk] using hd
  sameName _ hname hattr h := by
    unfold SlotTidy at h ⊢
    rw [kind_of_sameName hname hattr, attached_of_sameName hname]
    unfold DirectoryEntry.IsDot at h ⊢
    rw [hname]
    exact h

theorem SlotTidy.name0_ne (h : SlotTidy st e) : e.name0 ≠ 0 := by
  intro h0
  simp [SlotTidy, DirectoryEntry.kind_endMark h0] at h

/-- Acceptable slots before the end mark, and what stands behind them. -/
theorem tidyFrom_append (ha : Checked lfnStep ok st a) :
    TidyFrom ok (a.foldl lfnStep st) b → TidyFrom ok st (a ++ b) := by
  rintro ⟨body, tail, rfl, hbody, hdead, htail⟩
  exact ⟨a ++ body, tail, by simp, checked_append.mpr ⟨ha, hbody⟩,
    by rw [List.foldl_append]; exact hdead, htail⟩

theorem tidyFrom_zeros (hs : st.Dead) (h : ∀ e ∈ es, e.name0 = 0) : TidyFrom ok st es :=
  ⟨[], es, rfl, trivial, hs, h⟩

/-- A directory cut in two: the first part ends before the end mark, or everything in the
second stands behind it. -/
theorem TidyFrom.cut (h : TidyFrom ok st (a ++ b)) :
    (Checked lfnStep ok st a ∧ TidyFrom ok (a.foldl lfnStep st) b) ∨
    (∀ e ∈ b, e.name0 = 0) ∧ (∃ e, a.getLast? = some e ∧ e.name0 = 0) := by
  obtain ⟨body, tail, heq, hbody, hdead, htail⟩ := h
  rcases List.append_eq_append_iff.mp heq with ⟨c, rfl, rfl⟩ | ⟨c, rfl, rfl⟩
  · obtain ⟨h₁, h₂⟩ := checked_append.mp hbody
    rw [List.foldl_append] at hdead
    exact .inl ⟨h₁, c, tail, rfl, h₂, hdead, htail⟩
  · cases hc : c.getLast? with
    | none =>
      rw [List.getLast?_eq_none_iff] at hc
      subst hc
      rw [List.append_nil]
      exact .inl ⟨hbody, [], b, rfl, trivial, hdead, fun e he => htail e (by simp [he])⟩
    | some e =>
      refine .inr ⟨fun x hx => htail x (List.mem_append_right _ hx), e, ?_, ?_⟩
      · rw [List.getLast?_append, hc]; rfl
      · exact htail e (List.mem_append_left _ (List.mem_of_getLast? hc))

theorem DotsPlain.tail (h : DotsPlain st (e :: es)) : DotsPlain (lfnStep st e) es :=
  fun p x q heq => h (e :: p) x q (by rw [heq, List.cons_append])

theorem Ended.zeros (h : Ended (e :: es)) (h0 : e.name0 = 0) : ∀ x ∈ es, x.name0 = 0 :=
  fun x hx => (List.pairwise_cons.mp h).1 x hx h0

theorem tidyFrom_cons (h : TidyFrom ok st (e :: es)) :
    (e.name0 = 0 ∧ st.Dead ∧ ∀ x ∈ es, x.name0 = 0) ∨
    (ok st e ∧ TidyFrom ok (lfnStep st e) es) := by
  obtain ⟨body, tail, heq, hbody, hdead, htail⟩ := h
  cases body with
  | nil =>
    rw [List.nil_append] at heq
    subst heq
    exact .inl ⟨htail e (by simp), hdead, fun x hx => htail x (by simp [hx])⟩
  | cons x body =>
    obtain ⟨rfl, rfl⟩ := List.cons.inj heq
    exact .inr ⟨hbody.1, body, tail, rfl, hbody.2, hdead, htail⟩

variable [SlotRules ok]

theorem checked_alike (hs : st.Alike st') (h : Checked lfnStep ok st a) :
    Checked lfnStep ok st' a ∧ (a.foldl lfnStep st).Alike (a.foldl lfnStep st') :=
  h.simulate lfnStep ok LfnState.Alike
    (fun _ _ _ hR hok => ⟨SlotRules.alike hok hR, lfnStep_alike hR⟩) hs

theorem TidyFrom.alike (h : TidyFrom ok st es) (hs : st.Alike st') : TidyFrom ok st' es := by
  obtain ⟨body, tail, rfl, hbody, hdead, htail⟩ := h
  obtain ⟨hbody', hlast⟩ := checked_alike hs hbody
  exact ⟨body, tail, rfl, hbody', hlast.dead hdead, htail⟩

theorem TidyFrom.tidy (h : TidyFrom ok st es) : TidyFrom SlotTidy st es := by
  obtain ⟨body, tail, rfl, hbody, hdead, htail⟩ := h
  exact ⟨body, tail, rfl, (hbody.simulate lfnStep SlotTidy Eq
    (fun _ _ _ hR hok => hR ▸ ⟨SlotRules.tidy hok, rfl⟩) rfl).1, hdead, htail⟩

theorem TidyFrom.ended (h : TidyFrom ok st es) : Ended es := by
  obtain ⟨body, tail, rfl, hbody, -, htail⟩ := h
  have hne : ∀ e ∈ body, e.name0 ≠ 0 := hbody.forall
    fun _ _ hok => SlotTidy.name0_ne (SlotRules.tidy hok)
  refine List.pairwise_append.mpr ⟨?_, ?_, fun a ha b _ h0 => absurd h0 (hne a ha)⟩
  · exact List.Pairwise.imp_of_mem (fun ha _ _ h0 => absurd h0 (hne _ ha))
      (List.pairwise_of_forall (R := fun _ _ => True) fun _ _ => trivial)
  · exact List.Pairwise.imp_of_mem (fun _ hb _ _ => htail _ hb)
      (List.pairwise_of_forall (R := fun _ _ => True) fun _ _ => trivial)

theorem TidyFrom.dotsPlain (h : TidyFrom ok st es) : DotsPlain st es := by
  rintro p e q rfl hk
  have hne : e.name0 ≠ 0 := fun h0 => by
    rw [DirectoryEntry.kind_endMark h0] at hk
    cases hk
  rcases h.cut with ⟨-, hrest⟩ | ⟨hzero, -⟩
  · rcases tidyFrom_cons hrest with ⟨h0, -⟩ | ⟨hok, -⟩
    · exact absurd h0 hne
    · have htidy : SlotTidy (p.foldl lfnStep st) e := SlotRules.tidy hok
      simpa only [SlotTidy, hk] using htidy
  · exact absurd (hzero e List.mem_cons_self) hne

/-- A free slot is met with a dead state. -/
theorem TidyFrom.dead_of_free (h : TidyFrom ok st (e :: es)) (he : e.IsFree) : st.Dead := by
  rcases tidyFrom_cons h with ⟨-, hdead, -⟩ | ⟨hok, -⟩
  · exact hdead
  · have ht : SlotTidy st e := SlotRules.tidy hok
    rcases DirectoryEntry.kind_of_isFree he with hk | hk
    · simp [SlotTidy, hk] at ht
    · simpa [SlotTidy, hk] using ht

/-! ## The items of parts -/

theorem dirItems_alike (hs : st.Alike st') : dirItems es index st = dirItems es index st' := by
  induction es generalizing st st' index with
  | nil => rfl
  | cons e es ih =>
    simp only [dirItems, hs.decode_eq, hs.attached_eq, ih (lfnStep_alike hs)]

theorem dirItems_append (ha : ∀ x ∈ a, x.name0 ≠ 0) :
    dirItems (a ++ b) index st
      = dirItems a index st ++ dirItems b (index + a.length) (a.foldl lfnStep st) := by
  induction a generalizing index st with
  | nil => rfl
  | cons x a ih =>
    have hx : x.kind ≠ .endMark := fun hk =>
      ha x (by simp) (DirectoryEntry.kind_eq_endMark.mp hk)
    have ih' := @ih (lfnStep st x) (index + 1) (fun y hy => ha y (by simp [hy]))
    rw [Nat.add_assoc, Nat.add_comm 1] at ih'
    simp only [List.cons_append, dirItems, List.foldl_cons, List.length_cons, ih']
    cases hk : x.kind <;> simp_all

theorem dirItems_zeros (h : ∀ x ∈ es, x.name0 = 0) : dirItems es index st = [] := by
  cases es with
  | nil => rfl
  | cons e es => simp [dirItems, DirectoryEntry.kind_endMark (h e (by simp))]

theorem checked_name0_ne (h : Checked lfnStep ok st a) : ∀ x ∈ a, x.name0 ≠ 0 :=
  h.forall (fun _ _ hok => SlotTidy.name0_ne (SlotRules.tidy hok))

/-- An item is one of the slots scanned. -/
theorem mem_dirItems {it : Item} (h : it ∈ dirItems es index st) :
    it.entry.kind = .live ∧ index ≤ it.index ∧ es[it.index - index]? = some it.entry := by
  induction es generalizing index st with
  | nil => simp [dirItems] at h
  | cons e es ih =>
    have hrest : it ∈ dirItems es (index + 1) (lfnStep st e) →
        it.entry.kind = .live ∧ index ≤ it.index
          ∧ (e :: es)[it.index - index]? = some it.entry := by
      intro h
      obtain ⟨h₁, h₂, h₃⟩ := ih h
      refine ⟨h₁, by omega, ?_⟩
      rw [show it.index - index = it.index - (index + 1) + 1 by omega]
      simpa using h₃
    cases hk : e.kind <;> simp only [dirItems, hk] at h
    · simp at h
    · exact hrest h
    · exact hrest h
    · exact hrest h
    · exact hrest h
    · rcases List.mem_cons.mp h with rfl | h
      · exact ⟨hk, Nat.le_refl _, by simp⟩
      · exact hrest h

theorem foldl_lfnStep_alike (h : st.Alike st') :
    (es.foldl lfnStep st).Alike (es.foldl lfnStep st') := by
  induction es generalizing st st' with
  | nil => exact h
  | cons e es ih => exact ih (lfnStep_alike h)

/-- Only a long-name slot leaves a name pending. -/
theorem foldl_take_dead {i : Nat} (hi : es[i]? = some e) (hk : e.kind ≠ .longName) :
    ((es.take (i + 1)).foldl lfnStep st).Dead := by
  rw [List.take_add_one, hi, Option.toList_some, List.foldl_append]
  exact lfnStep_dead hk

/-- An item is a live slot in front of the end mark, with the name that the slots before it give
it. -/
theorem mem_dirItems_iff {i : Nat} {name : CStr} {attached : Bool} :
    (⟨index + i, e, name, attached⟩ : Item) ∈ dirItems es index st ↔
      es[i]? = some e ∧ e.kind = .live ∧ (∀ x ∈ es.take i, x.name0 ≠ 0) ∧
        name = decodeDirectoryEntryName e ((es.take i).foldl lfnStep st) ∧
        attached = ((es.take i).foldl lfnStep st).attached e := by
  induction es generalizing i index st with
  | nil => simp [dirItems]
  | cons x es ih =>
    cases i with
    | zero =>
      simp only [Nat.add_zero, List.getElem?_cons_zero, Option.some.injEq, List.take_zero,
        List.foldl_nil, List.not_mem_nil, false_implies, implies_true, true_and]
      have hrest : (⟨index, e, name, attached⟩ : Item) ∉ dirItems es (index + 1) (lfnStep st x) :=
        fun h => by
          have : index + 1 ≤ index := (mem_dirItems h).2.1
          omega
      cases hk : x.kind <;> simp only [dirItems, hk]
      case live =>
        rw [List.mem_cons, or_iff_left hrest, Item.mk.injEq]
        constructor
        · rintro ⟨-, rfl, rfl, rfl⟩
          exact ⟨rfl, hk, rfl, rfl⟩
        · rintro ⟨rfl, -, rfl, rfl⟩
          exact ⟨rfl, rfl, rfl, rfl⟩
      case endMark =>
        refine iff_of_false (by simp) ?_
        rintro ⟨rfl, hlive, -⟩
        simp [hk] at hlive
      all_goals
        refine iff_of_false hrest ?_
        rintro ⟨rfl, hlive, -⟩
        simp [hk] at hlive
    | succ i =>
      have ih' := @ih (lfnStep st x) (index + 1) i
      rw [Nat.add_assoc, Nat.add_comm 1 i] at ih'
      simp only [List.getElem?_cons_succ, List.take_succ_cons, List.foldl_cons,
        List.forall_mem_cons]
      have hne : x.kind ≠ .endMark → x.name0 ≠ 0 := fun h h0 => h (DirectoryEntry.kind_endMark h0)
      cases hk : x.kind <;> simp only [dirItems, hk]
      case endMark => simp [DirectoryEntry.kind_eq_endMark.mp hk]
      case live =>
        rw [List.mem_cons, or_iff_right (by simp), ih']
        simp [hne (by simp [hk])]
      all_goals
        rw [ih']
        simp [hne (by simp [hk])]

/-- Every live slot before the end mark is an item. -/
theorem exists_item {i : Nat} (ht : Ended es) (hi : es[i]? = some e) (hlive : e.kind = .live) :
    ∃ it ∈ dirItems es index st, it.index = index + i ∧ it.entry = e := by
  induction es generalizing i index st with
  | nil => simp at hi
  | cons x es ih =>
    cases i with
    | zero =>
      simp only [List.getElem?_cons_zero, Option.some.injEq] at hi
      subst hi
      exact ⟨⟨index, x, decodeDirectoryEntryName x st, st.attached x⟩,
        by simp [dirItems, hlive], rfl, rfl⟩
    | succ i =>
      rw [List.getElem?_cons_succ] at hi
      obtain ⟨it, hmem, hidx, hent⟩ :=
        @ih (lfnStep st x) (index + 1) i (List.pairwise_cons.mp ht).2 hi
      refine ⟨it, ?_, by omega, hent⟩
      cases hk : x.kind
      · have h0 := ht.zeros (DirectoryEntry.kind_eq_endMark.mp hk) e (List.mem_of_getElem? hi)
        rw [DirectoryEntry.kind_endMark h0] at hlive
        cases hlive
      all_goals simp [dirItems, hk, hmem]

/-- Items are listed in slot order, each slot once. -/
theorem dirItems_pairwise : (dirItems es index st).Pairwise (fun x y => x.index < y.index) := by
  induction es generalizing index st with
  | nil => exact List.Pairwise.nil
  | cons e es ih =>
    cases hk : e.kind <;> simp only [dirItems, hk]
    · exact List.Pairwise.nil
    · exact ih
    · exact ih
    · exact ih
    · exact ih
    · refine List.pairwise_cons.mpr ⟨?_, ih⟩
      intro it hit
      have := (mem_dirItems hit).2.1
      exact this

/-! ## The scans see the items -/

theorem kToupper_eq_dot {c : UInt8} (h : kToupper c = 0x2E) : c = 0x2E := by
  unfold kToupper at h
  split at h
  · next hc =>
    have h₁ : (0x61 : UInt8).toNat ≤ c.toNat := hc.1
    have h₂ : c.toNat ≤ (0x7A : UInt8).toNat := hc.2
    have h₃ := congrArg UInt8.toNat h
    simp only [UInt8.toNat_sub, UInt8.reduceToNat] at h₁ h₂ h₃
    omega
  · exact h

/-- A special slot does not have a valid name. -/
theorem special_name_ne {name : CStr} (hname : validateLongName name = true) (hdead : st.Dead)
    (hdot : e.IsDot) : nameEqualsIgnoreCase (decodeDirectoryEntryName e st) name = false := by
  rw [hdead.decode_eq]
  have hfmt : cString (formatShortName e.name) = [0x2E] ∨
      cString (formatShortName e.name) = [0x2E, 0x2E] := by
    rcases hdot with h | h <;> rw [h]
    · exact .inl (by decide)
    · exact .inr (by decide)
  by_contra hne
  have heq : (cString (formatShortName e.name)).map kToupper = name.map kToupper := by
    simpa [nameEqualsIgnoreCase] using hne
  have hdots : name = [0x2E] ∨ name = [0x2E, 0x2E] := by
    have hup : kToupper 0x2E = 0x2E := by decide
    rcases hfmt with h | h <;> rw [h] at heq
    · obtain ⟨c, rfl⟩ := List.length_eq_one_iff.mp (by simpa using (congrArg List.length heq).symm)
      simp only [List.map_cons, List.map_nil, hup, List.cons.injEq, and_true] at heq
      exact .inl (by rw [kToupper_eq_dot heq.symm])
    · obtain ⟨c, c', rfl⟩ :=
        List.length_eq_two.mp (by simpa using (congrArg List.length heq).symm)
      simp only [List.map_cons, List.map_nil, hup, List.cons.injEq, and_true] at heq
      exact .inr (by rw [kToupper_eq_dot heq.1.symm, kToupper_eq_dot heq.2.symm])
  rcases hdots with rfl | rfl <;> exact absurd hname (by decide)

theorem shouldSkipEntry_of_kind (h₀ : e.name0 ≠ 0) (h₁ : e.name0 ≠ deletedMark) :
    shouldSkipEntry e = (e.attributes &&& attrVolumeId != 0) := by
  simp [shouldSkipEntry, h₀, h₁]

/-- The scan of `find_entry_in_cluster_dir`, kind by kind. -/
theorem scanForName_cons {name : CStr} : scanForName name (e :: es) index st =
    match e.kind with
    | .endMark => .endMark
    | .longName => scanForName name es (index + 1) (lfnStep st e)
    | .deleted | .label => scanForName name es (index + 1) (lfnStep st e)
    | _ => if nameEqualsIgnoreCase (decodeDirectoryEntryName e st) name then .found (index, e, st)
      else scanForName name es (index + 1) (lfnStep st e) := by
  rw [scanForName]
  unfold lfnStep DirectoryEntry.kind
  by_cases h₀ : e.name0 = 0
  · simp [h₀]
  by_cases h₁ : e.name0 = deletedMark
  · simp [h₁, deletedMark]
  by_cases h₂ : e.attributes = attrLfn
  · simp [h₀, h₁, h₂]
  by_cases h₃ : e.attributes &&& attrVolumeId = 0
  · by_cases h₄ : e.name0 = 0x2E
    · simp [h₂, h₃, h₄, shouldSkipEntry_of_kind h₀ h₁, deletedMark]
    · simp [h₀, h₁, h₂, h₃, h₄, shouldSkipEntry_of_kind h₀ h₁]
  · simp [h₀, h₁, h₂, h₃, shouldSkipEntry_of_kind h₀ h₁]

variable (index) in
/-- What `find_entry_in_cluster_dir` finds is the first item with the name. -/
theorem scanForName_eq {name : CStr} (hname : validateLongName name = true)
    (hdots : DotsPlain st es) :
    match scanForName name es index st with
    | .found (j, e, lfn) =>
      (dirItems es index st).find? (fun it => nameEqualsIgnoreCase it.name name)
        = some ⟨j, e, decodeDirectoryEntryName e lfn, lfn.attached e⟩
    | _ => (dirItems es index st).find? (fun it => nameEqualsIgnoreCase it.name name)
        = none := by
  induction es generalizing index st with
  | nil => rfl
  | cons e es ih =>
    have ih' := @ih _ (index + 1) hdots.tail
    rw [scanForName_cons]
    cases hk : e.kind
    · simp [dirItems, hk]
    · simpa [dirItems, hk] using ih'
    · simpa [dirItems, hk] using ih'
    · simpa [dirItems, hk] using ih'
    · obtain ⟨hdead, hdot⟩ : st.Dead ∧ e.IsDot := hdots [] e es rfl hk
      simp only [dirItems, hk, special_name_ne hname hdead hdot, Bool.false_eq_true, if_false]
      exact ih'
    · simp only [dirItems, hk]
      by_cases hn : nameEqualsIgnoreCase (decodeDirectoryEntryName e st) name = true
      · simp [hn]
      · simp only [hn, List.find?_cons]
        exact ih'

/-- The loop of `directory_is_empty` finds content where there is an item. -/
theorem scanForContent_eq {st₁ : LfnState} :
    scanForContent es st₁ = .found () ↔ dirItems es index st ≠ [] := by
  induction es generalizing index st st₁ with
  | nil => simp [scanForContent, dirItems]
  | cons e es ih =>
    have ih' := fun st₁ => @ih (lfnStep st e) (index + 1) st₁
    by_cases h₀ : e.name0 = 0
    · simp [scanForContent, dirItems, DirectoryEntry.kind_endMark h₀, h₀]
    rw [scanForContent, if_neg h₀]
    by_cases h₁ : e.name0 = deletedMark
    · have hk : e.kind = .deleted := DirectoryEntry.kind_eq_deleted.mpr h₁
      rw [if_pos h₁]
      simpa [dirItems, hk] using ih' _
    rw [if_neg h₁]
    by_cases h₂ : e.attributes = attrLfn
    · have hk : e.kind = .longName := by simp [DirectoryEntry.kind, h₀, h₁, h₂]
      rw [if_pos h₂]
      simpa [dirItems, hk] using ih' _
    rw [if_neg h₂, shouldSkipEntry_of_kind h₀ h₁]
    by_cases h₃ : e.attributes &&& attrVolumeId = 0
    · by_cases h₄ : e.name0 = 0x2E
      · have hk : e.kind = .special := by simp [DirectoryEntry.kind, h₂, h₃, h₄, deletedMark]
        rw [if_neg (by simp [h₃]), if_pos (by simp [directoryEntryIsSpecial, h₄])]
        simpa [dirItems, hk] using ih' _
      · have hk : e.kind = .live := DirectoryEntry.kind_eq_live.mpr ⟨h₀, h₁, h₂, h₃, h₄⟩
        rw [if_neg (by simp [h₃]), if_neg (by simp [directoryEntryIsSpecial, h₄])]
        simp [dirItems, hk]
    · have hk : e.kind = .label := by simp [DirectoryEntry.kind, h₀, h₁, h₂, h₃]
      rw [if_pos (by simpa using h₃)]
      simpa [dirItems, hk] using ih' _

/-- What a callback that may say no ends with: it is given a list of values until it does. -/
def report {κ β : Type} (callback : κ → β → κ × Bool) : κ → List β → κ
  | context, [] => context
  | context, b :: rest =>
    if (callback context b).2 then report callback (callback context b).1 rest
    else (callback context b).1

/-- What is reported of an item. -/
def Item.info (it : Item) : Fat32NodeInfo := decodeNodeInfo it.entry it.name

variable (index) in
/-- `list_cluster_dir` reports the items. -/
theorem scanForListing_eq {κ : Type} {callback : κ → Fat32NodeInfo → κ × Bool} {context : κ}
    (ht : TidyFrom SlotTidy st es) (hs : st.Alike st') :
    (scanForListing callback es st' context).2
      = report callback context ((dirItems es index st).map Item.info) := by
  induction es generalizing index st st' context with
  | nil => rfl
  | cons e es ih =>
    rcases tidyFrom_cons ht with ⟨h0, -, -⟩ | ⟨hok, hrest⟩
    · simp [scanForListing, dirItems, DirectoryEntry.kind_endMark h0, h0, report]
    · have ih' := fun st' (hs : (lfnStep st e).Alike st') context =>
        @ih _ st' (index + 1) context hrest hs
      have h₀ := hok.name0_ne
      have hstep := lfnStep_alike (e := e) hs
      rw [scanForListing, if_neg h₀]
      by_cases h₁ : e.name0 = deletedMark
      · have hk : e.kind = .deleted := DirectoryEntry.kind_eq_deleted.mpr h₁
        rw [if_pos h₁]
        simp only [lfnStep, hk] at hstep
        simpa [dirItems, hk] using ih' _ (by simpa [lfnStep, hk] using hstep) context
      rw [if_neg h₁]
      by_cases h₂ : e.attributes = attrLfn
      · have hk : e.kind = .longName := by simp [DirectoryEntry.kind, h₀, h₁, h₂]
        rw [if_pos h₂]
        simpa [dirItems, hk] using ih' _ (by simpa [lfnStep, hk] using hstep) context
      rw [if_neg h₂, shouldSkipEntry_of_kind h₀ h₁]
      by_cases h₃ : e.attributes &&& attrVolumeId = 0
      · by_cases h₄ : e.name0 = 0x2E
        · have hk : e.kind = .special := by simp [DirectoryEntry.kind, h₂, h₃, h₄, deletedMark]
          simp only [SlotTidy, hk] at hok
          rw [if_neg (by simp [h₃]), if_pos h₄]
          have hdead : (lfnStep st e).Alike st' :=
            .inr ⟨lfnStep_dead (by simp [hk]), hs.dead hok.1⟩
          simpa [dirItems, hk] using ih' _ hdead context
        · have hk : e.kind = .live := DirectoryEntry.kind_eq_live.mpr ⟨h₀, h₁, h₂, h₃, h₄⟩
          rw [if_neg (by simp [h₃]), if_neg h₄]
          simp only [dirItems, hk, List.map_cons, report, Item.info, hs.decode_eq]
          split_ifs
          · exact ih' _ (by simpa [lfnStep, hk] using hstep) _
          · rfl
      · have hk : e.kind = .label := by simp [DirectoryEntry.kind, h₀, h₁, h₂, h₃]
        rw [if_pos (by simpa using h₃)]
        simpa [dirItems, hk] using ih' _ (by simpa [lfnStep, hk] using hstep) context

end

end FunnyOS.Fat32
