import FunnyOS.Fat32.NameSpec
import FunnyOS.Fat32.SlotEdit

/-!
# Slots that an operation must not disturb

Two things about a directory that its list of entries does not show. The slots `.` and `..`
stay where they are. And `find_entry_in_cluster_dir` counts slots by their attributes alone:
where a deleted slot with the long-name attribute stands before a long-name slot in use
(not `Snug`), a free slot is counted as part of the name, and `fat32_rename` can write
the new entry into slots that it then deletes. No operation makes a directory that is not snug.
-/

namespace FunnyOS.Fat32

/-! ## Single slots of an edited list -/

section

variable {es new : List DirectoryEntry} {start count i : Nat}

theorem getElem?_setSpan (h : start + new.length ≤ es.length) : (setSpan es start new)[i]?
    = if start ≤ i ∧ i < start + new.length then new[i - start]? else es[i]? := by
  have htake : (es.take start).length = start := by
    rw [List.length_take]
    omega
  unfold setSpan
  by_cases h₁ : i < start
  · rw [if_neg (by omega), List.append_assoc, List.getElem?_append_left (by omega),
      List.getElem?_take_of_lt h₁]
  · by_cases h₂ : i < start + new.length
    · rw [if_pos ⟨by omega, h₂⟩, List.getElem?_append_left (by rw [List.length_append]; omega),
        List.getElem?_append_right (by omega), htake]
    · rw [if_neg (by omega), List.getElem?_append_right (by rw [List.length_append]; omega),
        List.getElem?_drop, List.length_append, htake]
      congr 1
      omega

theorem getElem?_deleteSpan (h : start + count ≤ es.length) : (deleteSpan es start count)[i]?
    = if start ≤ i ∧ i < start + count then es[i]?.map .setDeleted else es[i]? := by
  have hlen : (((es.drop start).take count).map DirectoryEntry.setDeleted).length = count := by
    rw [List.length_map, List.length_take, List.length_drop]
    omega
  unfold deleteSpan
  rw [getElem?_setSpan (by omega), hlen]
  by_cases hi : start ≤ i ∧ i < start + count
  · rw [if_pos hi, if_pos hi, List.getElem?_map, List.getElem?_take_of_lt (by omega),
      List.getElem?_drop, Nat.add_sub_cancel' hi.1]
  · rw [if_neg hi, if_neg hi]

end

/-! ## The slots counted in front of an entry -/

section

variable {es : List DirectoryEntry} {e : DirectoryEntry} {i c : Nat}

variable (es) in
/-- The slot in front of those that `lfnRun` counts is of another kind. -/
theorem lfnRun_stop (h : lfnRun es i < i) :
    (es.getD (i - lfnRun es i - 1) .zero).attributes ≠ attrLfn := by
  induction i with
  | zero => omega
  | succ i ih =>
    unfold lfnRun at h ⊢
    split at h <;> rename_i hat
    · rw [if_pos hat]
      have := ih (by omega)
      rwa [show i + 1 - (lfnRun es i + 1) - 1 = i - lfnRun es i - 1 by omega]
    · rw [if_neg hat]
      simpa using hat

/-- The number that `lfnRun` counts is determined by the attributes. -/
theorem lfnRun_unique (hc : c ≤ i)
    (hrun : ∀ j, i - c ≤ j → j < i → (es.getD j .zero).attributes = attrLfn)
    (hstop : c < i → (es.getD (i - c - 1) .zero).attributes ≠ attrLfn) : lfnRun es i = c := by
  induction i generalizing c with
  | zero =>
    obtain rfl : c = 0 := by omega
    rfl
  | succ i ih =>
    unfold lfnRun
    cases c with
    | zero => exact if_neg (by simpa using hstop (by omega))
    | succ c =>
      rw [if_pos (hrun i (by omega) (by omega))]
      congr 1
      refine ih (by omega) (fun j h₁ h₂ => hrun j (by omega) (by omega)) fun hlt => ?_
      have := hstop (by omega)
      rwa [show i + 1 - (c + 1) - 1 = i - c - 1 by omega] at this

theorem attributes_ne_of_special (h : e.kind = .special) : e.attributes ≠ attrLfn := by
  intro ha
  unfold DirectoryEntry.kind at h
  split_ifs at h

theorem attributes_ne_of_live (h : e.kind = .live) : e.attributes ≠ attrLfn :=
  (DirectoryEntry.kind_eq_live.mp h).2.2.1

theorem getD_eq_of_getElem? (h : es[i]? = some e) : es.getD i .zero = e := by
  rw [List.getD_eq_getElem?_getD, h, Option.getD_some]

end

/-! ## Shape -/

/-- No deleted slot with the long-name attribute stands before a long-name slot in use. -/
def Snug (es : List DirectoryEntry) : Prop :=
  ∀ (i : Nat) (a b : DirectoryEntry), es[i]? = some a → es[i + 1]? = some b → b.kind = .longName →
    ¬ (a.kind = .deleted ∧ a.attributes = attrLfn)

/-- The slots `.` and `..` stay, and a snug directory stays so. -/
structure KeepsShape (es es' : List DirectoryEntry) : Prop where
  special : ∀ {i : Nat} {e : DirectoryEntry}, es[i]? = some e → e.kind = .special → es'[i]? = some e
  snug : Snug es → Snug es'

section

variable {ok : LfnState → DirectoryEntry → Prop} [SlotRules ok] {start : Nat} {name : CStr}
  {es es' es'' new zs : List DirectoryEntry} {entry e' : DirectoryEntry} {it : Item}

theorem KeepsShape.refl : KeepsShape es es := ⟨fun h _ => h, fun h => h⟩

theorem KeepsShape.trans (h : KeepsShape es es') (h' : KeepsShape es' es'') :
    KeepsShape es es'' :=
  ⟨fun hi hk => h'.special (h.special hi hk) hk, fun hs => h'.snug (h.snug hs)⟩

variable (es) in
/-- A cluster of empty slots behind the directory. -/
theorem keepsShape_append (hz : ∀ e ∈ zs, e.name0 = 0) : KeepsShape es (es ++ zs) where
  special {i e} hi _ := by
    rw [List.getElem?_append_left (List.getElem?_eq_some_iff.mp hi).1]
    exact hi
  snug hs i a b ha hb hk := by
    by_cases hlt : i + 1 < es.length
    · rw [List.getElem?_append_left hlt] at hb
      rw [List.getElem?_append_left (by omega)] at ha
      exact hs i a b ha hb hk
    · rw [List.getElem?_append_right (by omega)] at hb
      rw [DirectoryEntry.kind_endMark (hz b (List.mem_of_getElem? hb))] at hk
      cases hk

/-- The slots of a run that the search has found are free. -/
theorem FreeRunAt.isFree {count i : Nat} {e : DirectoryEntry} (h : FreeRunAt es start count)
    (hi : es[i]? = some e) (h₁ : start ≤ i) (h₂ : i < start + count) : e.IsFree := by
  refine h.free e (List.mem_of_getElem? (i := i - start) ?_)
  rw [List.getElem?_take_of_lt (by omega), List.getElem?_drop, Nat.add_sub_cancel' h₁]
  exact hi

/-- The slot before such a run is not free. -/
theorem FreeRunAt.not_isFree {count i : Nat} {e : DirectoryEntry} (h : FreeRunAt es start count)
    (hi : es[i]? = some e) (hstart : i + 1 = start) : ¬ e.IsFree := by
  have hlt := (List.getElem?_eq_some_iff.mp hi).1
  refine h.first e ?_
  rw [List.getLast?_eq_getElem?, List.length_take, Nat.min_eq_left (by omega), ← hstart,
    List.getElem?_take_of_lt (by omega)]
  exact hi

/-- The slots made for a name are in use, all but the last are long-name slots. -/
theorem NameBlock.kind {i : Nat} {e : DirectoryEntry} (h : NameBlock name entry new)
    (hi : new[i]? = some e) :
    (i + 1 < new.length ∧ e.kind = .longName) ∨ (i + 1 = new.length ∧ e = entry) := by
  obtain ⟨lfn, rfl, hlfn⟩ := h.parts
  rw [List.length_append, List.length_singleton]
  by_cases hlt : i < lfn.length
  · rw [List.getElem?_append_left hlt] at hi
    exact .inl ⟨by omega, hlfn e (List.mem_of_getElem? hi)⟩
  · have hle := (List.getElem?_eq_some_iff.mp hi).1
    rw [List.length_append, List.length_singleton] at hle
    obtain rfl : i = lfn.length := by omega
    rw [List.getElem?_append_right (Nat.le_refl _), Nat.sub_self] at hi
    exact .inr ⟨rfl, (Option.some.inj hi).symm⟩

theorem NameBlock.not_deleted {i : Nat} {e : DirectoryEntry} (h : NameBlock name entry new)
    (hi : new[i]? = some e) : e.kind ≠ .deleted := by
  rcases h.kind hi with ⟨-, hk⟩ | ⟨-, rfl⟩
  · simp [hk]
  · simp [h.live]

/-- A name written into free slots. -/
theorem keepsShape_setSpan (hfree : FreeRunAt es start new.length)
    (hnew : NameBlock name entry new) : KeepsShape es (setSpan es start new) where
  special {i e} hi hk := by
    rw [getElem?_setSpan hfree.fits]
    by_cases hin : start ≤ i ∧ i < start + new.length
    · rcases DirectoryEntry.kind_of_isFree (hfree.isFree hi hin.1 hin.2) with h | h
      · rw [h] at hk; cases hk
      · rw [h] at hk; cases hk
    · rw [if_neg hin]
      exact hi
  snug hs i a b ha hb hk := by
    rw [getElem?_setSpan hfree.fits] at ha hb
    rintro ⟨hdel, hattr⟩
    by_cases hin : start ≤ i ∧ i < start + new.length
    · rw [if_pos hin] at ha
      exact hnew.not_deleted ha hdel
    · rw [if_neg hin] at ha
      by_cases hin' : start ≤ i + 1 ∧ i + 1 < start + new.length
      · exact hfree.not_isFree ha (by omega) (.inr (DirectoryEntry.kind_eq_deleted.mp hdel))
      · rw [if_neg hin'] at hb
        exact hs i a b ha hb hk ⟨hdel, hattr⟩

/-- The slots of an entry and those counted in front of it. -/
theorem item_span (hit : it ∈ itemsOf es) : it.lfnCount es ≤ it.index ∧
    es[it.index]? = some it.entry ∧ it.entry.kind = .live ∧
    ∀ {i : Nat} {e : DirectoryEntry}, es[i]? = some e → it.index - it.lfnCount es ≤ i → i < it.index →
      e.attributes = attrLfn := by
  obtain ⟨hlive, -, hi⟩ := mem_dirItems hit
  rw [Nat.sub_zero] at hi
  unfold Item.lfnCount
  split
  · refine ⟨lfnRun_le es it.index, hi, hlive, fun {j e} he h₁ h₂ => ?_⟩
    rw [← getD_eq_of_getElem? he]
    exact lfnRun_attributes _ h₁ h₂
  · exact ⟨Nat.zero_le _, hi, hlive, fun _ h₁ h₂ => by omega⟩

/-- An entry and its name deleted. -/
theorem keepsShape_deleteSpan (hit : it ∈ itemsOf es) :
    KeepsShape es (deleteSpan es (it.index - it.lfnCount es) (it.lfnCount es + 1)) := by
  obtain ⟨hle, hentry, hlive, hrun⟩ := item_span hit
  have hlt := (List.getElem?_eq_some_iff.mp hentry).1
  have hfit : it.index - it.lfnCount es + (it.lfnCount es + 1) ≤ es.length := by omega
  constructor
  · intro i e hi hk
    rw [getElem?_deleteSpan hfit, if_neg ?_]
    · exact hi
    rintro ⟨h₁, h₂⟩
    by_cases heq : i = it.index
    · subst heq
      rw [hi] at hentry
      obtain rfl := Option.some.inj hentry
      rw [hlive] at hk
      cases hk
    · exact attributes_ne_of_special hk (hrun hi h₁ (by omega))
  · intro hs i a b ha hb hk
    rw [getElem?_deleteSpan hfit] at ha hb
    rintro ⟨hdel, hattr⟩
    by_cases hin' : it.index - it.lfnCount es ≤ i + 1 ∧
        i + 1 < it.index - it.lfnCount es + (it.lfnCount es + 1)
    · rw [if_pos hin'] at hb
      obtain ⟨x, -, rfl⟩ := Option.map_eq_some_iff.mp hb
      rw [DirectoryEntry.kind_setDeleted] at hk
      cases hk
    · rw [if_neg hin'] at hb
      by_cases hin : it.index - it.lfnCount es ≤ i ∧
          i < it.index - it.lfnCount es + (it.lfnCount es + 1)
      · -- the last of the deleted slots is the entry itself
        rw [if_pos hin] at ha
        obtain rfl : i = it.index := by omega
        rw [hentry] at ha
        obtain rfl := Option.some.inj ha
        exact attributes_ne_of_live hlive hattr
      · rw [if_neg hin] at ha
        exact hs i a b ha hb hk ⟨hdel, hattr⟩

/-- A slot that keeps its name and attributes. -/
theorem Snug.set {i : Nat} {e : DirectoryEntry} (hs : Snug es) (hi : es[i]? = some e)
    (h : SameName e e') : Snug (es.set i e') := by
  have hsame : ∀ {j : Nat} {x : DirectoryEntry}, (es.set i e')[j]? = some x → ∃ y,
      es[j]? = some y ∧ x.kind = y.kind ∧ x.attributes = y.attributes := by
    intro j x hx
    rw [List.getElem?_set] at hx
    split at hx
    · split at hx
      · rename_i heq _
        obtain rfl := Option.some.inj hx
        exact ⟨e, heq ▸ hi, h.kind_eq, h.attributes⟩
      · cases hx
    · exact ⟨x, hx, rfl, rfl⟩
  intro j a b ha hb hk hdel
  obtain ⟨a', ha', hka, hattr⟩ := hsame ha
  obtain ⟨b', hb', hkb, -⟩ := hsame hb
  exact hs j a' b' ha' hb' (hkb ▸ hk) ⟨hka ▸ hdel.1, hattr ▸ hdel.2⟩

/-- An entry stored in place. -/
theorem keepsShape_set (hit : it ∈ itemsOf es) (h : SameName it.entry e') :
    KeepsShape es (es.set it.index e') := by
  obtain ⟨-, hentry, hlive, -⟩ := item_span hit
  refine ⟨fun {i e} hi hk => ?_, fun hs => hs.set hentry h⟩
  rw [List.getElem?_set_ne]
  · exact hi
  · rintro rfl
    rw [hi] at hentry
    obtain rfl := Option.some.inj hentry
    rw [hlive] at hk
    cases hk

/-- The slots after an entry and its name have been replaced by a name that needs no more slots. -/
theorem getElem?_inPlace {i : Nat} (hit : it ∈ itemsOf es)
    (hlen : new.length ≤ it.lfnCount es + 1) :
    (deleteSpan (setSpan es (it.index - it.lfnCount es) new)
        (it.index - it.lfnCount es + new.length) (it.lfnCount es + 1 - new.length))[i]?
      = if it.index - it.lfnCount es ≤ i ∧ i < it.index - it.lfnCount es + new.length then
          new[i - (it.index - it.lfnCount es)]?
        else if it.index - it.lfnCount es ≤ i ∧ i ≤ it.index then es[i]?.map .setDeleted
        else es[i]? := by
  obtain ⟨hle, hentry, -, -⟩ := item_span hit
  have hlt := (List.getElem?_eq_some_iff.mp hentry).1
  have hfit : it.index - it.lfnCount es + new.length ≤ es.length := by omega
  have hfit' : it.index - it.lfnCount es + new.length + (it.lfnCount es + 1 - new.length)
      ≤ (setSpan es (it.index - it.lfnCount es) new).length := by
    rw [setSpan_length hfit]
    omega
  rw [getElem?_deleteSpan hfit', getElem?_setSpan hfit]
  split_ifs <;> first | rfl | omega

/-- An entry and its name replaced by a name that needs no more slots. -/
theorem keepsShape_inPlace (hit : it ∈ itemsOf es) (hnew : NameBlock name entry new)
    (hlen : new.length ≤ it.lfnCount es + 1) :
    KeepsShape es (deleteSpan (setSpan es (it.index - it.lfnCount es) new)
      (it.index - it.lfnCount es + new.length) (it.lfnCount es + 1 - new.length)) := by
  obtain ⟨hle, hentry, hlive, hrun⟩ := item_span hit
  have hpos := hnew.length_pos
  have hget := fun i => getElem?_inPlace (i := i) hit hlen
  constructor
  · intro i e hi hk
    have hout : ¬ (it.index - it.lfnCount es ≤ i ∧ i ≤ it.index) := by
      rintro ⟨h₁, h₂⟩
      by_cases heq : i = it.index
      · subst heq
        rw [hi] at hentry
        obtain rfl := Option.some.inj hentry
        rw [hlive] at hk
        cases hk
      · exact attributes_ne_of_special hk (hrun hi h₁ (by omega))
    rw [hget, if_neg (by omega), if_neg hout]
    exact hi
  · intro hs i a b ha hb hk
    rw [hget] at ha hb
    rintro ⟨hdel, hattr⟩
    by_cases hin : it.index - it.lfnCount es ≤ i ∧
        i < it.index - it.lfnCount es + new.length
    · rw [if_pos hin] at ha
      exact hnew.not_deleted ha hdel
    rw [if_neg hin] at ha
    by_cases hin' : it.index - it.lfnCount es ≤ i + 1 ∧
        i + 1 < it.index - it.lfnCount es + new.length
    · -- the slot before the first one
      rw [if_pos hin'] at hb
      rw [if_neg (by omega)] at ha
      have hi : i + 1 - (it.index - it.lfnCount es) = 0 := by omega
      rw [hi] at hb
      rcases hnew.kind hb with ⟨hlong, -⟩ | ⟨-, rfl⟩
      · have hatt : it.attached = true := by
          by_contra hna
          rw [Item.lfnCount, if_neg hna] at hlen
          omega
        have hcount : it.lfnCount es = lfnRun es it.index := if_pos hatt
        rw [hcount] at hin' hin
        refine lfnRun_stop es (i := it.index) (by omega) ?_
        rw [show it.index - lfnRun es it.index - 1 = i by omega, getD_eq_of_getElem? ha]
        exact hattr
      · rw [hnew.live] at hk
        cases hk
    rw [if_neg hin'] at hb
    by_cases hdead' : it.index - it.lfnCount es ≤ i + 1 ∧ i + 1 ≤ it.index
    · rw [if_pos hdead'] at hb
      obtain ⟨x, -, rfl⟩ := Option.map_eq_some_iff.mp hb
      rw [DirectoryEntry.kind_setDeleted] at hk
      cases hk
    rw [if_neg hdead'] at hb
    by_cases hdead : it.index - it.lfnCount es ≤ i ∧ i ≤ it.index
    · -- the last of the deleted slots is the entry itself
      rw [if_pos hdead] at ha
      obtain rfl : i = it.index := by omega
      rw [hentry] at ha
      obtain rfl := Option.some.inj ha
      exact attributes_ne_of_live hlive hattr
    · rw [if_neg hdead] at ha
      exact hs i a b ha hb hk ⟨hdel, hattr⟩

/-- A long name is attached by the slot in front of the entry. -/
theorem attached_longName (ht : Tidy ok es) (hit : it ∈ itemsOf es) (hat : it.attached = true) :
    ∃ i e, it.index = i + 1 ∧ es[i]? = some e ∧ e.kind = .longName := by
  obtain ⟨p, q, rfl, hidx, -, -, -, -, hatt, -⟩ := item_split ht hit
  rw [Nat.zero_add] at hidx
  rcases List.eq_nil_or_concat p with rfl | ⟨p', x, rfl⟩
  · rw [hat] at hatt
    simp [LfnState.dead_initial.not_attached] at hatt
  · rw [List.concat_eq_append] at hidx hatt ⊢
    refine ⟨p'.length, x, by simpa using hidx, by simp, ?_⟩
    by_contra hk
    rw [List.foldl_append, List.foldl_cons, List.foldl_nil, hat,
      (lfnStep_dead hk).not_attached] at hatt
    cases hatt

/-- In a snug directory the slots counted in front of an entry are in use. -/
theorem Snug.run_longName (hs : Snug es) (ht : Tidy ok es) (hit : it ∈ itemsOf es)
    (hat : it.attached = true) : ∀ n < lfnRun es it.index, ∃ e,
      es[it.index - 1 - n]? = some e ∧ e.kind = .longName := by
  obtain ⟨j, last, hidx, hlast, hlong⟩ := attached_longName ht hit hat
  obtain ⟨p, q, hes, hip, hp, -⟩ := item_split ht hit
  rw [Nat.zero_add] at hip
  have hzero : ∀ {k : Nat} {e : DirectoryEntry}, es[k]? = some e → k < it.index → e.name0 ≠ 0 := by
    intro k e hk hlt
    rw [hes, List.getElem?_append_left (by omega)] at hk
    exact checked_name0_ne hp e (List.mem_of_getElem? hk)
  intro n hn
  induction n with
  | zero => exact ⟨last, by rw [hidx]; exact hlast, hlong⟩
  | succ n ih =>
    obtain ⟨b, hb, hkb⟩ := ih (by omega)
    have hle := lfnRun_le es it.index
    have hlt : it.index - 1 - (n + 1) < es.length := by
      have := (List.getElem?_eq_some_iff.mp hb).1
      omega
    have ha : es[it.index - 1 - (n + 1)]? = some es[it.index - 1 - (n + 1)] :=
      List.getElem?_eq_getElem hlt
    have hattr := lfnRun_attributes es (i := it.index) (j := it.index - 1 - (n + 1))
      (by omega) (by omega)
    rw [getD_eq_of_getElem? ha] at hattr
    refine ⟨_, ha, ?_⟩
    have hnot := hs _ _ b ha (by
      rw [show it.index - 1 - (n + 1) + 1 = it.index - 1 - n by omega]
      exact hb) hkb
    rcases kind_of_lfnAttributes hattr (hzero ha (by omega)) with h | h
    · exact absurd ⟨h, hattr⟩ hnot
    · exact h

/-- In a snug directory the slots counted in front of an entry are in use, so that a run of free
slots is elsewhere. -/
theorem Snug.apart {count : Nat} (hs : Snug es) (ht : Tidy ok es) (hit : it ∈ itemsOf es)
    (hpos : 0 < count) (hfree : FreeRunAt es start count) :
    start + count ≤ it.index - it.lfnCount es ∨ it.index < start := by
  obtain ⟨-, hentry, hlive, -⟩ := item_span hit
  have hfits := hfree.fits
  -- the first slot of the run among those counted would be in use
  by_contra hnot
  have hk : ∀ {k : Nat} {e : DirectoryEntry}, es[k]? = some e → start ≤ k → k < start + count →
      e.kind ≠ .live ∧ e.kind ≠ .longName := by
    intro k e he h₁ h₂
    rcases DirectoryEntry.kind_of_isFree (hfree.isFree he h₁ h₂) with h | h <;> simp [h]
  by_cases hend : it.index < start + count
  · exact (hk hentry (by omega) hend).1 hlive
  · have hcount : 0 < it.lfnCount es := by omega
    have hat : it.attached = true := by
      by_contra hna
      rw [Item.lfnCount, if_neg hna] at hcount
      omega
    have heq : it.lfnCount es = lfnRun es it.index := if_pos hat
    obtain ⟨e, he, hlong⟩ := hs.run_longName ht hit hat (it.index - (start + count)) (by omega)
    refine (hk he (by omega) (by omega)).2 hlong

/-- A name written into free slots elsewhere changes no count. -/
theorem lfnCount_setSpan (hfree : FreeRunAt es start new.length)
    (hnew : NameBlock name entry new)
    (hapart : start + new.length ≤ it.index - it.lfnCount es ∨ it.index < start) :
    it.lfnCount (setSpan es start new) = it.lfnCount es := by
  unfold Item.lfnCount at hapart ⊢
  by_cases hat : it.attached = true
  swap
  · rw [if_neg hat, if_neg hat]
  rw [if_pos hat] at hapart ⊢
  rw [if_pos hat]
  have hle := lfnRun_le es it.index
  have hsame : ∀ {k : Nat}, ¬ (start ≤ k ∧ k < start + new.length) →
      (setSpan es start new).getD k .zero = es.getD k .zero := by
    intro k hk
    rw [List.getD_eq_getElem?_getD, getElem?_setSpan hfree.fits, if_neg hk,
      ← List.getD_eq_getElem?_getD]
  refine lfnRun_unique hle (fun j h₁ h₂ => ?_) fun hlt' => ?_
  · rw [hsame (by omega)]
    exact lfnRun_attributes _ h₁ h₂
  · by_cases hin : start ≤ it.index - lfnRun es it.index - 1 ∧
        it.index - lfnRun es it.index - 1 < start + new.length
    · have hidx : it.index - lfnRun es it.index - 1 - start < new.length := by omega
      obtain ⟨x, hx⟩ : ∃ x, new[it.index - lfnRun es it.index - 1 - start]? = some x :=
        ⟨_, List.getElem?_eq_getElem hidx⟩
      rw [List.getD_eq_getElem?_getD, getElem?_setSpan hfree.fits, if_pos hin, hx,
        Option.getD_some]
      rcases hnew.kind hx with ⟨hshort, -⟩ | ⟨-, heq⟩
      · omega
      · rw [heq]
        exact attributes_ne_of_live hnew.live
    · rw [hsame hin]
      exact lfnRun_stop _ hlt'

/-- Slots behind the directory change no count. -/
theorem lfnCount_append (hit : it ∈ itemsOf es) : it.lfnCount (es ++ zs) = it.lfnCount es := by
  obtain ⟨-, hentry, -, -⟩ := item_span hit
  have hlt := (List.getElem?_eq_some_iff.mp hentry).1
  have hsame : ∀ i ≤ it.index, lfnRun (es ++ zs) i = lfnRun es i := by
    intro i hi
    induction i with
    | zero => rfl
    | succ i ih =>
      simp only [lfnRun]
      rw [ih (by omega), List.getD_append _ _ _ _ (by omega)]
  unfold Item.lfnCount
  rw [hsame _ (Nat.le_refl _)]

end

end FunnyOS.Fat32
