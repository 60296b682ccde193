import FunnyOS.Fat32.SlotShape

/-!
# Live slots

What the edits of the operations do to a directory slot by slot. The operations are verified for
every condition on directories that their edits keep (`DirRules`). To be tidy is such a condition.
`Searchable`, which says no more than that lookups work, is another: a directory keeps it even when
slots of a name are left behind.
-/

namespace FunnyOS.Fat32

/-! ## The live entries of a directory -/

/-- The live entry in slot `i`. -/
def liveAt (es : List DirectoryEntry) (i : Nat) : Option DirectoryEntry :=
  es[i]?.filter (fun e => e.kind = .live)

section

variable {es new zs : List DirectoryEntry} {start count i j : Nat} {e e' entry : DirectoryEntry}
  {it it' : Item} {name : CStr}

theorem liveAt_eq_some : liveAt es i = some e ↔ es[i]? = some e ∧ e.kind = .live := by
  simp [liveAt, Option.filter_eq_some_iff]

theorem liveAt_eq_none : liveAt es i = none ↔ ∀ e, es[i]? = some e → e.kind ≠ .live := by
  simp [Option.eq_none_iff_forall_ne_some, liveAt_eq_some]

/-- Items are the same where the slots before them leave the same name pending. -/
theorem item_congr {es' : List DirectoryEntry} (hit : it ∈ itemsOf es)
    (hget : es'[it.index]? = es[it.index]?) (hne : ∀ x ∈ es'.take it.index, x.name0 ≠ 0)
    (hst : ((es.take it.index).foldl lfnStep .initial).Alike
      ((es'.take it.index).foldl lfnStep .initial)) : it ∈ itemsOf es' := by
  rcases it with ⟨i, e, name, attached⟩
  rw [itemsOf, ← Nat.zero_add i, mem_dirItems_iff] at hit ⊢
  obtain ⟨he, hk, -, rfl, rfl⟩ := hit
  exact ⟨hget.trans he, hk, hne, hst.decode_eq, hst.attached_eq⟩

/-- The live entries are the items. -/
theorem liveAt_iff_item (ht : Ended es) :
    liveAt es i = some e ↔ ∃ it ∈ itemsOf es, it.index = i ∧ it.entry = e := by
  rw [liveAt_eq_some]
  constructor
  · rintro ⟨hi, hk⟩
    obtain ⟨it, hit, hidx, he⟩ := exists_item ht hi hk
    exact ⟨it, hit, by omega, he⟩
  · rintro ⟨it, hit, rfl, rfl⟩
    obtain ⟨hk, -, hget⟩ := mem_dirItems hit
    exact ⟨hget, hk⟩

theorem liveAt_item (hit : it ∈ itemsOf es) : liveAt es it.index = some it.entry := by
  obtain ⟨hk, -, hget⟩ := mem_dirItems hit
  exact liveAt_eq_some.mpr ⟨hget, hk⟩

/-- A slot holds at most one item. -/
theorem item_eq_of_index (h : it ∈ itemsOf es) (h' : it' ∈ itemsOf es)
    (hidx : it.index = it'.index) : it = it' := by
  have hnd : ((itemsOf es).map Item.index).Nodup :=
    List.pairwise_map.mpr (dirItems_pairwise.imp fun h => Nat.ne_of_lt h)
  exact List.inj_on_of_nodup_map hnd h h' hidx

/-! ## The edits -/

theorem liveAt_append_zeros (hz : ∀ e ∈ zs, e.name0 = 0) :
    liveAt (es ++ zs) i = liveAt es i := by
  by_cases hi : i < es.length
  · rw [liveAt, liveAt, List.getElem?_append_left hi]
  · rw [liveAt_eq_none.mpr, liveAt_eq_none.mpr]
    · intro e he
      rw [List.getElem?_eq_none (by omega)] at he
      cases he
    · intro e he
      rw [List.getElem?_append_right (by omega)] at he
      rw [DirectoryEntry.kind_endMark (hz e (List.mem_of_getElem? he))]
      decide

theorem FreeRunAt.liveAt_eq (h : FreeRunAt es start count) (h₁ : start ≤ i)
    (h₂ : i < start + count) : liveAt es i = none := by
  refine liveAt_eq_none.mpr fun e he hk => ?_
  rcases DirectoryEntry.kind_of_isFree (h.isFree he h₁ h₂) with hfree | hfree <;>
    rw [hfree] at hk <;> cases hk

/-- A name written into free slots. -/
theorem liveAt_setSpan (hfree : FreeRunAt es start new.length) (hnew : NameBlock name entry new) :
    liveAt (setSpan es start new) i
      = if i = start + (new.length - 1) then some entry else liveAt es i := by
  have hpos := hnew.length_pos
  by_cases hin : start ≤ i ∧ i < start + new.length
  · obtain ⟨x, hx⟩ : ∃ x, new[i - start]? = some x := ⟨_, List.getElem?_eq_getElem (by omega)⟩
    have hget : (setSpan es start new)[i]? = some x := by
      rw [getElem?_setSpan hfree.fits, if_pos hin, hx]
    rcases hnew.kind hx with ⟨hshort, hk⟩ | ⟨hlast, rfl⟩
    · rw [if_neg (by omega), hfree.liveAt_eq hin.1 hin.2]
      refine liveAt_eq_none.mpr fun e he => ?_
      obtain rfl := Option.some.inj (hget.symm.trans he)
      simp [hk]
    · rw [if_pos (by omega)]
      exact liveAt_eq_some.mpr ⟨hget, hnew.live⟩
  · rw [if_neg (by omega), liveAt, getElem?_setSpan hfree.fits, if_neg hin, liveAt]

/-- The slots made for a name are in use, and the last of them is no long-name slot. -/
theorem NameBlock.slot_used (hnew : NameBlock name entry new) (he : new[i]? = some e) :
    e.name0 ≠ 0 ∧ e.kind ≠ .special ∧ (i + 1 = new.length → e.kind ≠ .longName) := by
  refine ⟨fun h0 => ?_, ?_⟩
  · have hk := DirectoryEntry.kind_endMark h0
    rcases hnew.kind he with ⟨-, hlong⟩ | ⟨-, rfl⟩
    · rw [hk] at hlong
      cases hlong
    · have hlive := hnew.live
      rw [hk] at hlive
      cases hlive
  · rcases hnew.kind he with ⟨hshort, hlong⟩ | ⟨-, rfl⟩
    · exact ⟨by simp [hlong], fun hlast => by omega⟩
    · simp [hnew.live]

/-- Where a name is written into free slots, the other entries are what they were. -/
theorem item_setSpan (hit : it ∈ itemsOf es) (hfree : FreeRunAt es start new.length)
    (hnew : NameBlock name entry new) : it ∈ itemsOf (setSpan es start new) := by
  have hpos := hnew.length_pos
  have hfits := hfree.fits
  obtain ⟨-, hentry, hlive, -⟩ := item_span hit
  have hout : ¬ (start ≤ it.index ∧ it.index < start + new.length) := by
    rintro ⟨h₁, h₂⟩
    have hnone := hfree.liveAt_eq h₁ h₂
    rw [liveAt_item hit] at hnone
    cases hnone
  have hne : ∀ x ∈ es.take it.index, x.name0 ≠ 0 := by
    have hmem : (⟨0 + it.index, it.entry, it.name, it.attached⟩ : Item) ∈ dirItems es 0 .initial := by
      rw [Nat.zero_add]
      exact hit
    exact (mem_dirItems_iff.mp hmem).2.2.1
  refine item_congr hit (by rw [getElem?_setSpan hfits, if_neg hout]) ?_ ?_
  · intro x hx
    obtain ⟨i, hi⟩ := List.mem_iff_getElem?.mp hx
    have hlt : i < it.index := by
      have := (List.getElem?_eq_some_iff.mp hi).1
      rw [List.length_take] at this
      omega
    rw [List.getElem?_take_of_lt hlt, getElem?_setSpan hfits] at hi
    split at hi
    · exact (hnew.slot_used hi).1
    · refine hne x (List.mem_iff_getElem?.mpr ⟨i, ?_⟩)
      rw [List.getElem?_take_of_lt hlt, hi]
  · by_cases hlt : it.index < start
    · rw [setSpan, List.append_assoc, List.take_append_of_le_length (by simp; omega),
        List.take_take, Nat.min_eq_left (by omega)]
      exact LfnState.Alike.refl
    · -- no name is pending behind the run, nor behind the new name
      obtain ⟨n, hn⟩ := Nat.exists_eq_add_of_le (show start + new.length ≤ it.index by omega)
      have hdrop : (setSpan es start new).drop (start + new.length)
          = es.drop (start + new.length) :=
        List.drop_left' (by rw [List.length_append, List.length_take]; omega)
      obtain ⟨k, hk⟩ := Nat.exists_eq_succ_of_ne_zero (show start + new.length ≠ 0 by omega)
      have htake : ∀ l : List DirectoryEntry, l.take (k.succ + n)
          = l.take k.succ ++ (l.drop k.succ).take n := fun l => List.take_add
      rw [hk] at hdrop
      rw [hn, hk, htake, htake, List.foldl_append, List.foldl_append, hdrop]
      refine foldl_lfnStep_alike (LfnState.Dead.alike ?_ ?_)
      · have hlt : k < es.length := by omega
        refine foldl_take_dead (List.getElem?_eq_getElem hlt) ?_
        rcases DirectoryEntry.kind_of_isFree (hfree.isFree (List.getElem?_eq_getElem hlt)
          (by omega) (by omega)) with h | h <;> simp [h]
      · have hlt : k < (setSpan es start new).length := by
          rw [setSpan_length hfits]
          omega
        have hget := List.getElem?_eq_getElem hlt
        refine foldl_take_dead hget ?_
        rw [getElem?_setSpan hfits, if_pos (by omega)] at hget
        exact (hnew.slot_used hget).2.2 (by omega)

theorem liveAt_deleteSpan (hfit : start + count ≤ es.length) :
    liveAt (deleteSpan es start count) i
      = if start ≤ i ∧ i < start + count then none else liveAt es i := by
  by_cases hin : start ≤ i ∧ i < start + count
  · rw [if_pos hin]
    refine liveAt_eq_none.mpr fun e he => ?_
    rw [getElem?_deleteSpan hfit, if_pos hin] at he
    obtain ⟨x, -, rfl⟩ := Option.map_eq_some_iff.mp he
    simp [DirectoryEntry.kind_setDeleted]
  · rw [if_neg hin, liveAt, getElem?_deleteSpan hfit, if_neg hin, liveAt]

/-- The slots counted in front of an entry are not live. -/
theorem liveAt_counted (hit : it ∈ itemsOf es) (h₁ : it.index - it.lfnCount es ≤ i)
    (h₂ : i < it.index) : liveAt es i = none := by
  obtain ⟨-, -, -, hrun⟩ := item_span hit
  exact liveAt_eq_none.mpr fun e he hk => attributes_ne_of_live hk (hrun he h₁ h₂)

/-- An entry and its name deleted. -/
theorem liveAt_removed (hit : it ∈ itemsOf es) :
    liveAt (deleteSpan es (it.index - it.lfnCount es) (it.lfnCount es + 1)) i
      = if i = it.index then none else liveAt es i := by
  obtain ⟨hle, hentry, -, -⟩ := item_span hit
  have hlt := (List.getElem?_eq_some_iff.mp hentry).1
  rw [liveAt_deleteSpan (by omega)]
  by_cases hi : i = it.index
  · rw [if_pos (by omega), if_pos hi]
  · rw [if_neg hi]
    split
    · rw [liveAt_counted hit (by omega) (by omega)]
    · rfl

/-- An entry and its name replaced by a name that needs no more slots. -/
theorem liveAt_inPlace (hit : it ∈ itemsOf es) (hnew : NameBlock name entry new)
    (hlen : new.length ≤ it.lfnCount es + 1) :
    liveAt (deleteSpan (setSpan es (it.index - it.lfnCount es) new)
        (it.index - it.lfnCount es + new.length) (it.lfnCount es + 1 - new.length)) i
      = if i = it.index - it.lfnCount es + (new.length - 1) then some entry
        else if i = it.index then none else liveAt es i := by
  obtain ⟨hle, hentry, -, -⟩ := item_span hit
  have hlt := (List.getElem?_eq_some_iff.mp hentry).1
  have hpos := hnew.length_pos
  have hget := getElem?_inPlace (i := i) hit hlen
  by_cases hin : it.index - it.lfnCount es ≤ i ∧ i < it.index - it.lfnCount es + new.length
  · obtain ⟨x, hx⟩ : ∃ x, new[i - (it.index - it.lfnCount es)]? = some x :=
      ⟨_, List.getElem?_eq_getElem (by omega)⟩
    rw [if_pos hin, hx] at hget
    rcases hnew.kind hx with ⟨hshort, hk⟩ | ⟨hlast, rfl⟩
    · rw [if_neg (by omega), if_neg (by omega), liveAt_counted hit (by omega) (by omega)]
      refine liveAt_eq_none.mpr fun e he => ?_
      obtain rfl := Option.some.inj (hget.symm.trans he)
      simp [hk]
    · rw [if_pos (by omega)]
      exact liveAt_eq_some.mpr ⟨hget, hnew.live⟩
  · rw [if_neg hin] at hget
    rw [if_neg (by omega), liveAt, hget]
    by_cases hdead : it.index - it.lfnCount es ≤ i ∧ i ≤ it.index
    · rw [if_pos hdead]
      have hnone : liveAt es i = none ∨ i = it.index := by
        by_cases hi : i = it.index
        · exact .inr hi
        · exact .inl (liveAt_counted hit hdead.1 (by omega))
      have hdel : (es[i]?.map DirectoryEntry.setDeleted).filter (fun e => e.kind = .live)
          = none := by
        refine Option.filter_eq_none_iff.mpr fun e he => ?_
        obtain ⟨x, -, rfl⟩ := Option.map_eq_some_iff.mp he
        simp [DirectoryEntry.kind_setDeleted]
      rw [hdel]
      rcases hnone with hnone | hi
      · rw [hnone, ite_self]
      · rw [if_pos hi]
    · rw [if_neg hdead, if_neg (by omega), liveAt]

/-- An entry stored in place. -/
theorem liveAt_set (hit : it ∈ itemsOf es) (h : SameName it.entry e') :
    liveAt (es.set it.index e') i = if i = it.index then some e' else liveAt es i := by
  obtain ⟨-, hentry, hlive, -⟩ := item_span hit
  have hlt := (List.getElem?_eq_some_iff.mp hentry).1
  by_cases hi : i = it.index
  · rw [if_pos hi, hi]
    exact liveAt_eq_some.mpr ⟨List.getElem?_set_self hlt, h.kind_eq.trans hlive⟩
  · rw [if_neg hi, liveAt, List.getElem?_set_ne (Ne.symm hi), liveAt]

end

/-! ## A new entry -/

/-- The slots `new` of the entry `it` have been written into free slots, of which `zs` are new. -/
structure SlotsFilled (es es' : List DirectoryEntry) (name : CStr) (new zs : List DirectoryEntry)
    (start : Nat) (it : Item) : Prop where
  zeros : ∀ e ∈ zs, e.name0 = 0
  block : NameBlock name it.entry new
  free : FreeRunAt (es ++ zs) start new.length
  eq : es' = setSpan (es ++ zs) start new
  items : dirItems new start .initial = [it]

section

variable {rule : LfnState → DirectoryEntry → Prop} [NameRules rule]
  {es es' new zs : List DirectoryEntry} {start i : Nat} {it : Item} {name : CStr}

theorem SlotsFilled.named (h : SlotsFilled es es' name new zs start it) :
    it.index = start + (new.length - 1) ∧ nameEqualsIgnoreCase it.name name = true := by
  obtain ⟨found, attached, hname, hitems⟩ := h.block.items
  have heq := List.singleton_inj.mp ((hitems start).symm.trans h.items)
  exact ⟨(congrArg Item.index heq).symm, congrArg Item.name heq ▸ hname⟩

theorem SlotsFilled.liveAt_eq (h : SlotsFilled es es' name new zs start it) :
    liveAt es' i = if i = it.index then some it.entry else liveAt es i := by
  rw [h.eq, liveAt_setSpan h.free h.block, liveAt_append_zeros h.zeros, h.named.1]

theorem SlotsFilled.vacant (h : SlotsFilled es es' name new zs start it) :
    liveAt es it.index = none := by
  have hpos := h.block.length_pos
  rw [← liveAt_append_zeros h.zeros, h.named.1]
  exact h.free.liveAt_eq (by omega) (by omega)

theorem SlotsFilled.keep {it' : Item} (h : SlotsFilled es es' name new zs start it)
    (hit : it' ∈ itemsOf es) : it' ∈ itemsOf es' := by
  rw [h.eq]
  exact item_setSpan ((itemsOf_append_zeros h.zeros).symm ▸ hit) h.free h.block

theorem SlotsFilled.added (h : SlotsFilled es es' name new zs start it) (ht : Tidy rule es) :
    ItemAdded es es' it := by
  obtain ⟨-, a, b, hold, hnew⟩ := itemAdded_setSpan (tidy_append_zeros ht h.zeros) h.free
    h.block.closedBlock h.items
  rw [itemsOf_append_zeros h.zeros] at hold
  exact ⟨a, b, hold, h.eq ▸ hnew⟩

theorem SlotsFilled.keepsShape (h : SlotsFilled es es' name new zs start it) :
    KeepsShape es es' := by
  rw [h.eq]
  exact (keepsShape_append _ h.zeros).trans (keepsShape_setSpan h.free h.block)

end

/-! ## A new entry in the way of an old one -/

/-- Where `count` slots are written for the new name of `it`, the first free ones are among those
counted in front of `it`. -/
def OverlapsOld (es : List DirectoryEntry) (it : Item) (count : Nat) : Prop :=
  it.lfnCount es + 1 < count ∧ ∃ start, FreeSearch es count (.inr start) ∧ start < it.index ∧
    it.index < start + count + it.lfnCount es

section

variable {es es' new zs : List DirectoryEntry} {start start' count i : Nat} {e : DirectoryEntry}
  {it it' : Item} {name : CStr}

/-- Where no run of free slots is long enough, those at the end are free. -/
theorem isFree_of_extended (h : FreeSearch es count (.inl start)) (hi : es[i]? = some e)
    (hle : start ≤ i) : e.IsFree := by
  have hspec := scanForFree_spec es count (show OpenRun [] ⟨0, 0⟩ from .inl ⟨rfl, by simp⟩)
  obtain ⟨run, hscan, rfl⟩ := h
  simp only [List.length_nil, hscan, List.nil_append] at hspec
  have hlt := (List.getElem?_eq_some_iff.mp hi).1
  rcases hspec with ⟨h0, -⟩ | ⟨hpos, hend, hrun⟩
  · rw [if_neg (by simpa using h0)] at hle
    omega
  · rw [if_pos (by omega)] at hle
    exact hrun.isFree hi hle (by omega)

theorem freeSearch_unique (h : FreeSearch es count (.inr start))
    (h' : FreeSearch es count (.inr start')) : start = start' :=
  Sum.inr.inj (h.symm.trans h')

theorem not_freeSearch_both (h : FreeSearch es count (.inr start))
    (h' : FreeSearch es count (.inl start')) : False := by
  obtain ⟨run, hrun, -⟩ := h'
  cases (show Sum.inr start = Sum.inl run from h.symm.trans hrun)

/-- Otherwise the new slots are apart from those of the entry. -/
theorem apart_of_not_overlaps (hit : it ∈ itemsOf es) (hn : ¬ OverlapsOld es it count)
    (hcount : it.lfnCount es + 1 < count)
    (hsearch : FreeSearch es count (.inr start) ∨ FreeSearch es count (.inl start)) :
    start + count ≤ it.index - it.lfnCount es ∨ it.index < start := by
  obtain ⟨-, hentry, hlive, -⟩ := item_span hit
  have hnot : ¬ it.entry.IsFree := fun hfree => by
    rcases DirectoryEntry.kind_of_isFree hfree with h | h <;> rw [hlive] at h <;> cases h
  rcases hsearch with hin | hend
  · have hrun := freeRunAt_of_inside hin
    have hout : ¬ (start ≤ it.index ∧ it.index < start + count) := fun h =>
      hnot (hrun.isFree hentry h.1 h.2)
    have hover : ¬ (start < it.index ∧ it.index < start + count + it.lfnCount es) := fun h =>
      hn ⟨hcount, start, hin, h⟩
    omega
  · exact .inr (Nat.lt_of_not_le fun hle => hnot (isFree_of_extended hend hentry hle))

/-- In a snug directory they always are. -/
theorem Snug.not_overlaps {ok : LfnState → DirectoryEntry → Prop} [SlotRules ok] (hs : Snug es)
    (ht : Tidy ok es) (hit : it ∈ itemsOf es) : ¬ OverlapsOld es it count := by
  rintro ⟨hcount, start, hsearch, h₁, h₂⟩
  rcases hs.apart ht hit (by omega) (freeRunAt_of_inside hsearch) with h | h <;> omega

/-- Where they are not, the new entry is deleted with the old one. -/
theorem SlotsFilled.liveAt_lost (h : SlotsFilled es es' name new zs start it')
    (hit : it ∈ itemsOf es) (h₁ : start < it.index)
    (h₂ : it.index < start + new.length + it.lfnCount es) :
    liveAt (deleteSpan es' (it.index - it.lfnCount es) (it.lfnCount es + 1)) i
      = if i = it.index then none else liveAt es i := by
  obtain ⟨hle, hentry, -, -⟩ := item_span hit
  obtain ⟨-, hentry', -, -⟩ := item_span (h.keep hit)
  have hlt := (List.getElem?_eq_some_iff.mp hentry').1
  have hpos := h.block.length_pos
  have hnew := h.named.1
  have hlast : it'.index < it.index := by
    -- the run of free slots ends before the entry
    by_contra hnot
    have hnone := h.free.liveAt_eq (i := it.index) (by omega) (by omega)
    rw [liveAt_append_zeros h.zeros, liveAt_item hit] at hnone
    cases hnone
  rw [liveAt_deleteSpan (by omega)]
  by_cases hi : i = it.index
  · rw [if_pos (by omega), if_pos hi]
  · rw [if_neg hi]
    split
    · rw [liveAt_counted hit (by omega) (by omega)]
    · rw [h.liveAt_eq, if_neg (by omega)]

end

/-! ## The slots of a new directory -/

section

variable {ok : LfnState → DirectoryEntry → Prop} [NameRules ok] {g : Geometry} {c parent : Nat}

/-- The slots `.` and `..`, then empty slots. -/
def newDirEntries (g : Geometry) (c parent : Nat) : List DirectoryEntry :=
  specialDirEntry [0x2E] c :: specialDirEntry [0x2E, 0x2E] parent
    :: List.replicate (g.entriesPerCluster - 2) .zero

theorem special_dot : (specialDirEntry [0x2E] c).kind = .special ∧
    (specialDirEntry [0x2E] c).IsDot := by
  have h : (specialDirEntry [0x2E] 0).kind = .special ∧ (specialDirEntry [0x2E] 0).IsDot := by
    decide +kernel
  exact h

theorem special_dots : (specialDirEntry [0x2E, 0x2E] c).kind = .special ∧
    (specialDirEntry [0x2E, 0x2E] c).IsDot := by
  have h : (specialDirEntry [0x2E, 0x2E] 0).kind = .special ∧
      (specialDirEntry [0x2E, 0x2E] 0).IsDot := by decide +kernel
  exact h

theorem newDirEntries_tidy : Tidy ok (newDirEntries g c parent) := by
  have hok : ∀ {st : LfnState} {e : DirectoryEntry}, st.Dead → e.kind = .special → e.IsDot →
      ok st e := fun hd hk hdot => NameRules.strict (by simp [SlotStrict, hk, hd, hdot])
  have hstep : ∀ (st : LfnState) (e : DirectoryEntry), e.kind = .special → (lfnStep st e).Dead :=
    fun st e hk => lfnStep_dead (by simp [hk])
  refine ⟨[_, _], List.replicate (g.entriesPerCluster - 2) .zero, rfl,
    ⟨hok LfnState.dead_initial special_dot.1 special_dot.2,
      hok (hstep _ _ special_dot.1) special_dots.1 special_dots.2, trivial⟩,
    hstep _ _ special_dots.1, fun e he => ?_⟩
  rw [List.eq_of_mem_replicate he]
  rfl

/-- A new directory is empty. -/
theorem itemsOf_newDirEntries : itemsOf (newDirEntries g c parent) = [] := by
  unfold itemsOf newDirEntries
  rw [dirItems, dirItems]
  simp only [special_dot.1, special_dots.1]
  refine dirItems_zeros fun e he => ?_
  rw [List.eq_of_mem_replicate he]
  rfl

end

/-! ## Conditions on directories -/

/-- What a condition on the slots of a directory must satisfy for the operations to keep it: lookups
work, and the edits lead to such directories again. -/
class DirRules (ok : List DirectoryEntry → Prop) : Prop where
  ended : ∀ {es}, ok es → Ended es
  dotsPlain : ∀ {es}, ok es → DotsPlain .initial es
  append : ∀ {es zs}, ok es → (∀ e ∈ zs, e.name0 = 0) → ok (es ++ zs)
  place : ∀ {es name entry new start}, ok es → FreeRunAt es start new.length →
    NameBlock name entry new → ok (setSpan es start new)
  delete : ∀ {es} {it : Item}, ok es → it ∈ itemsOf es →
    ok (deleteSpan es (it.index - it.lfnCount es) (it.lfnCount es + 1))
  inPlace : ∀ {es name entry new} {it : Item}, ok es → it ∈ itemsOf es →
    NameBlock name entry new → new.length ≤ it.lfnCount es + 1 →
    ok (deleteSpan (setSpan es (it.index - it.lfnCount es) new)
      (it.index - it.lfnCount es + new.length) (it.lfnCount es + 1 - new.length))
  store : ∀ {es e'} {it : Item}, ok es → it ∈ itemsOf es → SameName it.entry e' →
    ok (es.set it.index e')
  special : ∀ {es i e e'}, ok es → es[i]? = some e → e.kind = .special → SameName e e' →
    ok (es.set i e')
  newDir : ∀ {g c parent}, ok (newDirEntries g c parent)

/-- Conditions under which the list of entries changes with the live slots. -/
class TidyRules (ok : List DirectoryEntry → Prop) : Prop extends DirRules ok where
  tidy : ∀ {es}, ok es → Tidy SlotTidy es

instance {rule : LfnState → DirectoryEntry → Prop} [NameRules rule] : TidyRules (Tidy rule) where
  ended h := h.ended
  dotsPlain h := h.dotsPlain
  append h hz := tidy_append_zeros h hz
  place {_ _ _ _ start} h hrun hnew := by
    obtain ⟨_, _, -, hitems⟩ := hnew.items
    exact (itemAdded_setSpan h hrun hnew.closedBlock (hitems start)).1
  delete h hit := (itemRemoved_deleteSpan h hit).1
  inPlace h hit hnew hlen := by
    obtain ⟨_, _, -, hitems⟩ := hnew.items
    exact (itemReplaced_inPlace h hit hlen hnew.closedBlock (hitems _)).1
  store h hit hsame := (itemReplaced_set h hit hsame).1
  special h hi hk hsame := tidy_set_special h hi hk hsame
  newDir := newDirEntries_tidy
  tidy h := h.tidy

/-- A lookup finds the live entries: nothing stands behind the end mark, and the special slots hold
`.` and `..` and have no long-name slot before them. -/
structure Searchable (es : List DirectoryEntry) : Prop where
  ended : Ended es
  dots : ∀ (i : Nat) (e : DirectoryEntry), es[i]? = some e → e.kind = .special →
    e.IsDot ∧ ∀ (j : Nat) (a : DirectoryEntry), j + 1 = i → es[j]? = some a → a.kind ≠ .longName

section

variable {es es' new zs : List DirectoryEntry} {start count i lo hi : Nat}
  {e e' entry : DirectoryEntry} {it it' : Item} {name : CStr}

theorem ended_iff : Ended es ↔ ∀ (i j : Nat) (a b : DirectoryEntry), i < j → es[i]? = some a →
    es[j]? = some b → a.name0 = 0 → b.name0 = 0 := by
  unfold Ended
  rw [List.pairwise_iff_getElem]
  constructor
  · intro h i j a b hij ha hb
    obtain ⟨hi, rfl⟩ := List.getElem?_eq_some_iff.mp ha
    obtain ⟨hj, rfl⟩ := List.getElem?_eq_some_iff.mp hb
    exact h i j hi hj hij
  · intro h i j hi hj hij
    exact h i j _ _ hij (List.getElem?_eq_getElem hi) (List.getElem?_eq_getElem hj)

theorem Searchable.dotsPlain (h : Searchable es) : DotsPlain .initial es := by
  rintro p e q rfl hk
  obtain ⟨hdot, hbefore⟩ := h.dots p.length e (by simp) hk
  refine ⟨?_, hdot⟩
  rcases List.eq_nil_or_concat p with rfl | ⟨p', x, rfl⟩
  · exact LfnState.dead_initial
  · rw [List.concat_eq_append] at hbefore ⊢
    rw [List.foldl_append]
    exact lfnStep_dead (hbefore p'.length x (by simp) (by simp))

/-- Nothing in front of a slot in use is an end mark. -/
theorem Ended.name0_ne (h : Ended es) {j : Nat} {a : DirectoryEntry} (hi : es[i]? = some e)
    (hne : e.name0 ≠ 0) (ha : es[j]? = some a) (hj : j ≤ i) : a.name0 ≠ 0 := by
  rcases Nat.eq_or_lt_of_le hj with rfl | hlt
  · obtain rfl := Option.some.inj (hi.symm.trans ha)
    exact hne
  · exact fun h0 => hne (ended_iff.mp h j i a e hlt ha hi h0)

/-- The slots from `lo` to `hi` are filled again, the last of them not with a long-name slot. -/
theorem Searchable.refill (lo hi : Nat) (h : Searchable es)
    (hout : ∀ i, ¬ (lo ≤ i ∧ i < hi) → es'[i]? = es[i]?)
    (hin : ∀ (i : Nat) (e : DirectoryEntry), lo ≤ i → i < hi → es'[i]? = some e →
      e.name0 ≠ 0 ∧ e.kind ≠ .special ∧ (i + 1 = hi → e.kind ≠ .longName))
    (hbefore : ∀ (i : Nat) (e : DirectoryEntry), i < lo → es[i]? = some e → e.name0 ≠ 0) :
    Searchable es' where
  ended := by
    refine ended_iff.mpr fun i j a b hij ha hb h0 => ?_
    have hi' : ¬ (lo ≤ i ∧ i < hi) := fun hi' => (hin i a hi'.1 hi'.2 ha).1 h0
    rw [hout i hi'] at ha
    by_cases hj : lo ≤ j ∧ j < hi
    · exact absurd h0 (hbefore i a (by omega) ha)
    · rw [hout j hj] at hb
      exact ended_iff.mp h.ended i j a b hij ha hb h0
  dots i e he hk := by
    have hi' : ¬ (lo ≤ i ∧ i < hi) := fun hi' => (hin i e hi'.1 hi'.2 he).2.1 hk
    rw [hout i hi'] at he
    obtain ⟨hdot, hbehind⟩ := h.dots i e he hk
    refine ⟨hdot, fun j a hj ha => ?_⟩
    by_cases hj' : lo ≤ j ∧ j < hi
    · exact (hin j a hj'.1 hj'.2 ha).2.2 (by omega)
    · rw [hout j hj'] at ha
      exact hbehind j a hj ha

/-- A slot that is deleted is neither at the end nor a special or long-name slot. -/
theorem setDeleted_used (e : DirectoryEntry) : e.setDeleted.name0 ≠ 0 ∧
    e.setDeleted.kind ≠ .special ∧ e.setDeleted.kind ≠ .longName := by
  have hdel : e.setDeleted.kind = .deleted := DirectoryEntry.kind_setDeleted
  refine ⟨fun h0 => ?_, by simp [hdel], by simp [hdel]⟩
  rw [DirectoryEntry.kind_endMark h0] at hdel
  cases hdel

/-- Slots up to one in use are deleted. -/
theorem Searchable.deleteSpan (h : Searchable es) (hfit : start + count ≤ es.length)
    (hi : es[i]? = some e) (hne : e.name0 ≠ 0) (hstart : start ≤ i + 1) :
    Searchable (deleteSpan es start count) := by
  refine h.refill start (start + count) (fun j hj => ?_) (fun j x h₁ h₂ hx => ?_)
    fun j x hj hx => h.ended.name0_ne hi hne hx (by omega)
  · rw [getElem?_deleteSpan hfit, if_neg hj]
  · rw [getElem?_deleteSpan hfit, if_pos ⟨h₁, h₂⟩] at hx
    obtain ⟨y, -, rfl⟩ := Option.map_eq_some_iff.mp hx
    obtain ⟨hne, hdot, hlong⟩ := setDeleted_used y
    exact ⟨hne, hdot, fun _ => hlong⟩

theorem Searchable.set (h : Searchable es) (he : es[i]? = some e) (hsame : SameName e e') :
    Searchable (es.set i e') := by
  have hslot : ∀ {j : Nat} {x : DirectoryEntry}, (es.set i e')[j]? = some x → ∃ y,
      es[j]? = some y ∧ x.kind = y.kind ∧ x.name = y.name := by
    intro j x hx
    rw [List.getElem?_set] at hx
    split at hx
    · split at hx
      · rename_i heq _
        obtain rfl := Option.some.inj hx
        exact ⟨e, heq ▸ he, hsame.kind_eq, hsame.name⟩
      · cases hx
    · exact ⟨x, hx, rfl, rfl⟩
  constructor
  · refine ended_iff.mpr fun j k a b hjk ha hb h0 => ?_
    obtain ⟨a', ha', -, hna⟩ := hslot ha
    obtain ⟨b', hb', -, hnb⟩ := hslot hb
    rw [name0_of_name hnb]
    exact ended_iff.mp h.ended j k a' b' hjk ha' hb' (name0_of_name hna ▸ h0)
  · intro j x hx hk
    obtain ⟨y, hy, hky, hny⟩ := hslot hx
    obtain ⟨hdot, hbehind⟩ := h.dots j y hy (hky ▸ hk)
    refine ⟨by unfold DirectoryEntry.IsDot at hdot ⊢; rwa [hny], fun k a hkj ha => ?_⟩
    obtain ⟨b, hb, hkb, -⟩ := hslot ha
    rw [hkb]
    exact hbehind k b hkj hb

instance : DirRules Searchable where
  ended h := h.ended
  dotsPlain h := h.dotsPlain
  append {es zs} h hz := by
    refine ⟨List.pairwise_append.mpr ⟨h.ended, ?_, fun _ _ b hb _ => hz b hb⟩, ?_⟩
    · exact List.Pairwise.imp_of_mem (fun _ hb _ _ => hz _ hb)
        (List.pairwise_of_forall (R := fun _ _ => True) fun _ _ => trivial)
    · intro i e he hk
      by_cases hi : i < es.length
      · rw [List.getElem?_append_left hi] at he
        obtain ⟨hdot, hbehind⟩ := h.dots i e he hk
        refine ⟨hdot, fun j a hj ha => hbehind j a hj ?_⟩
        rwa [List.getElem?_append_left (by omega)] at ha
      · rw [List.getElem?_append_right (by omega)] at he
        rw [DirectoryEntry.kind_endMark (hz e (List.mem_of_getElem? he))] at hk
        cases hk
  place {es name entry new start} h hrun hnew := by
    refine h.refill start (start + new.length) (fun i hi => ?_)
      (fun i e h₁ h₂ he => ?_) fun i e hi he => ?_
    · rw [getElem?_setSpan hrun.fits, if_neg hi]
    · rw [getElem?_setSpan hrun.fits, if_pos ⟨h₁, h₂⟩] at he
      obtain ⟨hne, hdot, hlast⟩ := hnew.slot_used he
      exact ⟨hne, hdot, fun hend => hlast (by omega)⟩
    · -- the slot before the run is in use
      have hfits := hrun.fits
      have hlt : start - 1 < es.length := by omega
      refine h.ended.name0_ne (List.getElem?_eq_getElem hlt) (fun h0 => ?_) he (by omega)
      exact hrun.not_isFree (List.getElem?_eq_getElem hlt) (by omega) (.inl h0)
  delete {es it} h hit := by
    obtain ⟨hle, hentry, hlive, -⟩ := item_span hit
    have hlt := (List.getElem?_eq_some_iff.mp hentry).1
    exact h.deleteSpan (by omega) hentry (DirectoryEntry.kind_eq_live.mp hlive).1 (by omega)
  inPlace {es name entry new it} h hit hnew hlen := by
    obtain ⟨hle, hentry, hlive, -⟩ := item_span hit
    have hget := fun i => getElem?_inPlace (i := i) hit hlen
    refine h.refill (it.index - it.lfnCount es) (it.index + 1) (fun i hi => ?_)
      (fun i e h₁ h₂ he => ?_) fun i e hi he =>
        h.ended.name0_ne hentry (DirectoryEntry.kind_eq_live.mp hlive).1 he (by omega)
    · rw [hget, if_neg (by omega), if_neg (by omega)]
    · rw [hget] at he
      split at he
      · obtain ⟨hne, hdot, hlast⟩ := hnew.slot_used he
        exact ⟨hne, hdot, fun hend => hlast (by omega)⟩
      · rw [if_pos ⟨h₁, by omega⟩] at he
        obtain ⟨y, -, rfl⟩ := Option.map_eq_some_iff.mp he
        obtain ⟨hne, hdot, hlong⟩ := setDeleted_used y
        exact ⟨hne, hdot, fun _ => hlong⟩
  store h hit hsame := h.set (item_span hit).2.1 hsame
  special h hi _ hsame := h.set hi hsame
  newDir {g c parent} := by
    have hz : ∀ e ∈ List.replicate (g.entriesPerCluster - 2) DirectoryEntry.zero, e.name0 = 0 :=
      fun e he => by rw [List.eq_of_mem_replicate he]; rfl
    have htidy : Tidy SlotTidy (newDirEntries g c parent) := newDirEntries_tidy
    refine ⟨htidy.ended, fun i e he hk => ?_⟩
    rcases i with _ | _ | i
    · obtain rfl : specialDirEntry [0x2E] c = e := Option.some.inj he
      exact ⟨special_dot.2, fun j a hj => by omega⟩
    · obtain rfl : specialDirEntry [0x2E, 0x2E] parent = e := Option.some.inj he
      refine ⟨special_dots.2, fun j a hj ha => ?_⟩
      obtain rfl : j = 0 := by omega
      obtain rfl : specialDirEntry [0x2E] c = a := Option.some.inj ha
      simp [special_dot.1]
    · have he : (List.replicate (g.entriesPerCluster - 2) DirectoryEntry.zero)[i]? = some e := he
      rw [DirectoryEntry.kind_endMark (hz e (List.mem_of_getElem? he))] at hk
      cases hk

end

end FunnyOS.Fat32
