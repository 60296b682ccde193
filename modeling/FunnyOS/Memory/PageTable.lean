import FunnyOS.Memory.Pages
import FunnyOS.Lib.Ranges

/-!
# The table of free ranges

`TableOk`: the ranges of the table are made of whole pages below 4 GiB, in order, and no two of
them touch. `append_free_range`, `reserve_range` and the search of `alloc_pages` keep it, and
change the free addresses by exactly the range they are called for, when they do not fail.
`NormalTable` is the same without the bound: what `append_free_range` does to it is settled for
every block, those included that overlap the table.
-/

namespace FunnyOS.Memory

variable {r : FreePageRange} {ranges before after : List FreePageRange}
  {base pageCount reserveStart reserveEnd count : Nat}

/-- Where a range ends. -/
def FreePageRange.limit (r : FreePageRange) : Nat := r.base + r.pageCount * pageSize

/-- Whole pages, at least one, below the end of the memory the kernel uses. -/
structure FreePageRange.Ok (r : FreePageRange) : Prop where
  aligned : r.base % pageSize = 0
  pages : 0 < r.pageCount
  bounded : r.limit ≤ maxPhysAddr

/-- Whole pages, at least one, of the address space. -/
structure FreePageRange.Whole (r : FreePageRange) : Prop where
  aligned : r.base % pageSize = 0
  pages : 0 < r.pageCount
  bounded : r.limit ≤ 2 ^ 64

/-- The addresses of the free ranges. -/
def freeAddresses (ranges : List FreePageRange) : Set Nat :=
  covered FreePageRange.base FreePageRange.limit ranges

/-- The pages of the free ranges. -/
def freePageCount (ranges : List FreePageRange) : Nat := (ranges.map FreePageRange.pageCount).sum

/-- What holds of `g_free_ranges` between the calls. -/
structure TableOk (ranges : List FreePageRange) : Prop where
  separated : Separated FreePageRange.base FreePageRange.limit ranges
  ranges_ok : ∀ r ∈ ranges, r.Ok

/-- A table in normal form: nonempty ranges of whole pages, in order, no two of which touch. -/
structure NormalTable (ranges : List FreePageRange) : Prop where
  separated : Separated FreePageRange.base FreePageRange.limit ranges
  whole : ∀ r ∈ ranges, r.Whole

theorem FreePageRange.Whole.base_lt (h : r.Whole) : r.base < r.limit := by
  have := h.pages
  simp only [FreePageRange.limit, pageSize]
  omega

theorem FreePageRange.Ok.whole (h : r.Ok) : r.Whole :=
  ⟨h.aligned, h.pages, h.bounded.trans (by decide)⟩

theorem FreePageRange.Ok.base_lt (h : r.Ok) : r.base < r.limit := h.whole.base_lt

theorem FreePageRange.rangeEnd_eq (h : r.limit < 2 ^ 64) : rangeEnd r.base r.pageCount = r.limit :=
  Nat.mod_eq_of_lt h

theorem FreePageRange.Ok.rangeEnd_eq (h : r.Ok) : rangeEnd r.base r.pageCount = r.limit :=
  FreePageRange.rangeEnd_eq (h.bounded.trans_lt (by decide))

@[simp] theorem freeAddresses_nil : freeAddresses [] = ∅ := covered_nil

@[simp] theorem freeAddresses_cons :
    freeAddresses (r :: ranges) = Set.Ico r.base r.limit ∪ freeAddresses ranges := covered_cons

@[simp] theorem freeAddresses_append :
    freeAddresses (before ++ after) = freeAddresses before ∪ freeAddresses after := covered_append

@[simp] theorem freePageCount_nil : freePageCount [] = 0 := rfl

@[simp] theorem freePageCount_cons :
    freePageCount (r :: ranges) = r.pageCount + freePageCount ranges := by
  simp [freePageCount]

@[simp] theorem freePageCount_append :
    freePageCount (before ++ after) = freePageCount before + freePageCount after := by
  simp [freePageCount]

namespace TableOk

theorem nil : TableOk [] := ⟨.nil, by simp⟩

theorem cons_iff : TableOk (r :: ranges) ↔
    r.Ok ∧ (∀ b ∈ ranges, r.limit < b.base) ∧ TableOk ranges := by
  constructor
  · intro h
    have hs := Separated.cons_iff.1 h.separated
    exact ⟨h.ranges_ok r (by simp), hs.2.1, hs.2.2, fun b hb => h.ranges_ok b (by simp [hb])⟩
  · intro ⟨hr, hlt, h⟩
    refine ⟨Separated.cons_iff.2 ⟨hr.base_lt, hlt, h.separated⟩, ?_⟩
    intro b hb
    rcases List.mem_cons.1 hb with rfl | hb
    · exact hr
    · exact h.ranges_ok b hb

theorem append_iff : TableOk (before ++ after) ↔
    TableOk before ∧ TableOk after ∧ ∀ a ∈ before, ∀ b ∈ after, a.limit < b.base := by
  constructor
  · intro h
    have hs := Separated.append_iff.1 h.separated
    exact ⟨⟨hs.1, fun a ha => h.ranges_ok a (by simp [ha])⟩,
      ⟨hs.2.1, fun a ha => h.ranges_ok a (by simp [ha])⟩, hs.2.2⟩
  · intro ⟨h₁, h₂, hlt⟩
    refine ⟨Separated.append_iff.2 ⟨h₁.separated, h₂.separated, hlt⟩, ?_⟩
    intro a ha
    rcases List.mem_append.1 ha with ha | ha
    · exact h₁.ranges_ok a ha
    · exact h₂.ranges_ok a ha

theorem middle (h₁ : TableOk before) (h₂ : TableOk after) (hr : r.Ok)
    (hbefore : ∀ c ∈ before, c.limit < r.base) (hafter : ∀ c ∈ after, r.limit < c.base) :
    TableOk (before ++ r :: after) := by
  refine ⟨h₁.separated.middle h₂.separated hr.base_lt hbefore hafter, ?_⟩
  intro a ha
  rcases List.mem_append.1 ha with ha | ha
  · exact h₁.ranges_ok a ha
  · rcases List.mem_cons.1 ha with rfl | ha
    · exact hr
    · exact h₂.ranges_ok a ha

end TableOk

namespace NormalTable

theorem append_iff : NormalTable (before ++ after) ↔
    NormalTable before ∧ NormalTable after ∧ ∀ a ∈ before, ∀ b ∈ after, a.limit < b.base := by
  constructor
  · intro h
    have hs := Separated.append_iff.1 h.separated
    exact ⟨⟨hs.1, fun a ha => h.whole a (by simp [ha])⟩,
      ⟨hs.2.1, fun a ha => h.whole a (by simp [ha])⟩, hs.2.2⟩
  · intro ⟨h₁, h₂, hlt⟩
    constructor
    · exact Separated.append_iff.2 ⟨h₁.separated, h₂.separated, hlt⟩
    · intro a ha
      rcases List.mem_append.1 ha with ha | ha
      · exact h₁.whole a ha
      · exact h₂.whole a ha

theorem tail (h : NormalTable (r :: ranges)) :
    r.Whole ∧ (∀ b ∈ ranges, r.limit < b.base) ∧ NormalTable ranges := by
  obtain ⟨-, hranges, hlt⟩ := append_iff.1 (show NormalTable ([r] ++ ranges) from h)
  exact ⟨h.whole r (by simp), hlt r (by simp), hranges⟩

theorem middle (h₁ : NormalTable before) (h₂ : NormalTable after) (hr : r.Whole)
    (hbefore : ∀ c ∈ before, c.limit < r.base) (hafter : ∀ c ∈ after, r.limit < c.base) :
    NormalTable (before ++ r :: after) := by
  constructor
  · exact h₁.separated.middle h₂.separated hr.base_lt hbefore hafter
  · intro a ha
    rcases List.mem_append.1 ha with ha | ha
    · exact h₁.whole a ha
    · rcases List.mem_cons.1 ha with rfl | ha
      · exact hr
      · exact h₂.whole a ha

end NormalTable

theorem TableOk.normal (h : TableOk ranges) : NormalTable ranges :=
  ⟨h.separated, fun r hr => (h.ranges_ok r hr).whole⟩

/-- The bound of `TableOk` is one on the free addresses. -/
theorem TableOk.addresses_lt (h : TableOk ranges) : freeAddresses ranges ⊆ Set.Iio maxPhysAddr :=
  fun _ ⟨r, hr, _, hx⟩ => hx.trans_le (h.ranges_ok r hr).bounded

theorem NormalTable.tableOk (h : NormalTable ranges)
    (hlt : freeAddresses ranges ⊆ Set.Iio maxPhysAddr) : TableOk ranges := by
  refine ⟨h.separated, fun r hr => ⟨(h.whole r hr).aligned, (h.whole r hr).pages, ?_⟩⟩
  have hbase := (h.whole r hr).base_lt
  -- the last address of the range is a free one
  have hlast : r.limit - 1 ∈ freeAddresses ranges := ⟨r, hr, by omega, by omega⟩
  have := hlt hlast
  simp only [Set.mem_Iio] at this
  omega

/-- The pages of a table fit in the memory below 4 GiB. -/
theorem TableOk.freePageCount_le (h : TableOk ranges) :
    freePageCount ranges ≤ maxPhysAddr / pageSize := by
  have hsum := h.separated.sum_length_le (x := 0) (fun r hr => (h.ranges_ok r hr).bounded)
    (fun r _ => Nat.zero_le _) (Nat.zero_le _)
  have hlength : ranges.map (fun r => r.limit - r.base) =
      ranges.map (fun r => r.pageCount * pageSize) := by
    apply List.map_congr_left
    intro r _
    rw [FreePageRange.limit, Nat.add_sub_cancel_left]
  rw [Nat.zero_add, hlength, List.sum_map_mul_right] at hsum
  exact (Nat.le_div_iff_mul_le (by decide)).2 hsum

/-- A table that took in a range: nothing but its addresses came in. -/
structure Taken (ranges : List FreePageRange) (r : FreePageRange) (ranges' : List FreePageRange) :
    Prop where
  ok : TableOk ranges'
  addresses : freeAddresses ranges' = freeAddresses ranges ∪ Set.Ico r.base r.limit
  pages : freePageCount ranges' = freePageCount ranges + r.pageCount

/-- `Taken`, for a table in normal form. -/
structure TakenNormal (ranges : List FreePageRange) (r : FreePageRange)
    (ranges' : List FreePageRange) : Prop where
  normal : NormalTable ranges'
  addresses : freeAddresses ranges' = freeAddresses ranges ∪ Set.Ico r.base r.limit
  pages : freePageCount ranges' = freePageCount ranges + r.pageCount

theorem TakenNormal.taken {ranges' : List FreePageRange} (h : TakenNormal ranges r ranges')
    (hok : TableOk ranges) (hr : r.Ok) : Taken ranges r ranges' := by
  refine ⟨h.normal.tableOk ?_, h.addresses, h.pages⟩
  rw [h.addresses]
  exact Set.union_subset hok.addresses_lt fun x hx => hx.2.trans_le hr.bounded

/-- Two ranges that touch are one range. -/
theorem FreePageRange.Whole.join {next : FreePageRange} (hr : r.Whole) (hn : next.Whole)
    (h : r.limit = next.base) :
    FreePageRange.Whole ⟨r.base, r.pageCount + next.pageCount⟩ ∧
      FreePageRange.limit ⟨r.base, r.pageCount + next.pageCount⟩ = next.limit ∧
      (r.pageCount + next.pageCount) % 2 ^ 64 = r.pageCount + next.pageCount ∧
      Set.Ico r.base r.limit ∪ Set.Ico next.base next.limit = Set.Ico r.base next.limit := by
  have hlim : FreePageRange.limit ⟨r.base, r.pageCount + next.pageCount⟩ = next.limit := by
    simp only [FreePageRange.limit] at h ⊢
    linarith
  have hbound : FreePageRange.limit ⟨r.base, r.pageCount + next.pageCount⟩ ≤ 2 ^ 64 :=
    hlim.trans_le hn.bounded
  refine ⟨⟨hr.aligned, Nat.add_pos_left hr.pages _, hbound⟩, hlim, ?_, ?_⟩
  · have hsum : r.base + (r.pageCount + next.pageCount) * 4096 ≤ 2 ^ 64 := hbound
    omega
  · rw [h]
    exact Set.Ico_union_Ico_eq_Ico (h ▸ hr.base_lt.le) hn.base_lt.le

/-- A range that touches nothing before it, put in. -/
theorem mergeNext_taken (hb : NormalTable before) (ha : NormalTable after) (hr : r.Whole)
    (hend : r.limit < 2 ^ 64) (hbefore : ∀ c ∈ before, c.limit < r.base)
    (hafter : ∀ c ∈ after, r.limit ≤ c.base) :
    TakenNormal (before ++ after) r
      (mergeFreeRange.mergeNext before after r.base r.pageCount) := by
  have put : (∀ c ∈ after, r.limit < c.base) →
      TakenNormal (before ++ after) r (before ++ r :: after) := by
    intro hlt
    refine ⟨hb.middle ha hr hbefore hlt, ?_, by simp; omega⟩
    simp only [freeAddresses_append, freeAddresses_cons]
    rw [Set.union_assoc, Set.union_comm (freeAddresses after)]
  cases after with
  | nil => exact put (by simp)
  | cons next rest =>
      obtain ⟨hn, hnlt, hrest⟩ := ha.tail
      simp only [mergeFreeRange.mergeNext, FreePageRange.rangeEnd_eq hend]
      split
      · next htouch =>
          obtain ⟨hok, hlim, hmod, hcov⟩ := hr.join hn htouch
          rw [Nat.add_comm next.pageCount, hmod]
          refine ⟨hb.middle hrest hok hbefore ?_, ?_, by simp; omega⟩
          · intro c hc
            rw [hlim]
            exact hnlt c hc
          · simp only [freeAddresses_append, freeAddresses_cons, hlim, ← hcov]
            ac_rfl
      · next htouch =>
          apply put
          intro c hc
          have hle := hafter next (by simp)
          rcases List.mem_cons.1 hc with rfl | hc
          · omega
          · have := hnlt c hc
            have := hn.base_lt
            omega

/-- A range between those that end before it and those that begin after it, put in. -/
theorem mergeFreeRange_taken (hok : NormalTable (before ++ after)) (hr : r.Whole)
    (hend : r.limit < 2 ^ 64) (hbefore : ∀ c ∈ before, c.limit ≤ r.base)
    (hafter : ∀ c ∈ after, r.limit ≤ c.base) :
    TakenNormal (before ++ after) r (mergeFreeRange before after r.base r.pageCount) := by
  obtain ⟨hb, ha, hlt⟩ := NormalTable.append_iff.1 hok
  rcases List.eq_nil_or_concat before with rfl | ⟨init, prev, rfl⟩
  · exact mergeNext_taken hb ha hr hend (by simp) hafter
  · rw [List.concat_eq_append] at *
    obtain ⟨hinit, hprev, hinitlt⟩ := NormalTable.append_iff.1 hb
    have hp := hprev.whole prev (by simp)
    have hinitlt := fun c hc => hinitlt c hc prev (by simp)
    have hple : prev.limit ≤ r.base := hbefore prev (by simp)
    have hpend : prev.limit < 2 ^ 64 := (hple.trans hr.base_lt.le).trans_lt hend
    simp only [mergeFreeRange, List.getLast?_append, List.getLast?_singleton, Option.some_or,
      FreePageRange.rangeEnd_eq hpend, List.dropLast_concat]
    split
    · next htouch =>
        obtain ⟨hok', hlim, hmod, hcov⟩ := hp.join hr htouch
        rw [hmod]
        have put : (∀ c ∈ after, r.limit < c.base) → TakenNormal (init ++ [prev] ++ after) r
            (init ++ ⟨prev.base, prev.pageCount + r.pageCount⟩ :: after) := by
          intro hlt'
          refine ⟨hinit.middle ha hok' hinitlt (hlim ▸ hlt'), ?_, by simp; omega⟩
          simp only [freeAddresses_append, freeAddresses_cons, freeAddresses_nil, hlim, ← hcov]
          rw [Set.union_empty]
          ac_rfl
        cases after with
        | nil => exact put (by simp)
        | cons next rest =>
            obtain ⟨hn, hnlt, hrest⟩ := ha.tail
            simp only [FreePageRange.rangeEnd_eq (hlim.trans_lt hend), hlim]
            split
            · next htouch' =>
                obtain ⟨hok'', hlim', hmod', hcov'⟩ := hok'.join hn (hlim.trans htouch')
                rw [hmod']
                refine ⟨hinit.middle hrest hok'' hinitlt ?_, ?_, by simp; omega⟩
                · intro c hc
                  rw [hlim']
                  exact hnlt c hc
                · simp only [freeAddresses_append, freeAddresses_cons, freeAddresses_nil, hlim',
                    ← hcov', hlim, ← hcov, Set.union_empty]
                  ac_rfl
            · next htouch' =>
                apply put
                intro c hc
                have hle := hafter next (by simp)
                rcases List.mem_cons.1 hc with rfl | hc
                · omega
                · have := hnlt c hc
                  have := hn.base_lt
                  omega
    · next htouch =>
        apply mergeNext_taken hb ha hr hend _ hafter
        intro c hc
        rcases List.mem_append.1 hc with hc | hc
        · have := hinitlt c hc
          have := hp.base_lt
          omega
        · rw [List.mem_singleton.1 hc]
          omega

/-- The two parts that `append_free_range` cuts the table into. -/
theorem NormalTable.mem_takeWhile_iff (h : NormalTable ranges) {c : FreePageRange} :
    (c ∈ ranges.takeWhile (fun a => decide (a.base < r.base)) ↔ c ∈ ranges ∧ c.base < r.base) ∧
      (c ∈ ranges.dropWhile (fun a => decide (a.base < r.base)) ↔ c ∈ ranges ∧ r.base ≤ c.base) := by
  have hsplit : ranges.takeWhile (fun a => decide (a.base < r.base)) ++
      ranges.dropWhile (fun a => decide (a.base < r.base)) = ranges :=
    List.takeWhile_append_dropWhile
  have htake : c ∈ ranges.takeWhile (fun a => decide (a.base < r.base)) → c.base < r.base :=
    fun hc => by simpa using List.mem_takeWhile_imp hc
  have hdrop : c ∈ ranges.dropWhile (fun a => decide (a.base < r.base)) → r.base ≤ c.base :=
    le_of_mem_dropWhile h.separated.sorted
  have hmem : c ∈ ranges ↔ c ∈ ranges.takeWhile (fun a => decide (a.base < r.base)) ∨
      c ∈ ranges.dropWhile (fun a => decide (a.base < r.base)) := by
    rw [← List.mem_append, hsplit]
  constructor
  · constructor
    · intro hc
      exact ⟨hmem.2 (.inl hc), htake hc⟩
    · intro ⟨hc, hlt⟩
      exact (hmem.1 hc).resolve_right fun hc => absurd (hdrop hc) (not_le.2 hlt)
  · constructor
    · intro hc
      exact ⟨hmem.2 (.inr hc), hdrop hc⟩
    · intro ⟨hc, hle⟩
      exact (hmem.1 hc).resolve_left fun hc => absurd (htake hc) (not_lt.2 hle)

/-- `append_free_range` refuses a block when the table is full or a range begins inside it. -/
theorem appendFreeRange_rejects (hok : NormalTable ranges) (hr : r.Whole) (hend : r.limit < 2 ^ 64)
    (h : maxFreeRanges ≤ ranges.length ∨ ∃ c ∈ ranges, r.base ≤ c.base ∧ c.base < r.limit) :
    appendFreeRange ranges r.base r.pageCount = (false, ranges) := by
  simp only [appendFreeRange, if_neg hr.pages.ne', FreePageRange.rangeEnd_eq hend]
  split
  · rfl
  · next hroom =>
      obtain ⟨c, hc, hle, hlt⟩ := h.resolve_left hroom
      have hafter := (hok.mem_takeWhile_iff (r := r) (c := c)).2.2 ⟨hc, hle⟩
      -- the first range that begins at the block's base or later begins no later than `c`
      rcases hdrop : ranges.dropWhile (fun a => decide (a.base < r.base)) with _ | ⟨next, rest⟩
      · simp [hdrop] at hafter
      · have hnormal : NormalTable (next :: rest) := by
          rw [← List.takeWhile_append_dropWhile (p := fun a => decide (a.base < r.base))
            (l := ranges), hdrop] at hok
          exact (NormalTable.append_iff.1 hok).2.1
        obtain ⟨hn, hnlt, -⟩ := hnormal.tail
        have hnext : next.base < r.limit := by
          rw [hdrop] at hafter
          rcases List.mem_cons.1 hafter with rfl | hafter
          · exact hlt
          · exact (hn.base_lt.trans (hnlt c hafter)).trans hlt
        simp [hdrop, hnext]

/-- Otherwise it puts the block in, without a look at the range before it. -/
theorem appendFreeRange_accepts (hok : NormalTable ranges) (hr : r.Whole)
    (hend : r.limit < 2 ^ 64) (hroom : ranges.length < maxFreeRanges)
    (hnone : ∀ c ∈ ranges, r.base ≤ c.base → r.limit ≤ c.base) :
    appendFreeRange ranges r.base r.pageCount =
      (true, mergeFreeRange (ranges.takeWhile (fun a => decide (a.base < r.base)))
        (ranges.dropWhile (fun a => decide (a.base < r.base))) r.base r.pageCount) := by
  have hnext : (ranges.dropWhile (fun a => decide (a.base < r.base))).head?.any
      (fun next => decide (next.base < r.limit)) = false := by
    rcases hdrop : ranges.dropWhile (fun a => decide (a.base < r.base)) with _ | ⟨next, rest⟩
    · simp [hdrop]
    · have hmem : next ∈ ranges.dropWhile (fun a => decide (a.base < r.base)) := by simp [hdrop]
      obtain ⟨hin, hle⟩ := hok.mem_takeWhile_iff.2.1 hmem
      simpa [hdrop] using hnone next hin hle
  simp only [appendFreeRange, if_neg hr.pages.ne', if_neg (not_le.2 hroom),
    FreePageRange.rangeEnd_eq hend, hnext, Bool.false_eq_true, if_false]

/-- What `append_free_range` does with a block that overlaps no range of the table: it fails
exactly when the table is full. -/
theorem appendFreeRange_taken (hok : NormalTable ranges) (hr : r.Whole) (hend : r.limit < 2 ^ 64)
    (hroom : ranges.length < maxFreeRanges)
    (hafter : ∀ c ∈ ranges, r.base ≤ c.base → r.limit ≤ c.base)
    (hbefore : ∀ c ∈ ranges, c.base < r.base → c.limit ≤ r.base) :
    ∃ ranges', appendFreeRange ranges r.base r.pageCount = (true, ranges') ∧
      TakenNormal ranges r ranges' := by
  refine ⟨_, appendFreeRange_accepts hok hr hend hroom hafter, ?_⟩
  have hsplit : ranges.takeWhile (fun a => decide (a.base < r.base)) ++
      ranges.dropWhile (fun a => decide (a.base < r.base)) = ranges :=
    List.takeWhile_append_dropWhile
  have htaken := mergeFreeRange_taken (hsplit.symm ▸ hok) hr hend
    (fun c hc => (hok.mem_takeWhile_iff.1.1 hc).elim (hbefore c))
    (fun c hc => (hok.mem_takeWhile_iff.2.1 hc).elim (hafter c))
  rw [hsplit] at htaken
  exact htaken

/-- What `append_free_range` does with a range none of whose addresses is in the table: it fails
exactly when the table is full. -/
theorem appendFreeRange_cases (hok : TableOk ranges) (hr : r.Ok)
    (hdisj : Disjoint (Set.Ico r.base r.limit) (freeAddresses ranges)) :
    (maxFreeRanges ≤ ranges.length ∧
      appendFreeRange ranges r.base r.pageCount = (false, ranges)) ∨
    (ranges.length < maxFreeRanges ∧ ∃ ranges',
      appendFreeRange ranges r.base r.pageCount = (true, ranges') ∧ Taken ranges r ranges') := by
  have hend : r.limit < 2 ^ 64 := hr.bounded.trans_lt (by decide)
  by_cases hfull : maxFreeRanges ≤ ranges.length
  · left
    exact ⟨hfull, appendFreeRange_rejects hok.normal hr.whole hend (.inl hfull)⟩
  · right
    refine ⟨lt_of_not_ge hfull, ?_⟩
    obtain ⟨ranges', happend, htaken⟩ :=
      appendFreeRange_taken hok.normal hr.whole hend (lt_of_not_ge hfull)
        (fun c hc hle => le_lo_of_disjoint hdisj hc hle (hok.ranges_ok c hc).base_lt)
        (fun c hc hlt => hi_le_of_disjoint hdisj hc hlt.le hr.base_lt)
    exact ⟨ranges', happend, htaken.taken hok hr⟩

/-- A block is refused and the table left alone, or it is taken in and the table is again in
normal form with nothing but the block added; a block that overlaps the table is refused. -/
structure AppendSound (ranges : List FreePageRange) (base pageCount : Nat) : Prop where
  outcome : appendFreeRange ranges base pageCount = (false, ranges) ∨
    ∃ ranges', appendFreeRange ranges base pageCount = (true, ranges') ∧ NormalTable ranges' ∧
      freeAddresses ranges' =
        freeAddresses ranges ∪ Set.Ico base (base + pageCount * pageSize)
  refused : ¬ Disjoint (Set.Ico base (base + pageCount * pageSize)) (freeAddresses ranges) →
    appendFreeRange ranges base pageCount = (false, ranges)

/-- `append_free_range` looks for an overlap with the range after the block only. It does what
it should exactly when it fails, or when the range before the block ends where the block begins
or earlier. -/
theorem appendFreeRange_sound_iff (hok : NormalTable ranges) (haligned : base % pageSize = 0)
    (hend : base + pageCount * pageSize < 2 ^ 64) :
    AppendSound ranges base pageCount ↔
      pageCount = 0 ∨ maxFreeRanges ≤ ranges.length ∨
        (∃ c ∈ ranges, base ≤ c.base ∧ c.base < base + pageCount * pageSize) ∨
        ∀ c ∈ ranges, c.base < base → c.limit ≤ base := by
  rcases Nat.eq_zero_or_pos pageCount with rfl | hpos
  · have hcall : appendFreeRange ranges base 0 = (true, ranges) := rfl
    simp only [true_or, iff_true]
    constructor
    · exact .inr ⟨ranges, hcall, hok, by simp⟩
    · simp
  · have hr : FreePageRange.Whole ⟨base, pageCount⟩ := ⟨haligned, hpos, hend.le⟩
    by_cases hbad : maxFreeRanges ≤ ranges.length ∨
        ∃ c ∈ ranges, base ≤ c.base ∧ c.base < base + pageCount * pageSize
    · have hcall := appendFreeRange_rejects hok hr hend hbad
      constructor
      · intro _
        rcases hbad with hfull | hinside
        · exact .inr (.inl hfull)
        · exact .inr (.inr (.inl hinside))
      · intro _
        exact ⟨.inl hcall, fun _ => hcall⟩
    · obtain ⟨hroom, hnone⟩ := not_or.1 hbad
      have hafter : ∀ c ∈ ranges, base ≤ c.base → base + pageCount * pageSize ≤ c.base :=
        fun c hc hle => not_lt.1 fun hlt => hnone ⟨c, hc, hle, hlt⟩
      constructor
      · intro hsound
        refine .inr (.inr (.inr fun c hc hlt => ?_))
        by_contra hover
        -- the base of the block is a free address
        have hmeet : ¬ Disjoint (Set.Ico base (base + pageCount * pageSize))
            (freeAddresses ranges) := by
          apply Set.not_disjoint_iff.2
          exact ⟨base, ⟨le_rfl, hr.base_lt⟩, c, hc, hlt.le, not_le.1 hover⟩
        have hcall := appendFreeRange_accepts hok hr hend (not_le.1 hroom) hafter
        exact Bool.noConfusion (Prod.mk.inj (hcall.symm.trans (hsound.refused hmeet))).1
      · intro h
        have hbefore := ((h.resolve_left hpos.ne').resolve_left hroom).resolve_left hnone
        obtain ⟨ranges', hcall, htaken⟩ :=
          appendFreeRange_taken hok hr hend (not_le.1 hroom) hafter hbefore
        refine ⟨.inr ⟨ranges', hcall, htaken.normal, htaken.addresses⟩, fun hmeet => ?_⟩
        apply absurd _ hmeet
        rw [Set.disjoint_left]
        intro x hx ⟨c, hc, hcx, hxc⟩
        rcases lt_or_ge c.base base with hlt | hle
        · exact absurd (hxc.trans_le (hbefore c hc hlt)) (not_lt.2 hx.1)
        · exact absurd (hx.2.trans_le (hafter c hc hle)) (not_lt.2 hcx)

/-- The table with the two pages at 2 MiB. -/
def twoPages : List FreePageRange := [⟨0x200000, 2⟩]

theorem twoPages_normal : NormalTable twoPages := by
  constructor
  · exact .singleton (by decide)
  · intro r hr
    rw [List.mem_singleton.1 hr]
    exact ⟨by decide, by decide, by decide⟩

theorem appendFreeRange_sound_below : AppendSound twoPages 0x1FF000 1 :=
  (appendFreeRange_sound_iff twoPages_normal (by decide) (by decide)).2 (by decide)

/-- The second of two free pages can be freed again, and is then twice in the table. -/
theorem appendFreeRange_takes_twice :
    NormalTable twoPages ∧ 0x201000 % pageSize = 0 ∧ 0x201000 + 1 * pageSize < 2 ^ 64 ∧
      appendFreeRange twoPages 0x201000 1 = (true, [⟨0x200000, 2⟩, ⟨0x201000, 1⟩]) ∧
      ¬ AppendSound twoPages 0x201000 1 := by
  refine ⟨twoPages_normal, by decide, by decide, by decide, fun hsound => ?_⟩
  have hmeet : ¬ Disjoint (Set.Ico 0x201000 (0x201000 + 1 * pageSize)) (freeAddresses twoPages) := by
    apply Set.not_disjoint_iff.2
    exact ⟨0x201000, ⟨by decide, by decide⟩, ⟨0x200000, 2⟩, by decide, by decide, by decide⟩
  have hcall : (appendFreeRange twoPages 0x201000 1).1 = true := by decide
  rw [hsound.refused hmeet] at hcall
  exact Bool.noConfusion hcall

/-- Whole pages between two page boundaries. -/
theorem pages_between {a b : Nat} (ha : a % pageSize = 0) (hb : b % pageSize = 0) (hab : a < b) :
    0 < (b - a) / pageSize ∧ FreePageRange.limit ⟨a, (b - a) / pageSize⟩ = b := by
  obtain ⟨i, rfl⟩ := Nat.dvd_of_mod_eq_zero ha
  obtain ⟨j, rfl⟩ := Nat.dvd_of_mod_eq_zero hb
  have hij : i < j := lt_of_mul_lt_mul_left hab (Nat.zero_le _)
  rw [← Nat.mul_sub, Nat.mul_div_cancel_left _ (by decide)]
  refine ⟨by omega, ?_⟩
  simp only [FreePageRange.limit]
  rw [Nat.mul_comm (j - i), ← Nat.mul_add, Nat.add_sub_cancel' hij.le]

theorem FreePageRange.limit_aligned (h : r.base % pageSize = 0) : r.limit % pageSize = 0 := by
  rw [FreePageRange.limit, Nat.add_mul_mod_self_right, h]

/-- The addresses of a table without those of a reserved range. -/
structure Cut (ranges : List FreePageRange) (reserveStart reserveEnd : Nat)
    (ranges' : List FreePageRange) : Prop where
  ok : TableOk ranges'
  within : ∀ b ∈ ranges', ∃ c ∈ ranges, c.base ≤ b.base
  addresses : freeAddresses ranges' = freeAddresses ranges \ Set.Ico reserveStart reserveEnd

/-- The first range replaced by what the reservation leaves of it. -/
theorem Cut.cons {ranges' : List FreePageRange} (pieces : List FreePageRange)
    (hok : TableOk (r :: ranges))
    (hcut : Cut ranges reserveStart reserveEnd ranges') (hpieces : TableOk pieces)
    (hin : ∀ p ∈ pieces, r.base ≤ p.base ∧ p.limit ≤ r.limit)
    (hcov : freeAddresses pieces = Set.Ico r.base r.limit \ Set.Ico reserveStart reserveEnd) :
    Cut (r :: ranges) reserveStart reserveEnd (pieces ++ ranges') := by
  obtain ⟨hr, hlt, _⟩ := TableOk.cons_iff.1 hok
  constructor
  · refine TableOk.append_iff.2 ⟨hpieces, hcut.ok, ?_⟩
    intro p hp b hb
    obtain ⟨c, hc, hcb⟩ := hcut.within b hb
    exact (hin p hp).2.trans_lt ((hlt c hc).trans_le hcb)
  · intro b hb
    rcases List.mem_append.1 hb with hb | hb
    · exact ⟨r, by simp, (hin b hb).1⟩
    · obtain ⟨c, hc, hcb⟩ := hcut.within b hb
      exact ⟨c, by simp [hc], hcb⟩
  · rw [freeAddresses_append, freeAddresses_cons, hcov, hcut.addresses, Set.union_sdiff_distrib]

/-- The loop of `reserve_range`, when it finds room for every range that it splits. -/
theorem reserveFrom_cut {ranges' : List FreePageRange} (hs : reserveStart % pageSize = 0)
    (he : reserveEnd % pageSize = 0) (hlt : reserveStart < reserveEnd) (hok : TableOk ranges)
    (h : reserveFrom reserveStart reserveEnd count ranges = (true, ranges')) :
    Cut ranges reserveStart reserveEnd ranges' := by
  induction ranges generalizing count ranges' with
  | nil =>
      simp only [reserveFrom, Prod.mk.injEq, true_and] at h
      exact h ▸ ⟨.nil, by simp, by simp⟩
  | cons r rest ih =>
      obtain ⟨hr, _, hrest⟩ := TableOk.cons_iff.1 hok
      have hbase := hr.base_lt
      have hlimit := FreePageRange.limit_aligned hr.aligned
      have hbound := hr.bounded
      simp only [reserveFrom, hr.rangeEnd_eq] at h
      split_ifs at h with hout hall hleft hright hfull
      · obtain ⟨hok', rfl⟩ := Prod.mk.inj h
        have hcut := ih hrest (Prod.ext hok' rfl)
        refine Cut.cons [r] hok hcut (TableOk.cons_iff.2 ⟨hr, by simp, .nil⟩) (by simp) ?_
        ext x
        simp
        omega
      · apply Cut.cons [] hok (ih hrest h) .nil (by simp)
        ext x
        simp
        omega
      · obtain ⟨hok', rfl⟩ := Prod.mk.inj h
        have hcut := ih hrest (Prod.ext hok' rfl)
        have hcutoff : reserveEnd < r.limit := by omega
        obtain ⟨hpos, hlim⟩ := pages_between he hlimit hcutoff
        refine Cut.cons [_] hok hcut
          (TableOk.cons_iff.2 ⟨⟨he, hpos, hlim.trans_le hbound⟩, by simp, .nil⟩) ?_ ?_
        · simp [hlim]
          omega
        · ext x
          simp [hlim]
          omega
      · obtain ⟨hok', rfl⟩ := Prod.mk.inj h
        have hcut := ih hrest (Prod.ext hok' rfl)
        have hcutoff : r.base < reserveStart := by omega
        obtain ⟨hpos, hlim⟩ := pages_between hr.aligned hs hcutoff
        have hb : reserveStart ≤ maxPhysAddr := le_trans (by omega) hbound
        refine Cut.cons [_] hok hcut
          (TableOk.cons_iff.2 ⟨⟨hr.aligned, hpos, hlim.trans_le hb⟩, by simp, .nil⟩) ?_ ?_
        · simp [hlim]
          omega
        · ext x
          simp [hlim]
          omega
      · simp at h
      · obtain ⟨hok', rfl⟩ := Prod.mk.inj h
        have hcut := ih hrest (Prod.ext hok' rfl)
        have hcutoff₁ : r.base < reserveStart := by omega
        have hcutoff₂ : reserveEnd < r.limit := by omega
        obtain ⟨hpos₁, hlim₁⟩ := pages_between hr.aligned hs hcutoff₁
        obtain ⟨hpos₂, hlim₂⟩ := pages_between he hlimit hcutoff₂
        have hb : reserveStart ≤ maxPhysAddr := le_trans (by omega) hbound
        have hright : TableOk [⟨reserveEnd, (r.limit - reserveEnd) / pageSize⟩] :=
          TableOk.cons_iff.2 ⟨⟨he, hpos₂, hlim₂.trans_le hbound⟩, by simp, .nil⟩
        refine Cut.cons [_, _] hok hcut
          (TableOk.cons_iff.2 ⟨⟨hr.aligned, hpos₁, hlim₁.trans_le hb⟩, ?_, hright⟩) ?_ ?_
        · simp [hlim₁]
          omega
        · simp [hlim₁, hlim₂]
          omega
        · ext x
          simp [hlim₁, hlim₂]
          omega

/-- `reserve_range`, when it does not fail: whole pages go that meet the range. -/
theorem reserveRange_cut {ranges' : List FreePageRange} (hok : TableOk ranges)
    (h : reserveRange ranges reserveStart reserveEnd = (true, ranges')) :
    Cut ranges (alignDownUintptr reserveStart pageSize) (alignUpUintptr reserveEnd pageSize)
      ranges' := by
  simp only [reserveRange] at h
  split at h
  · next hle =>
      obtain ⟨-, rfl⟩ := Prod.mk.inj h
      refine ⟨hok, fun b hb => ⟨b, hb, le_rfl⟩, ?_⟩
      rw [Set.Ico_eq_empty (not_lt.2 hle), Set.sdiff_empty]
  · next hlt =>
      exact reserveFrom_cut (Nat.mul_mod_left _ _) (Nat.mul_mod_left _ _) (not_le.1 hlt) hok h

/-- A table that gave up the first pages of a range. -/
structure Given (ranges : List FreePageRange) (base pageCount : Nat)
    (ranges' : List FreePageRange) : Prop where
  cut : Cut ranges base (base + pageCount * pageSize) ranges'
  aligned : base % pageSize = 0
  free : Set.Ico base (base + pageCount * pageSize) ⊆ freeAddresses ranges
  pages : freePageCount ranges' + pageCount = freePageCount ranges

/-- A range without its first pages ends where it ended. -/
theorem FreePageRange.limit_drop (h : pageCount ≤ r.pageCount) :
    FreePageRange.limit ⟨r.base + pageCount * pageSize, r.pageCount - pageCount⟩ = r.limit := by
  simp only [FreePageRange.limit]
  rw [Nat.add_assoc, ← Nat.add_mul, Nat.add_sub_cancel' h]

/-- A reservation that ends before the first range changes nothing. -/
theorem Cut.of_before (hok : TableOk ranges) (h : ∀ b ∈ ranges, reserveEnd ≤ b.base) :
    Cut ranges reserveStart reserveEnd ranges := by
  refine ⟨hok, fun b hb => ⟨b, hb, le_rfl⟩, ?_⟩
  symm
  rw [sdiff_eq_left, Set.disjoint_left]
  intro x ⟨b, hb, hbx, _⟩ hx
  exact absurd hx.2 (not_lt.2 ((h b hb).trans hbx))

/-- The search of `alloc_pages`, when it finds a range. -/
theorem allocFrom_given {ranges' : List FreePageRange} (hok : TableOk ranges)
    (h : allocFrom pageCount ranges = some (base, ranges')) :
    Given ranges base pageCount ranges' := by
  induction ranges generalizing ranges' with
  | nil => simp [allocFrom] at h
  | cons r rest ih =>
      obtain ⟨hr, hlt, hrest⟩ := TableOk.cons_iff.1 hok
      simp only [allocFrom] at h
      split_ifs at h with hfits hall
      · obtain ⟨rfl, rfl⟩ := Prod.mk.inj (Option.some.inj h)
        have hcount : pageCount = r.pageCount := le_antisymm hfits (Nat.sub_eq_zero_iff_le.1 hall)
        rw [hcount]
        have hcut : Cut rest r.base r.limit rest := .of_before hrest fun b hb => (hlt b hb).le
        refine ⟨Cut.cons [] hok hcut .nil (by simp) ?_, hr.aligned, ?_, ?_⟩
        · rw [← FreePageRange.limit, freeAddresses_nil, sdiff_self]
          rfl
        · rw [freeAddresses_cons]
          exact Set.subset_union_left
        · rw [freePageCount_cons, Nat.add_comm]
      · obtain ⟨rfl, rfl⟩ := Prod.mk.inj (Option.some.inj h)
        have hlim := FreePageRange.limit_drop hfits
        have hleft : r.base + pageCount * pageSize < r.limit := by
          have := Nat.mul_lt_mul_of_pos_right
            (lt_of_le_of_ne hfits (by omega : pageCount ≠ r.pageCount)) (by decide : 0 < pageSize)
          exact Nat.add_lt_add_left this _
        have hend : rangeEnd r.base pageCount = r.base + pageCount * pageSize :=
          Nat.mod_eq_of_lt ((hleft.trans_le hr.bounded).trans (by decide))
        have hcut : Cut rest r.base (r.base + pageCount * pageSize) rest :=
          .of_before hrest fun b hb => (hleft.trans (hlt b hb)).le
        have hok' : FreePageRange.Ok ⟨r.base + pageCount * pageSize, r.pageCount - pageCount⟩ :=
          ⟨by rw [Nat.add_mul_mod_self_right]; exact hr.aligned, Nat.pos_of_ne_zero hall,
            hlim.trans_le hr.bounded⟩
        rw [hend]
        refine ⟨Cut.cons [_] hok hcut (TableOk.cons_iff.2 ⟨hok', by simp, .nil⟩) ?_ ?_,
          hr.aligned, ?_, ?_⟩
        · simp [hlim]
        · ext x
          simp [hlim]
          omega
        · rw [freeAddresses_cons]
          exact (Set.Ico_subset_Ico_right hleft.le).trans Set.subset_union_left
        · simp only [freePageCount_cons]
          omega
      · obtain ⟨⟨base', rest'⟩, hsome, hpair⟩ := Option.map_eq_some_iff.1 h
        obtain ⟨rfl, rfl⟩ := Prod.mk.inj hpair
        obtain ⟨hcut, haligned, hfree, hpages⟩ := ih hrest hsome
        have hdisj : Disjoint (Set.Ico r.base r.limit)
            (Set.Ico base' (base' + pageCount * pageSize)) := by
          have hsep : Separated FreePageRange.base FreePageRange.limit ([r] ++ rest) := hok.separated
          have hcov := hsep.disjoint
          rw [covered_cons, covered_nil, Set.union_empty] at hcov
          exact hcov.mono_right hfree
        refine ⟨Cut.cons [r] hok hcut (TableOk.cons_iff.2 ⟨hr, by simp, .nil⟩) (by simp) ?_,
          haligned, ?_, ?_⟩
        · rw [hdisj.sdiff_eq_left, freeAddresses_cons, freeAddresses_nil, Set.union_empty]
        · rw [freeAddresses_cons]
          exact hfree.trans Set.subset_union_right
        · simp only [freePageCount_cons]
          omega

end FunnyOS.Memory
