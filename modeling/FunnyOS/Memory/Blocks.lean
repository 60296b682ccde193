import FunnyOS.Memory.MemoryInit
import FunnyOS.Lib.Pool
import FunnyOS.Lib.Run

/-!
# The pages that are handed out

Calls of `alloc_pages` and `free_pages` in any order, where only live blocks are freed. What the
calls do to the free addresses and the live blocks is what can happen to a pool of addresses, so
that no address is ever handed out twice; and as long as no block is freed while the table is
full, nothing is ever lost.
-/

namespace FunnyOS.Memory

variable {s s₀ m₀ m : State} {live live' : List FreePageRange} {b : FreePageRange}
  {image : KernelImage} {info : BootInfo} {base pageCount : Nat}

/-- A call of the page allocator. -/
inductive Call
  | alloc (pageCount : Nat)
  | free (b : FreePageRange)
deriving DecidableEq, Repr

/-- One call. The live blocks are those that `alloc_pages` has returned, with the number of
pages asked for, and that have not been freed; only these are freed. -/
inductive CallStep : State × List FreePageRange → Call → State × List FreePageRange → Prop
  | alloc (s : State) (live : List FreePageRange) (n : Nat) :
      CallStep (s, live) (.alloc n) ((allocPages s n).2,
        if (allocPages s n).1 = 0 then live else ⟨(allocPages s n).1, n⟩ :: live)
  | free (s : State) (live : List FreePageRange) (b : FreePageRange) (h : b ∈ live) :
      CallStep (s, live) (.free b) (freePages s b.base b.pageCount, live.erase b)

/-- The addresses of a block. -/
def FreePageRange.addresses (b : FreePageRange) : Set Nat := Set.Ico b.base b.limit

/-- The pool of addresses that the allocator manages. -/
def pool (x : State × List FreePageRange) : Pool Nat FreePageRange :=
  ⟨freeAddresses x.1.freeRanges, x.2⟩

/-- What holds between the calls after `memory_init` has succeeded. -/
structure Invariant (x : State × List FreePageRange) : Prop where
  ready : x.1.ready = true
  table : TableOk x.1.freeRanges
  blocks : ∀ b ∈ x.2, b.Ok
  disjointed : (pool x).Disjointed FreePageRange.addresses
  low : (pool x).total FreePageRange.addresses ⊆ Set.Ici reservedLowEnd

theorem Initialised.invariant (h : Initialised image info s) : Invariant (s, []) := by
  refine ⟨h.ready, h.ok, by simp, ⟨.nil, by simp [pool]⟩, ?_⟩
  simpa [pool, Pool.total] using h.low

/-- What `alloc_pages` does: nothing, or the first pages of a range go out. -/
theorem allocPages_cases (hx : Invariant (s, live)) (n : Nat) :
    allocPages s n = (0, s) ∨
    ∃ base ranges, allocPages s n = (base, { s with freeRanges := ranges }) ∧ base ≠ 0 ∧ 0 < n ∧
      Given s.freeRanges base n ranges := by
  by_cases hn : n = 0
  · left
    simp [allocPages, hn]
  · have hready : s.ready = true := hx.ready
    cases hfrom : allocFrom n s.freeRanges with
    | none =>
        left
        simp [allocPages, hfrom]
    | some found =>
        right
        have hgiven := allocFrom_given hx.table hfrom
        refine ⟨found.1, found.2, ?_, ?_, Nat.pos_of_ne_zero hn, hgiven⟩
        · simp [allocPages, hfrom, hready, hn]
        · have hpos : 0 < n * pageSize := Nat.mul_pos (Nat.pos_of_ne_zero hn) (by decide)
          have hmem : found.1 ∈ freeAddresses s.freeRanges :=
            hgiven.free ⟨le_rfl, Nat.lt_add_of_pos_right hpos⟩
          have hlow : reservedLowEnd ≤ found.1 := hx.low (Set.mem_union_left _ hmem)
          intro hzero
          rw [hzero] at hlow
          exact absurd hlow (by decide)

/-- What `free_pages` does with a live block: it goes back into the table, or, when the table is
full, nothing. -/
theorem freePages_cases (hx : Invariant (s, live)) (hb : b ∈ live) :
    (maxFreeRanges ≤ s.freeRanges.length ∧ freePages s b.base b.pageCount = s) ∨
    (s.freeRanges.length < maxFreeRanges ∧ ∃ ranges,
      freePages s b.base b.pageCount = { s with freeRanges := ranges } ∧
      Taken s.freeRanges b ranges) := by
  have hok := hx.blocks b hb
  have hready : s.ready = true := hx.ready
  have hbase : b.base ≠ 0 := by
    intro hzero
    have hmem : b.base ∈ Pool.out FreePageRange.addresses live := ⟨b, hb, le_rfl, hok.base_lt⟩
    have hlow : reservedLowEnd ≤ b.base := hx.low (Set.mem_union_right _ hmem)
    rw [hzero] at hlow
    exact absurd hlow (by decide)
  have happend : freePages s b.base b.pageCount =
      { s with freeRanges := (appendFreeRange s.freeRanges b.base b.pageCount).2 } := by
    simp [freePages, hready, hbase, hok.pages.ne']
  rcases appendFreeRange_cases hx.table hok (hx.disjointed.unused b hb) with
    ⟨hfull, hfail⟩ | ⟨hroom, ranges, hdone, htaken⟩
  · left
    rw [happend, hfail]
    exact ⟨hfull, rfl⟩
  · right
    rw [happend, hdone]
    exact ⟨hroom, ranges, rfl, htaken⟩

/-- The block that `alloc_pages` hands out. -/
theorem Given.block_ok {ranges ranges' : List FreePageRange} (h : Given ranges base pageCount ranges')
    (hok : TableOk ranges) (hpos : 0 < pageCount) : FreePageRange.Ok ⟨base, pageCount⟩ := by
  refine ⟨h.aligned, hpos, ?_⟩
  -- its last address is free, so that it lies in a range of the table
  have hlt : 0 < pageCount * pageSize := Nat.mul_pos hpos (by decide)
  obtain ⟨r, hr, -, hlast⟩ : base + pageCount * pageSize - 1 ∈ freeAddresses ranges :=
    h.free ⟨by omega, by omega⟩
  have hbound := (hok.ranges_ok r hr).bounded
  have hle : base + pageCount * pageSize ≤ r.limit := by omega
  exact hle.trans hbound

/-- The allocator refines the pool. -/
theorem CallStep.pool_step {x y : State × List FreePageRange} {c : Call} (hx : Invariant x)
    (h : CallStep x c y) : Pool.Step FreePageRange.addresses (pool x) (pool y) := by
  cases h with
  | alloc s live n =>
      rcases allocPages_cases hx n with hnone | ⟨base, ranges, halloc, hbase, hpos, hgiven⟩
      · simp only [hnone, if_true]
        exact .stay _
      · simp only [halloc, if_neg hbase, pool, hgiven.cut.addresses]
        exact .take (pool (s, live)) ⟨base, n⟩ hgiven.free
  | free s live b hb =>
      rcases freePages_cases hx hb with ⟨-, hlost⟩ | ⟨-, ranges, hfree, htaken⟩
      · rw [hlost]
        exact .lose (pool (s, live)) b hb
      · simp only [hfree, pool, htaken.addresses]
        exact .give (pool (s, live)) b hb

theorem CallStep.invariant {x y : State × List FreePageRange} {c : Call} (hx : Invariant x)
    (h : CallStep x c y) : Invariant y := by
  have hstep := h.pool_step hx
  have hdisjointed := hx.disjointed.step hstep
  have hlow := hstep.total_subset.trans hx.low
  cases h with
  | alloc s live n =>
      rcases allocPages_cases hx n with hnone | ⟨base, ranges, halloc, hbase, hpos, hgiven⟩
      · simp only [hnone, if_true]
        exact hx
      · simp only [halloc, if_neg hbase] at hdisjointed hlow ⊢
        refine ⟨hx.ready, hgiven.cut.ok, ?_, hdisjointed, hlow⟩
        intro b hb
        rcases List.mem_cons.1 hb with rfl | hb
        · exact hgiven.block_ok hx.table hpos
        · exact hx.blocks b hb
  | free s live b hb =>
      have hblocks : ∀ c ∈ live.erase b, c.Ok := fun c hc => hx.blocks c (List.mem_of_mem_erase hc)
      rcases freePages_cases hx hb with ⟨-, hlost⟩ | ⟨-, ranges, hfree, htaken⟩
      · rw [hlost] at hdisjointed hlow ⊢
        exact ⟨hx.ready, hx.table, hblocks, hdisjointed, hlow⟩
      · simp only [hfree] at hdisjointed hlow ⊢
        exact ⟨hx.ready, htaken.ok, hblocks, hdisjointed, hlow⟩

theorem invariant_of_run {calls : List Call} {x y : State × List FreePageRange}
    (h : Runs CallStep x calls y) (hx : Invariant x) : Invariant y :=
  h.invariant (fun _ _ _ hx hstep => hstep.invariant hx) hx

/-- The order of the blocks does not matter. -/
theorem Invariant.perm (h : Invariant (s, live))
    (hperm : live.Perm live') : Invariant (s, live') := by
  have hout : Pool.out FreePageRange.addresses live' = Pool.out FreePageRange.addresses live := by
    apply Set.ext
    intro x
    simp only [Pool.out, Set.mem_ofPred_eq, hperm.mem_iff]
  constructor
  · exact h.ready
  · exact h.table
  · exact fun b hb => h.blocks b (hperm.mem_iff.2 hb)
  · constructor
    · exact hperm.pairwise h.disjointed.apart (fun hd => hd.symm)
    · exact fun b hb => h.disjointed.unused b (hperm.mem_iff.2 hb)
  · have hlow := h.low
    simp only [Pool.total, pool] at hlow ⊢
    rw [hout]
    exact hlow

/-- Blocks that a call is not about stay out. -/
theorem CallStep.invariant_append {others blocks blocks' : List FreePageRange} {s s' : State}
    {call : Call} (h : Invariant (s, others ++ blocks)) (hstep : CallStep (s, blocks) call (s', blocks')) :
    Invariant (s', others ++ blocks') := by
  have hswap : Invariant (s, blocks ++ others) := h.perm List.perm_append_comm
  cases hstep with
  | alloc _ _ n =>
      have hafter := (CallStep.alloc s (blocks ++ others) n).invariant hswap
      split
      · next hzero =>
          rw [if_pos hzero] at hafter
          exact hafter.perm List.perm_append_comm
      · next hne =>
          rw [if_neg hne] at hafter
          have hperm : (⟨(allocPages s n).1, n⟩ :: blocks ++ others).Perm
              (others ++ ⟨(allocPages s n).1, n⟩ :: blocks) := List.perm_append_comm
          exact hafter.perm hperm
  | free _ _ b hb =>
      have hafter := (CallStep.free s (blocks ++ others) b (by simp [hb])).invariant hswap
      rw [List.erase_append_left _ hb] at hafter
      exact hafter.perm List.perm_append_comm

/-- After any calls the free ranges are in order and do not touch, no live block shares an
address with them or with another live block, and the next block handed out shares none with
those that are live. -/
theorem disjoint_of_run {calls : List Call} (hmap : DisjointConventional info.memoryMap.entries)
    (hinit : memoryInit image (some info) s₀ = (true, m₀))
    (hrun : Runs CallStep (m₀, []) calls (m, live)) :
    Separated FreePageRange.base FreePageRange.limit m.freeRanges ∧
      (∀ b ∈ live, Disjoint b.addresses (freeAddresses m.freeRanges)) ∧
      live.Pairwise (fun b c => Disjoint b.addresses c.addresses) ∧
      ∀ n, (allocPages m n).1 ≠ 0 → (allocPages m n).1 % pageSize = 0 ∧
        ∀ b ∈ live, Disjoint (FreePageRange.addresses ⟨(allocPages m n).1, n⟩) b.addresses := by
  have hinv := invariant_of_run hrun (memoryInit_initialised hmap hinit).invariant
  refine ⟨hinv.table.separated, hinv.disjointed.unused, hinv.disjointed.apart, ?_⟩
  intro n hne
  rcases allocPages_cases hinv n with hnone | ⟨base, ranges, halloc, hbase, hpos, hgiven⟩
  · exact absurd (by rw [hnone]) hne
  · rw [halloc]
    refine ⟨hgiven.aligned, ?_⟩
    intro b hb
    exact (hinv.disjointed.unused b hb).symm.mono_left hgiven.free

/-- Two runs of pages. -/
def sampleMap : List EfiMemoryDescriptor := [⟨7, 0x200000, 16⟩, ⟨7, 0x300000, 4⟩]

theorem sampleMap_disjoint : DisjointConventional (sampleInfo sampleMap).memoryMap.entries := by
  have hentries : (sampleInfo sampleMap).memoryMap.entries = sampleMap := by decide
  rw [hentries, sampleMap, DisjointConventional, List.pairwise_pair]
  intro _ _
  apply Set.Ico_disjoint_Ico.2
  decide

theorem sampleMap_init : memoryInit sampleImage (some (sampleInfo sampleMap)) startState =
    (true, sampleState sampleMap) :=
  memoryInit_sample (by decide +kernel)

theorem CallStep.alloc_of {n : Nat} (hbase : (allocPages s n).1 = base) (hne : base ≠ 0) :
    CallStep (s, live) (.alloc n) ((allocPages s n).2, ⟨base, n⟩ :: live) := by
  have halloc := CallStep.alloc s live n
  rw [hbase, if_neg hne] at halloc
  exact halloc

theorem sampleMap_alloc : CallStep (sampleState sampleMap, []) (.alloc 1)
    ((allocPages (sampleState sampleMap) 1).2, [⟨0x200000, 1⟩]) :=
  .alloc_of (by decide +kernel) (by decide)

theorem disjoint_of_run_sample :
    Disjoint (FreePageRange.addresses ⟨0x201000, 2⟩) (FreePageRange.addresses ⟨0x200000, 1⟩) := by
  have hrun := disjoint_of_run sampleMap_disjoint sampleMap_init (.cons sampleMap_alloc (.nil _))
  have hsecond := hrun.2.2.2 2
  have hbase : (allocPages (allocPages (sampleState sampleMap) 1).2 2).1 = 0x201000 := by
    decide +kernel
  rw [hbase] at hsecond
  exact (hsecond (by decide)).2 _ (by simp)

/-- A call that frees no block while the table is full. -/
def LosslessStep (x : State × List FreePageRange) (c : Call) (y : State × List FreePageRange) :
    Prop :=
  CallStep x c y ∧ ∀ b, c = .free b → x.1.freeRanges.length < maxFreeRanges

/-- The addresses that are free or in a live block, and the number of their pages. -/
def holding (x : State × List FreePageRange) : Set Nat × Nat :=
  ((pool x).total FreePageRange.addresses, freePageCount x.1.freeRanges + freePageCount x.2)

theorem freePageCount_erase (hb : b ∈ live) :
    freePageCount live = b.pageCount + freePageCount (live.erase b) := by
  rw [← freePageCount_cons]
  exact ((List.perm_cons_erase hb).map FreePageRange.pageCount).sum_eq

theorem LosslessStep.holding_eq {x y : State × List FreePageRange} {c : Call} (hx : Invariant x)
    (h : LosslessStep x c y) : holding y = holding x := by
  obtain ⟨hstep, hroom⟩ := h
  cases hstep with
  | alloc s live n =>
      rcases allocPages_cases hx n with hnone | ⟨base, ranges, halloc, hbase, hpos, hgiven⟩
      · simp only [hnone, if_true]
      · simp only [halloc, if_neg hbase]
        refine Prod.ext ?_ ?_
        · simp only [holding, pool, hgiven.cut.addresses]
          exact Pool.total_take (p := pool (s, live)) (b := ⟨base, n⟩) hgiven.free
        · simp only [holding, freePageCount_cons, ← hgiven.pages]
          omega
  | free s live b hb =>
      rcases freePages_cases hx hb with ⟨hfull, -⟩ | ⟨-, ranges, hfree, htaken⟩
      · exact absurd (hroom b rfl) (not_lt.2 hfull)
      · rw [hfree]
        refine Prod.ext ?_ ?_
        · simp only [holding, pool, htaken.addresses]
          exact Pool.total_give (p := pool (s, live)) hb
        · simp only [holding, htaken.pages, freePageCount_erase hb]
          omega

/-- `memory_free_pages` counts the free pages. -/
theorem TableOk.memoryFreePages_eq (h : TableOk s.freeRanges) :
    memoryFreePages s = freePageCount s.freeRanges := by
  have hfold : ∀ (ranges : List FreePageRange) (total : Nat),
      total + freePageCount ranges < 2 ^ 64 →
      ranges.foldl (fun total r => (total + r.pageCount) % 2 ^ 64) total =
        total + freePageCount ranges := by
    intro ranges
    induction ranges with
    | nil => simp
    | cons r rest ih =>
        intro total hlt
        rw [freePageCount_cons, ← Nat.add_assoc] at hlt ⊢
        rw [List.foldl_cons, Nat.mod_eq_of_lt (by omega), ih _ hlt]
  have hle := h.freePageCount_le
  have hbound : 0 + freePageCount s.freeRanges < 2 ^ 64 := by
    rw [Nat.zero_add]
    exact hle.trans_lt (by decide)
  rw [memoryFreePages, hfold _ _ hbound, Nat.zero_add]

/-- There is one table for a set of free addresses. -/
theorem TableOk.eq_of_addresses {ranges ranges' : List FreePageRange} (h : TableOk ranges)
    (h' : TableOk ranges') (heq : freeAddresses ranges = freeAddresses ranges') :
    ranges = ranges' := by
  have hbounds := h.separated.bounds_unique h'.separated heq
  apply List.map_injective_iff.2 _ hbounds
  intro a c hac
  obtain ⟨hbase, hlimit⟩ := Prod.mk.inj hac
  simp only [FreePageRange.limit] at hlimit
  rw [hbase] at hlimit
  have hcount := Nat.mul_right_cancel (by decide) (Nat.add_left_cancel hlimit)
  cases a
  cases c
  simp_all

/-- As long as no block is freed while the table is full, the free pages and the pages of the live
blocks are those that were free at first, and when no block is live the table is what it was. -/
theorem holding_of_run {calls : List Call} (hmap : DisjointConventional info.memoryMap.entries)
    (hinit : memoryInit image (some info) s₀ = (true, m₀))
    (hrun : Runs LosslessStep (m₀, []) calls (m, live)) :
    freeAddresses m.freeRanges ∪ Pool.out FreePageRange.addresses live =
        freeAddresses m₀.freeRanges ∧
      memoryFreePages m + freePageCount live = memoryFreePages m₀ ∧
      (live = [] → m.freeRanges = m₀.freeRanges) := by
  have hinv₀ := (memoryInit_initialised hmap hinit).invariant
  have hboth : Invariant (m, live) ∧ holding (m, live) = holding (m₀, []) := by
    apply hrun.invariant (I := fun x => Invariant x ∧ holding x = holding (m₀, []))
    · intro x c y ⟨hx, heq⟩ hstep
      exact ⟨hstep.1.invariant hx, (hstep.holding_eq hx).trans heq⟩
    · exact ⟨hinv₀, rfl⟩
  obtain ⟨hinv, heq⟩ := hboth
  have haddresses : freeAddresses m.freeRanges ∪ Pool.out FreePageRange.addresses live =
      freeAddresses m₀.freeRanges := by
    have htotal := congrArg Prod.fst heq
    simpa [holding, pool, Pool.total] using htotal
  refine ⟨haddresses, ?_, ?_⟩
  · rw [hinv.table.memoryFreePages_eq, hinv₀.table.memoryFreePages_eq]
    exact congrArg Prod.snd heq
  · rintro rfl
    rw [Pool.out_nil, Set.union_empty] at haddresses
    exact hinv.table.eq_of_addresses hinv₀.table haddresses

theorem holding_of_run_sample : ∃ m,
    Runs LosslessStep (sampleState sampleMap, [])
      [.alloc 1, .alloc 2, .free ⟨0x200000, 1⟩] (m, [⟨0x201000, 2⟩]) ∧
    memoryFreePages m + 2 = memoryFreePages (sampleState sampleMap) := by
  obtain ⟨hbase, hroom⟩ : (allocPages (allocPages (sampleState sampleMap) 1).2 2).1 = 0x201000 ∧
      (allocPages (allocPages (sampleState sampleMap) 1).2 2).2.freeRanges.length
        < maxFreeRanges := by decide +kernel
  have hfirst : LosslessStep _ (.alloc 1) _ := ⟨sampleMap_alloc, by simp⟩
  have hsecond : LosslessStep (_, [⟨0x200000, 1⟩]) (.alloc 2) _ :=
    ⟨.alloc_of hbase (by decide), by simp⟩
  have hfree : LosslessStep _ (.free ⟨0x200000, 1⟩) _ :=
    ⟨.free _ [⟨0x201000, 2⟩, ⟨0x200000, 1⟩] ⟨0x200000, 1⟩ (by simp), fun _ _ => hroom⟩
  have hrun := Runs.cons hfirst (.cons hsecond (.cons hfree (.nil _)))
  exact ⟨_, hrun, (holding_of_run sampleMap_disjoint sampleMap_init hrun).2.1⟩

/-- Separate runs of two pages, as many as the table has room for. -/
def fragmentedMap : List EfiMemoryDescriptor :=
  (List.range 256).map fun i => ⟨7, .ofNat (0x600000 - i * 0x3000), 2⟩

theorem fragmentedMap_entries : (sampleInfo fragmentedMap).memoryMap.entries = fragmentedMap := by
  decide +kernel

theorem fragmentedMap_disjoint : DisjointConventional fragmentedMap := by
  have hstart : ∀ i < 256, (UInt64.ofNat (0x600000 - i * 0x3000)).toNat = 0x600000 - i * 0x3000 := by
    intro i hi
    rw [UInt64.toNat_ofNat', Nat.mod_eq_of_lt (by omega)]
  apply List.pairwise_map.2
  apply List.pairwise_lt_range.imp_of_mem
  intro i j hi hj hij _ _
  simp only [EfiMemoryDescriptor.addresses, hstart i (List.mem_range.1 hi),
    hstart j (List.mem_range.1 hj)]
  rw [Set.disjoint_left]
  intro x hxi hxj
  have hi := List.mem_range.1 hi
  have hj := List.mem_range.1 hj
  have hbegin : 0x600000 - i * 0x3000 ≤ x := hxi.1
  have hend : x < 0x600000 - j * 0x3000 + 2 * 4096 := hxj.2
  omega

/-- A block allocated and freed at once. -/
theorem runs_alloc_free {n : Nat} (hbase : (allocPages s n).1 = base) (hne : base ≠ 0) :
    Runs CallStep (s, []) [.alloc n, .free ⟨base, n⟩] (freePages (allocPages s n).2 base n, []) := by
  have hfree := CallStep.free (allocPages s n).2 [⟨base, n⟩] ⟨base, n⟩ (List.mem_singleton_self _)
  rw [List.erase_cons_head] at hfree
  exact .cons (.alloc_of hbase hne) (.cons hfree (.nil _))

/-- A page that is allocated and freed while the table is full is lost. -/
theorem page_lost_of_fragmentedMap : ∃ m,
    DisjointConventional (sampleInfo fragmentedMap).memoryMap.entries ∧
    memoryInit sampleImage (some (sampleInfo fragmentedMap)) startState =
      (true, sampleState fragmentedMap) ∧
    Runs CallStep (sampleState fragmentedMap, []) [.alloc 1, .free ⟨0x303000, 1⟩] (m, []) ∧
    memoryFreePages (sampleState fragmentedMap) = 512 ∧ memoryFreePages m = 511 := by
  have heval : (memoryInit sampleImage (some (sampleInfo fragmentedMap)) startState).1 = true ∧
      (allocPages (sampleState fragmentedMap) 1).1 = 0x303000 ∧
      memoryFreePages (sampleState fragmentedMap) = 512 ∧
      memoryFreePages (freePages (allocPages (sampleState fragmentedMap) 1).2 0x303000 1) = 511 := by
    decide +kernel
  obtain ⟨hinit, hbase, hbefore, hafter⟩ := heval
  refine ⟨_, ?_, memoryInit_sample hinit, runs_alloc_free hbase (by decide), hbefore, hafter⟩
  rw [fragmentedMap_entries]
  exact fragmentedMap_disjoint

end FunnyOS.Memory
