import FunnyOS.Memory.Hosting

/-!
# The balance of the free pages

From a kernel `start` on, the page allocator hands out blocks and gets blocks back. `Balance` says
which of them are out: the free addresses of `start` are those that are free now and those of the
blocks. A block that is freed while the table of free ranges is full is lost, so that this holds as
long as each has found room.
-/

namespace FunnyOS.Memory

variable {start s s' : Kernel} {mine mine' held : List FreePageRange} {b : FreePageRange}
  {root : Nat}

/-- Since `start` the blocks `mine` have been taken from the free pages. -/
def Balance (start s : Kernel) (mine : List FreePageRange) : Prop :=
  ∃ events, s.events = start.events ++ events ∧
    (RoomFound events → freeAddresses s.pages.freeRanges ∪ Pool.out FreePageRange.addresses mine =
      freeAddresses start.pages.freeRanges)

theorem out_perm (hperm : mine.Perm mine') :
    Pool.out FreePageRange.addresses mine = Pool.out FreePageRange.addresses mine' := by
  apply Set.ext
  intro x
  simp only [Pool.out, Set.mem_ofPred_eq, hperm.mem_iff]

theorem RoomFound.of_append {events events' : List PageEvent} (h : RoomFound (events ++ events')) :
    RoomFound events ∧ RoomFound events' :=
  ⟨fun base n hmem => h base n (List.mem_append_left _ hmem),
    fun base n hmem => h base n (List.mem_append_right _ hmem)⟩

namespace Balance

theorem refl (s : Kernel) : Balance s s [] := by
  refine ⟨[], (List.append_nil _).symm, fun _ => ?_⟩
  rw [Pool.out_nil, Set.union_empty]

theorem perm (h : Balance start s mine) (hperm : mine.Perm mine') : Balance start s mine' := by
  obtain ⟨events, hevents, hfree⟩ := h
  rw [out_perm hperm] at hfree
  exact ⟨events, hevents, hfree⟩

/-- What does not call the page allocator. -/
theorem of_same (h : Balance start s mine) (hpages : s'.pages = s.pages)
    (hevents : s'.events = s.events) : Balance start s' mine := by
  obtain ⟨events, hbefore, hfree⟩ := h
  refine ⟨events, hevents.trans hbefore, ?_⟩
  rw [hpages]
  exact hfree

/-- Blocks that go out. -/
theorem take {events : List PageEvent} (h : Balance start s mine)
    (hevents : s'.events = s.events ++ events)
    (hfree : freeAddresses s.pages.freeRanges = freeAddresses s'.pages.freeRanges ∪
      Pool.out FreePageRange.addresses mine') : Balance start s' (mine' ++ mine) := by
  obtain ⟨before, hbefore, hheld⟩ := h
  refine ⟨before ++ events, by rw [hevents, hbefore, List.append_assoc], fun hroom => ?_⟩
  rw [out_append, ← Set.union_assoc, ← hfree]
  exact hheld hroom.of_append.1

/-- Blocks that come back. -/
theorem give {events : List PageEvent} (h : Balance start s (mine' ++ mine))
    (hevents : s'.events = s.events ++ events)
    (hfree : RoomFound events → freeAddresses s'.pages.freeRanges =
      freeAddresses s.pages.freeRanges ∪ Pool.out FreePageRange.addresses mine') :
    Balance start s' mine := by
  obtain ⟨before, hbefore, hheld⟩ := h
  refine ⟨before ++ events, by rw [hevents, hbefore, List.append_assoc], fun hroom => ?_⟩
  obtain ⟨hroomBefore, hroomAfter⟩ := hroom.of_append
  rw [hfree hroomAfter, Set.union_assoc, ← out_append]
  exact hheld hroomBefore

/-- Nothing is out any more. -/
theorem free_eq {events : List PageEvent} (h : Balance start s [])
    (hevents : s.events = start.events ++ events) (hroom : RoomFound events) :
    freeAddresses s.pages.freeRanges = freeAddresses start.pages.freeRanges := by
  obtain ⟨events', hevents', hfree⟩ := h
  obtain rfl := List.append_cancel_left (hevents.symm.trans hevents')
  have hall := hfree hroom
  rwa [Pool.out_nil, Set.union_empty] at hall

end Balance

/-! ## The calls -/

/-- `alloc_pages`. -/
theorem Balance.alloc (h : Balance start s mine) (hinv : Invariant (s.pages, held)) (n : Nat) :
    Balance start (s.allocPages n).2
      ((if (s.allocPages n).1 = 0 then [] else [⟨(s.allocPages n).1, n⟩]) ++ mine) := by
  rcases allocPages_cases hinv n with hnone | ⟨base, ranges, halloc, hbase, -, hgiven⟩
  · have hcall : s.allocPages n = (0, s) := by
      rw [Kernel.allocPages, hnone]
      rfl
    rw [hcall]
    exact h
  · have hcall : s.allocPages n = (base,
        { s with
          pages := { s.pages with freeRanges := ranges }
          events := s.events ++ [.given base n] }) := by
      rw [Kernel.allocPages, halloc]
      exact if_neg hbase
    rw [hcall, if_neg hbase]
    refine h.take rfl ?_
    rw [Pool.out_cons, Pool.out_nil, Set.union_empty]
    change _ = freeAddresses ranges ∪ Set.Ico base (base + n * pageSize)
    rw [hgiven.cut.addresses]
    exact (Set.sdiff_union_of_subset hgiven.free).symm

/-- `free_pages`. -/
theorem Balance.free (h : Balance start s (b :: mine)) (hinv : Invariant (s.pages, held))
    (hb : b ∈ held) : Balance start (s.freePages b.base b.pageCount) mine := by
  have hblocks : Balance start s ([b] ++ mine) := h
  refine hblocks.give rfl fun hroom => ?_
  rcases freePages_cases hinv hb with ⟨hfull, -⟩ | ⟨-, ranges, hfree, htaken⟩
  · refine absurd ?_ (hroom b.base b.pageCount)
    rw [decide_eq_false (not_lt.2 hfull)]
    exact List.mem_singleton_self _
  · have hpages : (s.freePages b.base b.pageCount).pages = { s.pages with freeRanges := ranges } :=
      hfree
    rw [hpages, Pool.out_cons, Pool.out_nil, Set.union_empty]
    exact htaken.addresses

/-- The tables of a process as blocks, where the root 0 is none. -/
def tablesAt (s : Kernel) (root : Nat) : List FreePageRange :=
  if root = 0 then [] else (root :: ownTables s root).map page

@[simp] theorem tablesAt_zero : tablesAt s 0 = [] := if_pos rfl

theorem tablesAt_of_ne (h : root ≠ 0) : tablesAt s root = (root :: ownTables s root).map page :=
  if_neg h

/-- `paging_create_address_space`. -/
theorem Balance.create (h : Balance start s mine) (hidle : Idle s held) :
    Balance start (pagingCreateAddressSpace s).2
      (tablesAt (pagingCreateAddressSpace s).2 (pagingCreateAddressSpace s).1 ++ mine) := by
  obtain ⟨owned, rank, hok, -⟩ := hidle.tables
  rcases pagingCreateAddressSpace_cases (hok.kernelOk hidle.closed) Eq fun _ => rfl with
    hnone | ⟨root, s', -, hne, hsome, hcreated⟩
  · rw [hnone, tablesAt_zero]
    exact h
  · rw [hsome, tablesAt_of_ne hne, hcreated.own]
    refine h.take hcreated.events ?_
    rw [List.map_singleton, Pool.out_cons, Pool.out_nil, Set.union_empty]
    exact hcreated.free

/-- `paging_map_user_range` under the root of the process. -/
theorem Balance.mapUserRange (h : Balance start s (tablesAt s root ++ mine))
    (hhosting : Hosting s root held) (virtStart physStart size : Nat) (writable executable : Bool) :
    Balance start (pagingMapUserRange s root virtStart physStart size writable executable).2
      (tablesAt (pagingMapUserRange s root virtStart physStart size writable executable).2 root
        ++ mine) := by
  obtain ⟨owned, rank, -, hspace⟩ := hhosting.apart
  obtain ⟨news, hgrown⟩ := hspace.mapUserRange virtStart physStart size writable executable
  rw [tablesAt_of_ne hhosting.root_ne_zero] at h ⊢
  refine (h.take hgrown.events hgrown.free).perm ?_
  rw [← List.append_assoc, ← List.map_append]
  refine List.Perm.append_right mine (List.Perm.map page ?_)
  exact List.perm_middle.trans (hgrown.tables.symm.cons root)

/-- `paging_destroy_address_space`. -/
theorem Balance.destroy (h : Balance start s (tablesAt s root ++ mine))
    (hhosting : Hosting s root held) : Balance start (pagingDestroyAddressSpace s root) mine := by
  obtain ⟨owned, rank, -, hspace⟩ := hhosting.apart
  have hperm : (ownTables s root ++ [root]).Perm (root :: ownTables s root) :=
    List.perm_append_singleton _ _
  have hpages : Invariant (s.pages, (ownTables s root ++ [root]).map page ++
      (owned.map page ++ held)) :=
    hspace.pages.perm ((hperm.symm.map page).append_right _)
  obtain ⟨-, events, hevents, hfree⟩ := Kernel.freeAll_spec hpages
  rw [tablesAt_of_ne hhosting.root_ne_zero] at h
  rw [hhosting.destroy_eq]
  exact (h.perm ((hperm.symm.map page).append_right mine)).give hevents fun hroom => (hfree hroom).2

/-- Writes to blocks that are out. -/
theorem Balance.store {tables : Nat → Fin 512 → Entry} (h : Balance start s (tablesAt s root ++ mine))
    (hhosting : Hosting s root held)
    (htables : ∀ t, (∀ b ∈ held, t ∉ b.addresses) → tables t = s.tables t) :
    Balance start { s with tables := tables }
      (tablesAt { s with tables := tables } root ++ mine) := by
  rw [tablesAt_of_ne hhosting.root_ne_zero] at h ⊢
  rw [hhosting.ownTables_eq htables]
  exact h.of_same rfl rfl

end FunnyOS.Memory
