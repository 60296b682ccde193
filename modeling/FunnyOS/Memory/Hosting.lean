import FunnyOS.Memory.Roots

/-!
# A process beside the kernel

A process has a root, the tables under it and blocks of pages. `Idle` is what holds of the kernel
while there is no process, and `Hosting` what holds while there is one, whose tables are blocks
that are out for the kernel as the kernel's are for the process. From one to the other leads
`paging_create_address_space`, and back `paging_destroy_address_space`.
-/

namespace FunnyOS.Memory

variable {s s' : Kernel} {root t virt : Nat} {held held' : List FreePageRange} {owned roots : List Nat}
  {rank : Nat → Nat} {pages : State}

/-- Blocks that are apart from the pages `l` have none of their addresses. -/
theorem Invariant.page_notMem {l : List Nat} (h : Invariant (pages, l.map page ++ held)) (ht : t ∈ l) :
    ∀ b ∈ held, t ∉ b.addresses := by
  intro b hb hmem
  have hblock : page t ∈ l.map page := List.mem_map_of_mem ht
  have hapart := (List.pairwise_append.1 h.disjointed.apart).2.2 _ hblock _ hb
  have hlt := (h.blocks _ (List.mem_append_left _ hblock)).base_lt
  exact Set.disjoint_left.1 hapart ⟨le_rfl, hlt⟩ hmem

/-- No entry of the kernel's root lets user code through. -/
def Kernel.Closed (s : Kernel) : Prop :=
  s.pml4 ≠ 0 → ∀ i, (s.tables s.pml4 i).present = true → (s.tables s.pml4 i).user = false

theorem KernelReady.closed (h : KernelReady s held) : s.Closed := by
  obtain ⟨owned, rank, hok⟩ := h
  exact hok.supervisor

theorem TablesOk.kernelOk (h : TablesOk s owned held rank) (hclosed : s.Closed) :
    KernelOk s owned held rank := by
  constructor
  · exact h.pages
  · exact h.ranked
  · exact h.tree.points
  · exact fun t i ht => (h.entries t i (by omega)).small ht
  · exact fun t i ht => (h.entries t i (by omega)).whole
  · exact h.root
  · exact hclosed

/-- What is read by a translation are tables that are in order. -/
theorem TablesOk.translate_eq {tables : Nat → Fin 512 → Entry} (h : TablesOk s owned held rank)
    (hroot : rank root = 4) (htables : ∀ t ∈ owned, tables t = s.tables t) :
    translate tables root virt = translate s.tables root virt := by
  apply translateFrom_of_walk
  intro n p hp
  have hrank := h.tree.rank_of_walk (by omega) hp hroot
  left
  rw [htables p (h.ranked p (by omega))]

/-- What the blocks of others hold does not matter. -/
theorem RootsOk.translate_eq {tables : Nat → Fin 512 → Entry} (h : RootsOk s held roots)
    (hmem : root ∈ roots) (hne : root ≠ 0)
    (htables : ∀ t, (∀ b ∈ held, t ∉ b.addresses) → tables t = s.tables t) :
    translate tables root virt = translate s.tables root virt := by
  obtain ⟨owned, rank, hok, hroots⟩ := h
  exact hok.translate_eq (hroots root hmem hne) fun t ht => htables t (hok.pages.page_notMem ht)

/-- The kernel while there is no process. `held` are the blocks that others than `paging.c` have. -/
structure Idle (s : Kernel) (held : List FreePageRange) : Prop where
  closed : s.Closed
  tables : RootsOk s held []

/-- The kernel while there is a process with the root `root`. -/
structure Hosting (s : Kernel) (root : Nat) (held : List FreePageRange) : Prop where
  closed : s.Closed
  apart : ∃ owned rank, TablesOk s owned ((root :: ownTables s root).map page ++ held) rank ∧
    UserSpace Eq s root (owned.map page ++ held)
  tables : RootsOk s held [root]

namespace Idle

theorem ready (h : Idle s held) : KernelReady s held := by
  obtain ⟨owned, rank, hok, -⟩ := h.tables
  exact ⟨owned, rank, hok.kernelOk h.closed⟩

theorem initial (h : Invariant (pages, [])) (tables : Nat → Fin 512 → Entry) (cr3 : Nat) :
    Idle (Kernel.initial pages tables cr3) [] :=
  ⟨(Kernel.initial_ready h tables cr3).closed, RootsOk.initial h tables cr3⟩

theorem boot {x y : Kernel × List FreePageRange} {call : BootCall} (hx : Idle x.1 x.2)
    (h : BootStep x call y) : Idle y.1 y.2 :=
  ⟨(h.ready hx.ready).closed, h.rootsOk hx.tables⟩

/-- A call of the page allocator, or writes to the blocks that are out. -/
theorem of_same (h : Idle s held) (s' : Kernel)
    (hpages : ∀ others, Invariant (s.pages, others ++ held) → Invariant (s'.pages, others ++ held'))
    (hpml4 : s'.pml4 = s.pml4)
    (htables : ∀ t, (∀ b ∈ held, t ∉ b.addresses) → s'.tables t = s.tables t) : Idle s' held' := by
  constructor
  · obtain ⟨owned, rank, hok, -⟩ := h.tables
    intro hne
    rw [hpml4] at hne ⊢
    have hroot := hok.ranked s.pml4 (by rw [hok.root hne]; decide)
    rw [htables s.pml4 (hok.pages.page_notMem hroot)]
    exact h.closed hne
  · exact h.tables.of_same s' (fun owned => hpages (owned.map page)) (.inl hpml4) htables

end Idle

theorem pagingCreateAddressSpace_hosting (h : Idle s held) :
    pagingCreateAddressSpace s = (0, s) ∨ ∃ root s', root ≠ 0 ∧
      pagingCreateAddressSpace s = (root, s') ∧ Hosting s' root held := by
  have hroots := h.tables.pagingCreateAddressSpace
  obtain ⟨owned, rank, hok, -⟩ := h.tables
  rcases pagingCreateAddressSpace_cases (hok.kernelOk h.closed) Eq fun _ => rfl with
    hnone | ⟨root, s', hpml4, hne, hsome, hcreated⟩
  · exact .inl hnone
  · right
    rw [hsome] at hroots
    refine ⟨root, s', hne, hsome, ?_, ⟨owned, rank, ?_, hcreated.space⟩, hroots⟩
    · intro _
      rw [hcreated.untouched.pml4, hcreated.untouched.tables _ (hcreated.untouched.pml4 ▸
        hcreated.space.kernel)]
      exact h.closed hpml4
    · apply hok.of_same s' _ (.inl hcreated.untouched.pml4)
      · exact fun t ht => hcreated.untouched.tables t
          (List.mem_append_left _ (List.mem_map_of_mem ht))
      · apply hcreated.space.pages.perm
        rw [← List.append_assoc, ← List.append_assoc]
        exact List.perm_append_comm.append_right held

namespace Hosting

theorem root_ne_zero (h : Hosting s root held) : root ≠ 0 := by
  obtain ⟨owned, rank, -, hspace⟩ := h.apart
  exact hspace.root_ne_zero

theorem root_aligned (h : Hosting s root held) : alignDownPage root pageSize = root := by
  obtain ⟨owned, rank, -, hspace⟩ := h.apart
  exact hspace.root_aligned

/-- The root of the kernel is one of its tables. -/
theorem pml4_mem (hok : TablesOk s owned held rank) (hspace : UserSpace Eq s root held') :
    s.pml4 ≠ 0 ∧ s.pml4 ∈ owned := by
  have hne := hspace.pages.page_ne_zero (List.mem_append_right _ hspace.kernel)
  exact ⟨hne, hok.ranked _ (by rw [hok.root hne]; decide)⟩

/-- Writes to the blocks of others leave the tables of the process. -/
theorem tables_eq {tables : Nat → Fin 512 → Entry} (h : Hosting s root held)
    (htables : ∀ t, (∀ b ∈ held, t ∉ b.addresses) → tables t = s.tables t) :
    ∀ t ∈ root :: ownTables s root, tables t = s.tables t := by
  obtain ⟨owned, rank, -, hspace⟩ := h.apart
  have hpages : Invariant (s.pages, ((root :: ownTables s root) ++ owned).map page ++ held) := by
    rw [List.map_append, List.append_assoc]
    exact hspace.pages
  exact fun t ht => htables t (hpages.page_notMem (List.mem_append_left _ ht))

/-- Neither do they change which tables the process has. -/
theorem ownTables_eq {tables : Nat → Fin 512 → Entry} (h : Hosting s root held)
    (htables : ∀ t, (∀ b ∈ held, t ∉ b.addresses) → tables t = s.tables t) :
    ownTables { s with tables := tables } root = ownTables s root :=
  tablesUnder_congr fun _ x hx => UserSpace.userKids_congr (h.tables_eq htables x hx.mem)

/-- A call of the page allocator, or writes to the blocks that are out. -/
theorem of_same (h : Hosting s root held) (s' : Kernel)
    (hpages : ∀ others, Invariant (s.pages, others ++ held) → Invariant (s'.pages, others ++ held'))
    (hpml4 : s'.pml4 = s.pml4)
    (htables : ∀ t, (∀ b ∈ held, t ∉ b.addresses) → s'.tables t = s.tables t) :
    Hosting s' root held' := by
  obtain ⟨owned, rank, hok, hspace⟩ := h.apart
  obtain ⟨-, hmem⟩ := pml4_mem hok hspace
  have hbefore : Invariant (s.pages, ((root :: ownTables s root) ++ owned).map page ++ held) := by
    rw [List.map_append, List.append_assoc]
    exact hspace.pages
  have hafter := hpages _ hbefore
  have hkernel : ∀ t ∈ owned, s'.tables t = s.tables t :=
    fun t ht => htables t (hbefore.page_notMem (List.mem_append_right _ ht))
  have hprocess := h.tables_eq htables
  have hkids : ∀ k x, Reaches (userKids s.tables) 4 root k x →
      userKids s'.tables k x = userKids s.tables k x :=
    fun k x hx => UserSpace.userKids_congr (hprocess x hx.mem)
  have hown : ownTables s' root = ownTables s root := h.ownTables_eq htables
  rw [List.map_append] at hafter
  constructor
  · intro hne
    rw [hpml4] at hne ⊢
    rw [hkernel s.pml4 hmem]
    exact h.closed hne
  · refine ⟨owned, rank, ?_, ?_⟩
    · apply hok.of_same s' _ (.inl hpml4) hkernel
      rw [hown, ← List.append_assoc]
      exact hafter.perm (List.perm_append_comm.append_right held')
    · constructor
      · rw [hown, ← List.append_assoc]
        exact hafter
      · rw [hpml4]
        exact List.mem_append_left _ (List.mem_map_of_mem hmem)
      · intro n t ht
        have hold := Reaches.of_congr hkids ht
        rw [hprocess t hold.mem]
        exact hspace.own n t hold
      · rw [hprocess root List.mem_cons_self, hpml4, hkernel s.pml4 hmem]
        exact hspace.top
  · exact h.tables.of_same s' (fun owned => hpages (owned.map page)) (.inl hpml4) htables

/-- `paging_map_user_range` under the root of the process, whether it succeeds or not. -/
theorem mapUserRange (h : Hosting s root held) (virtStart physStart size : Nat)
    (writable executable : Bool) :
    Hosting (pagingMapUserRange s root virtStart physStart size writable executable).2 root held := by
  obtain ⟨owned, rank, hok, hspace⟩ := h.apart
  obtain ⟨-, hmem⟩ := pml4_mem hok hspace
  obtain ⟨news, hgrown⟩ := hspace.mapUserRange virtStart physStart size writable executable
  have hkernel : ∀ t ∈ owned, (pagingMapUserRange s root virtStart physStart size writable
      executable).2.tables t = s.tables t :=
    fun t ht => hgrown.untouched.tables t (List.mem_append_left _ (List.mem_map_of_mem ht))
  constructor
  · intro hne
    rw [hgrown.untouched.pml4] at hne ⊢
    rw [hkernel s.pml4 hmem]
    exact h.closed hne
  · refine ⟨owned, rank, ?_, hgrown.space⟩
    apply hok.of_same _ _ (.inl hgrown.untouched.pml4) hkernel
    apply hgrown.space.pages.perm
    rw [← List.append_assoc, ← List.append_assoc]
    exact List.perm_append_comm.append_right held
  · apply h.tables.pagingMapUserRange
    rw [h.root_aligned]
    exact List.mem_singleton_self root

/-- `paging_destroy_address_space` frees the tables of the process. -/
theorem destroy_eq (h : Hosting s root held) :
    pagingDestroyAddressSpace s root = s.freeAll (ownTables s root ++ [root]) := by
  obtain ⟨owned, rank, hok, hspace⟩ := h.apart
  obtain ⟨hne, -⟩ := pml4_mem hok hspace
  refine hspace.destroy_eq (h.closed hne) ?_
  intro i hpresent huser
  rcases hspace.top i hpresent with ⟨hyes, -⟩ | ⟨-, heq⟩
  · exact absurd (huser.symm.trans hyes) (by decide)
  · exact heq

/-- What `paging_destroy_address_space` leaves is the kernel without the process. -/
theorem destroy (h : Hosting s root held) : Idle (pagingDestroyAddressSpace s root) held := by
  rw [h.destroy_eq]
  obtain ⟨owned, rank, hok, hspace⟩ := h.apart
  obtain ⟨hne, -⟩ := pml4_mem hok hspace
  have hpages : Invariant (s.pages,
      (ownTables s root ++ [root]).map page ++ (owned.map page ++ held)) := by
    apply hspace.pages.perm
    exact ((List.perm_append_singleton _ _).symm.map page).append_right _
  obtain ⟨hafter, -⟩ := Kernel.freeAll_spec hpages
  constructor
  · intro _
    rw [Kernel.freeAll_tables, Kernel.freeAll_pml4]
    exact h.closed hne
  · refine ⟨owned, rank, ?_, fun r hr => absurd hr List.not_mem_nil⟩
    apply hok.of_same _ hafter (.inl Kernel.freeAll_pml4)
    intro t _
    rw [Kernel.freeAll_tables]

/-- Where `paging_map_user_range` succeeds each address of the range leads where it was asked, and
every other page leads where it did. -/
theorem mapUserRange_maps {virtStart physStart size : Nat} (h : Hosting s root held)
    (hmod : virtStart % pageSize = physStart % pageSize)
    (hvirt : virtStart + size ≤ 2 ^ 48 - pageSize) (hphys : physStart + size ≤ 2 ^ 51)
    (writable executable : Bool) :
    ((pagingMapUserRange s root virtStart physStart size writable executable).1 = true →
      ∀ i < size, translate (pagingMapUserRange s root virtStart physStart size writable
        executable).2.tables root (virtStart + i) =
          some ⟨physStart + i, writable, true, executable⟩) ∧
    ∀ addr, ¬ InPages virtStart size addr →
      translate (pagingMapUserRange s root virtStart physStart size writable executable).2.tables
        root addr = translate s.tables root addr := by
  obtain ⟨-, hkeeps, hmaps⟩ := h.tables.mapRangeInRoot List.mem_cons_self virtStart physStart
    size writable executable true
  rw [pagingMapUserRange, h.root_aligned, if_neg h.root_ne_zero]
  rcases hcall : mapRangeInRoot s root virtStart physStart size writable executable true with ⟨ok, s₁⟩
  rw [hcall] at hkeeps hmaps
  cases ok with
  | false => exact ⟨fun hfalse => absurd hfalse (by simp [andThen]), hkeeps hvirt⟩
  | true =>
      have hmapped := hmaps hvirt hphys hmod rfl
      by_cases hcurrent : pagingCurrentRoot s₁ = root
      · simp only [andThen, if_true, if_pos hcurrent]
        exact ⟨fun _ => hmapped, hkeeps hvirt⟩
      · simp only [andThen, if_true, if_neg hcurrent]
        exact ⟨fun _ => hmapped, hkeeps hvirt⟩

/-- What the blocks of others hold does not matter for the process. -/
theorem translate_eq {tables : Nat → Fin 512 → Entry} (h : Hosting s root held)
    (htables : ∀ t, (∀ b ∈ held, t ∉ b.addresses) → tables t = s.tables t) :
    translate tables root virt = translate s.tables root virt :=
  h.tables.translate_eq List.mem_cons_self h.root_ne_zero htables

end Hosting

end FunnyOS.Memory
