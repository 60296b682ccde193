import FunnyOS.Memory.AddressSpace
import FunnyOS.Lib.Run

/-!
# Accessed bits and shared tables

The processor sets the Accessed bit of the entries that it walks through, in the root that is
active and not in the other. `paging_destroy_address_space` tells the kernel's entries from the
process's by comparing them whole.
-/

namespace FunnyOS.Memory

variable {s s' : Kernel} {root t c : Nat} {e e' : Entry} {i : Fin 512} {owned : List Nat}
  {rest rest' blocks : List FreePageRange} {rank : Nat → Nat} {roots : List Nat} {n k : Nat}

/-- The Accessed bit of an entry, which the source does not name. -/
abbrev accessedBit : Entry := 0x020

/-- Two entries that are the same but for the Accessed bit. -/
def SameButAccessed (e e' : Entry) : Prop := e ||| accessedBit = e' ||| accessedBit

namespace SameButAccessed

theorem refl : SameButAccessed e e := rfl

theorem mark : SameButAccessed (e ||| accessedBit) e := by
  rw [SameButAccessed, BitVec.or_assoc, BitVec.or_self]

theorem bit (h : SameButAccessed e e') {i : Nat} (hi : accessedBit.getLsbD i = false) :
    e.getLsbD i = e'.getLsbD i := by
  have hbit := congrArg (fun x => BitVec.getLsbD x i) h
  simp only [BitVec.getLsbD_or] at hbit
  rw [hi, Bool.or_false, Bool.or_false] at hbit
  exact hbit

theorem present (h : SameButAccessed e e') : e.present = e'.present := by
  rw [Entry.present_eq, Entry.present_eq, h.bit (by decide)]

theorem large (h : SameButAccessed e e') : e.large = e'.large := by
  rw [Entry.large_eq, Entry.large_eq, h.bit (by decide)]

theorem user (h : SameButAccessed e e') : e.user = e'.user := by
  rw [Entry.user_eq, Entry.user_eq, h.bit (by decide)]

theorem table (h : SameButAccessed e e') : e.table = e'.table := by
  have hmask : accessedBit &&& pageTableAddrMask = 0#64 := by decide
  have hand := congrArg (· &&& pageTableAddrMask) h
  simp only [BitVec.and_or_distrib_right] at hand
  rw [hmask, BitVec.or_zero, BitVec.or_zero] at hand
  rw [Entry.table, Entry.table, hand]

theorem child (h : SameButAccessed e e') : e.child = e'.child := by
  rw [Entry.child, Entry.child, h.present, h.large, h.table]

theorem userChild (h : SameButAccessed e e') : e.userChild = e'.userChild := by
  rw [Entry.userChild, Entry.userChild, h.user, h.child]

end SameButAccessed

/-- Some tables hold the same entries but for the Accessed bits. -/
def SimilarOn (l : List Nat) (s s' : Kernel) : Prop :=
  ∀ t ∈ l, ∀ i, SameButAccessed (s'.tables t i) (s.tables t i)

theorem userKids_similar {tables tables' : Nat → Fin 512 → Entry}
    (h : ∀ i, SameButAccessed (tables' t i) (tables t i)) :
    userKids tables' n t = userKids tables n t := by
  rw [userKids, userKids]
  split
  · rfl
  · apply List.filterMap_congr
    intro i _
    exact (h i).userChild

/-- The kernel's tables are in order whatever their Accessed bits. -/
theorem KernelOk.of_similar (h : KernelOk s owned rest rank) (s' : Kernel)
    (hpages : Invariant (s'.pages, owned.map page ++ rest')) (hpml4 : s'.pml4 = s.pml4)
    (htables : SimilarOn owned s s') : KernelOk s' owned rest' rank := by
  have hranked : ∀ t, rank t ≠ 0 → ∀ i, SameButAccessed (s'.tables t i) (s.tables t i) :=
    fun t ht => htables t (h.ranked t ht)
  constructor
  · exact hpages
  · exact h.ranked
  · intro t i c ht hc
    rw [(hranked t (by omega) i).child] at hc
    exact h.points t i c ht hc
  · intro t i ht
    rw [(hranked t (by omega) i).large]
    exact h.small t i ht
  · intro t i ht
    rw [(hranked t (by omega) i).large, (hranked t (by omega) i).present]
    exact h.whole t i ht
  · rw [hpml4]
    exact h.root
  · rw [hpml4]
    intro hne i
    have hfour := h.root hne
    rw [(hranked s.pml4 (by omega) i).present, (hranked s.pml4 (by omega) i).user]
    exact h.supervisor hne i

theorem ownTables_similar (h : SimilarOn (root :: ownTables s root) s s') :
    ownTables s' root = ownTables s root := by
  apply tablesUnder_congr
  intro k x hx
  exact userKids_similar (h x hx.mem)

/-- An address space is in order whatever the Accessed bits. -/
theorem UserSpace.of_similar (h : UserSpace SameButAccessed s root rest) (s' : Kernel)
    (hpages : Invariant (s'.pages, (root :: ownTables s root).map page ++ rest'))
    (hkernel : page s.pml4 ∈ rest') (hpml4 : s'.pml4 = s.pml4)
    (htables : SimilarOn (s.pml4 :: root :: ownTables s root) s s') :
    UserSpace SameButAccessed s' root rest' := by
  have hown : SimilarOn (root :: ownTables s root) s s' :=
    fun t ht => htables t (List.mem_cons_of_mem _ ht)
  have hsame := ownTables_similar hown
  constructor
  · rw [hsame]
    exact hpages
  · rw [hpml4]
    exact hkernel
  · intro n t ht hn hfour i
    have hback : Reaches (userKids s.tables) 4 root n t :=
      Reaches.of_congr (fun k x hx => userKids_similar (hown x hx.mem)) ht
    rw [(hown t hback.mem i).large, (hown t hback.mem i).present, (hown t hback.mem i).user]
    exact h.own n t hback hn hfour i
  · intro i hpresent
    have hroot := hown root List.mem_cons_self i
    have htop := htables s.pml4 List.mem_cons_self i
    rw [hroot.present] at hpresent
    rw [hpml4, hroot.user, hroot.large]
    rcases h.top i hpresent with hleft | ⟨huser, hagree⟩
    · exact .inl hleft
    · exact .inr ⟨huser, (hroot.trans hagree).trans htop.symm⟩

/-- The pages of an address space. -/
def spacePages (s : Kernel) (root : Nat) : List FreePageRange := (root :: ownTables s root).map page

/-- What holds of the kernel's tables and of the address spaces that there are. -/
structure SpacesOk (s : Kernel) (roots : List Nat) (blocks : List FreePageRange)
    (owned : List Nat) (rank : Nat → Nat) : Prop where
  kernel : KernelOk s owned (roots.flatMap (spacePages s) ++ blocks) rank
  spaces : ∀ r ∈ roots, ∃ rest, UserSpace SameButAccessed s r rest

/-- The blocks that are out besides those of an address space. -/
def othersPages (s : Kernel) (roots : List Nat) (blocks : List FreePageRange) (owned : List Nat)
    (root : Nat) : List FreePageRange :=
  (roots.erase root).flatMap (spacePages s) ++ (owned.map page ++ blocks)

theorem spacePages_perm (s : Kernel) (owned : List Nat) (blocks : List FreePageRange)
    (hroot : root ∈ roots) :
    (owned.map page ++ (roots.flatMap (spacePages s) ++ blocks)).Perm
      ((root :: ownTables s root).map page ++ othersPages s roots blocks owned root) := by
  have hsplit : (roots.flatMap (spacePages s)).Perm
      (spacePages s root ++ (roots.erase root).flatMap (spacePages s)) :=
    (List.perm_cons_erase hroot).flatMap_right (spacePages s)
  rw [othersPages, ← List.append_assoc, ← List.append_assoc, ← List.append_assoc]
  apply List.Perm.append_right
  exact List.perm_append_comm.trans (hsplit.append_right _)

theorem mem_spacePages (ht : t ∈ root :: ownTables s root) : page t ∈ spacePages s root :=
  List.mem_map_of_mem ht

namespace SpacesOk

theorem pml4_ne_zero (h : SpacesOk s roots blocks owned rank) (hroot : root ∈ roots) :
    s.pml4 ≠ 0 := by
  obtain ⟨rest, hspace⟩ := h.spaces root hroot
  exact hspace.pages.page_ne_zero (List.mem_append_right _ hspace.kernel)

theorem pml4_owned (h : SpacesOk s roots blocks owned rank) (hroot : root ∈ roots) :
    s.pml4 ∈ owned := by
  have hfour := h.kernel.root (h.pml4_ne_zero hroot)
  exact h.kernel.ranked _ (by omega)

/-- Each address space is in order where the others' pages are taken into account. -/
theorem space (h : SpacesOk s roots blocks owned rank) (hroot : root ∈ roots) :
    UserSpace SameButAccessed s root (othersPages s roots blocks owned root) := by
  obtain ⟨rest, hspace⟩ := h.spaces root hroot
  constructor
  · exact h.kernel.pages.perm (spacePages_perm s owned blocks hroot)
  · apply List.mem_append_right
    exact List.mem_append_left _ (List.mem_map_of_mem (h.pml4_owned hroot))
  · exact hspace.own
  · exact hspace.top

/-- What has to be shown of a step. -/
theorem transport (h : SpacesOk s roots blocks owned rank) (s' : Kernel) (roots' : List Nat)
    (hpages : Invariant (s'.pages, owned.map page ++ (roots'.flatMap (spacePages s') ++ blocks)))
    (hpml4 : s'.pml4 = s.pml4) (hkernel : SimilarOn owned s s')
    (hspaces : ∀ r ∈ roots', (∃ rest, UserSpace SameButAccessed s' r rest) ∨
      (r ∈ roots ∧ SimilarOn (r :: ownTables s r) s s')) :
    SpacesOk s' roots' blocks owned rank := by
  constructor
  · exact h.kernel.of_similar s' hpages hpml4 hkernel
  · intro r hr
    rcases hspaces r hr with hnew | ⟨hold, hsimilar⟩
    · exact hnew
    · obtain ⟨rest, hspace⟩ := h.spaces r hold
      have hsame := ownTables_similar hsimilar
      have hinv := hpages.perm (spacePages_perm s' owned blocks hr)
      rw [hsame] at hinv
      refine ⟨_, hspace.of_similar s' hinv ?_ hpml4 ?_⟩
      · apply List.mem_append_right
        exact List.mem_append_left _ (List.mem_map_of_mem (h.pml4_owned hold))
      · intro t ht
        rcases List.mem_cons.1 ht with rfl | ht
        · exact hkernel _ (h.pml4_owned hold)
        · exact hsimilar t ht

/-- A step that changes no table and gives no page. -/
theorem of_tables (h : SpacesOk s roots blocks owned rank) (s' : Kernel)
    (hpages : s'.pages = s.pages) (hpml4 : s'.pml4 = s.pml4)
    (hsimilar : ∀ t i, SameButAccessed (s'.tables t i) (s.tables t i)) :
    SpacesOk s' roots blocks owned rank := by
  have hspaces : roots.flatMap (spacePages s') = roots.flatMap (spacePages s) := by
    apply List.flatMap_congr
    intro r _
    rw [spacePages, spacePages, ownTables_similar fun t _ => hsimilar t]
  apply h.transport s' roots _ hpml4 fun t _ => hsimilar t
  · intro r hr
    exact .inr ⟨hr, fun t _ => hsimilar t⟩
  · rw [hpages, hspaces]
    exact h.kernel.pages

end SpacesOk

theorem SimilarOn.of_eq {l : List Nat} (h : ∀ t ∈ l, s'.tables t = s.tables t) :
    SimilarOn l s s' := by
  intro t ht i
  rw [h t ht]
  exact .refl

/-- Address spaces that a step leaves alone keep their pages. -/
theorem flatMap_spacePages {l : List Nat}
    (h : ∀ r ∈ l, ∀ t ∈ r :: ownTables s r, s'.tables t = s.tables t) :
    l.flatMap (spacePages s') = l.flatMap (spacePages s) := by
  apply List.flatMap_congr
  intro r hr
  rw [spacePages, spacePages, ownTables_similar (.of_eq (h r hr))]

theorem SpacesOk.create (h : SpacesOk s roots blocks owned rank) :
    SpacesOk (pagingCreateAddressSpace s).2
      (if (pagingCreateAddressSpace s).1 = 0 then roots
        else (pagingCreateAddressSpace s).1 :: roots) blocks owned rank := by
  rcases pagingCreateAddressSpace_cases h.kernel SameButAccessed fun _ => .refl with
    hnone | ⟨c, s', -, hc, hsome, hcreated⟩
  · rw [hnone]
    exact h
  · rw [hsome, if_neg hc]
    have hkernel : ∀ t ∈ owned, s'.tables t = s.tables t := fun t ht =>
      hcreated.untouched.tables t (List.mem_append_left _ (List.mem_map_of_mem ht))
    have hothers : ∀ r ∈ roots, ∀ t ∈ r :: ownTables s r, s'.tables t = s.tables t := by
      intro r hr t ht
      apply hcreated.untouched.tables t
      apply List.mem_append_right
      exact List.mem_append_left _ (List.mem_flatMap.2 ⟨r, hr, mem_spacePages ht⟩)
    apply h.transport s' (c :: roots) _ hcreated.untouched.pml4 (.of_eq hkernel)
    · intro r hr
      rcases List.mem_cons.1 hr with rfl | hr
      · exact .inl ⟨_, hcreated.space⟩
      · exact .inr ⟨hr, .of_eq (hothers r hr)⟩
    · apply hcreated.space.pages.perm
      rw [List.flatMap_cons, flatMap_spacePages hothers, List.append_assoc, ← List.append_assoc,
        ← List.append_assoc (owned.map page)]
      exact List.perm_append_comm.append_right _

theorem SpacesOk.mapUser (h : SpacesOk s roots blocks owned rank) (hroot : root ∈ roots)
    (call : UserMap) : SpacesOk (pagingMapUserRange s root call.virtStart call.physStart call.size
      call.writable call.executable).2 roots blocks owned rank := by
  obtain ⟨news, hgrown⟩ := (h.space hroot).mapUserRange call.virtStart call.physStart call.size
    call.writable call.executable
  set s' := (pagingMapUserRange s root call.virtStart call.physStart call.size
    call.writable call.executable).2
  have hkernel : ∀ t ∈ owned, s'.tables t = s.tables t := by
    intro t ht
    apply hgrown.untouched.tables t
    apply List.mem_append_right
    exact List.mem_append_left _ (List.mem_map_of_mem ht)
  have hothers : ∀ r ∈ roots.erase root, ∀ t ∈ r :: ownTables s r, s'.tables t = s.tables t := by
    intro r hr t ht
    apply hgrown.untouched.tables t
    exact List.mem_append_left _ (List.mem_flatMap.2 ⟨r, hr, mem_spacePages ht⟩)
  apply h.transport s' roots _ hgrown.untouched.pml4 (.of_eq hkernel)
  · intro r hr
    by_cases hne : r = root
    · exact .inl ⟨_, hne ▸ hgrown.space⟩
    · exact .inr ⟨hr, .of_eq (hothers r ((List.mem_erase_of_ne hne).2 hr))⟩
  · apply hgrown.space.pages.perm
    have hperm := spacePages_perm s' owned blocks hroot
    rw [othersPages, flatMap_spacePages hothers] at hperm
    exact hperm.symm

/-- Each entry of a process's root that is not its own is the kernel's, bit for bit. -/
def SharedEntriesAgree (s : Kernel) (root : Nat) : Prop :=
  ∀ i, (s.tables root i).present = true → (s.tables root i).user = false →
    s.tables root i = s.tables s.pml4 i

theorem SpacesOk.supervisor (h : SpacesOk s roots blocks owned rank) (hroot : root ∈ roots) :
    ∀ i, (s.tables s.pml4 i).present = true → (s.tables s.pml4 i).user = false :=
  h.kernel.supervisor (h.pml4_ne_zero hroot)

theorem SpacesOk.destroy_eq (h : SpacesOk s roots blocks owned rank) (hroot : root ∈ roots)
    (hagree : SharedEntriesAgree s root) :
    pagingDestroyAddressSpace s root = s.freeAll (ownTables s root ++ [root]) :=
  (h.space hroot).destroy_eq (h.supervisor hroot) hagree

theorem SpacesOk.destroy (h : SpacesOk s roots blocks owned rank) (hroot : root ∈ roots)
    (hagree : SharedEntriesAgree s root) :
    SpacesOk (pagingDestroyAddressSpace s root) (roots.erase root) blocks owned rank := by
  rw [h.destroy_eq hroot hagree]
  have hpages : Invariant (s.pages,
      (ownTables s root ++ [root]).map page ++ othersPages s roots blocks owned root) := by
    apply (h.space hroot).pages.perm
    exact ((List.perm_append_singleton _ _).symm.map page).append_right _
  obtain ⟨hafter, -⟩ := Kernel.freeAll_spec hpages
  set s' := s.freeAll (ownTables s root ++ [root]) with hs'
  have htables : ∀ t, s'.tables t = s.tables t := fun t => by rw [hs', Kernel.freeAll_tables]
  apply h.transport s' (roots.erase root) _ Kernel.freeAll_pml4 (.of_eq fun t _ => htables t)
  · intro r hr
    exact .inr ⟨List.mem_of_mem_erase hr, .of_eq fun t _ => htables t⟩
  · apply hafter.perm
    rw [flatMap_spacePages fun _ _ t _ => htables t, othersPages, ← List.append_assoc,
      ← List.append_assoc]
    exact List.perm_append_comm.append_right _

/-- What may happen once the kernel has its tables: the calls of `paging.c` that a process needs,
and an entry that the processor walks through. -/
inductive SpaceCall
  | create
  | mapUser (root : Nat) (call : UserMap)
  | activate (root : Nat)
  | accessed (table : Nat) (slot : Fin 512)
  | destroy (root : Nat)

/-- One of them; `roots` are the roots that there are. The processor walks through the tree of the
active root, which is the kernel's or that of a process. -/
inductive SpaceStep : Kernel × List Nat → SpaceCall → Kernel × List Nat → Prop
  | create (s : Kernel) (roots : List Nat) :
      SpaceStep (s, roots) .create ((pagingCreateAddressSpace s).2,
        if (pagingCreateAddressSpace s).1 = 0 then roots
        else (pagingCreateAddressSpace s).1 :: roots)
  | mapUser (s : Kernel) (roots : List Nat) (root : Nat) (call : UserMap) (h : root ∈ roots) :
      SpaceStep (s, roots) (.mapUser root call) ((pagingMapUserRange s root call.virtStart
        call.physStart call.size call.writable call.executable).2, roots)
  | activate (s : Kernel) (roots : List Nat) (root : Nat) (h : root = s.pml4 ∨ root ∈ roots) :
      SpaceStep (s, roots) (.activate root) (pagingActivateRoot s root, roots)
  | accessed (s : Kernel) (roots : List Nat) (level table : Nat) (slot : Fin 512)
      (hactive : pagingCurrentRoot s = s.pml4 ∨ pagingCurrentRoot s ∈ roots)
      (hreach : Reaches (tableKids s.tables) 4 (pagingCurrentRoot s) level table)
      (hpresent : (s.tables table slot).present = true) :
      SpaceStep (s, roots) (.accessed table slot)
        (s.setEntry table slot (s.tables table slot ||| accessedBit), roots)
  | destroy (s : Kernel) (roots : List Nat) (root : Nat) (h : root ∈ roots) :
      SpaceStep (s, roots) (.destroy root) (pagingDestroyAddressSpace s root, roots.erase root)

/-- A step in which no root is destroyed while a shared entry of it differs from the kernel's. -/
def AgreeingStep (x : Kernel × List Nat) (call : SpaceCall) (y : Kernel × List Nat) : Prop :=
  SpaceStep x call y ∧ ∀ root, call = .destroy root → SharedEntriesAgree x.1 root

theorem setEntry_mark {slot : Fin 512} (u : Nat) (i : Fin 512) :
    SameButAccessed ((s.setEntry t slot (s.tables t slot ||| accessedBit)).tables u i)
      (s.tables u i) := by
  simp only [Kernel.setEntry, Kernel.setTable]
  by_cases hu : u = t
  · subst hu
    rw [Function.update_self]
    by_cases hi : i = slot
    · subst hi
      rw [Function.update_self]
      exact .mark
    · rw [Function.update_of_ne hi]
      exact .refl
  · rw [Function.update_of_ne hu]
    exact .refl

theorem AgreeingStep.ok {x y : Kernel × List Nat} {call : SpaceCall}
    (hx : ∃ owned rank, SpacesOk x.1 x.2 blocks owned rank) (h : AgreeingStep x call y) :
    ∃ owned rank, SpacesOk y.1 y.2 blocks owned rank := by
  obtain ⟨owned, rank, hok⟩ := hx
  obtain ⟨hstep, hagree⟩ := h
  refine ⟨owned, rank, ?_⟩
  cases hstep with
  | create s roots => exact hok.create
  | mapUser s roots root call hroot => exact hok.mapUser hroot call
  | activate s roots root hroot =>
      rw [pagingActivateRoot]
      split
      · exact hok.of_tables _ rfl rfl fun _ _ => .refl
      · exact hok
  | accessed s roots level table slot => exact hok.of_tables _ rfl rfl setEntry_mark
  | destroy s roots root hroot => exact hok.destroy hroot (hagree root rfl)

theorem Booted.spacesOk (h : Booted s blocks) :
    ∃ owned rank, SpacesOk s [] blocks owned rank := by
  obtain ⟨owned, rank, hok⟩ := h.ready
  exact ⟨owned, rank, hok, fun r hr => absurd hr List.not_mem_nil⟩

/-- In every state that is reached so. -/
theorem spacesOk_of_run {calls : List SpaceCall} {y : Kernel × List Nat} (h : Booted s blocks)
    (hrun : Runs AgreeingStep (s, []) calls y) :
    ∃ owned rank, SpacesOk y.1 y.2 blocks owned rank :=
  hrun.invariant (I := fun x => ∃ owned rank, SpacesOk x.1 x.2 blocks owned rank)
    (fun _ _ _ hx hstep => hstep.ok hx) h.spacesOk

/-- A table that the kernel's root leads to is among the pages freed. -/
def FreesKernelTable (s s' : Kernel) : Prop :=
  ∃ t n room level, PageEvent.freed t n room ∈ s'.events.drop s.events.length ∧
    Reaches (tableKids s.tables) 4 s.pml4 level t

/-- Pages are given back, and nothing else happens. -/
structure OnlyFrees (s s' : Kernel) : Prop where
  tables : s'.tables = s.tables
  pml4 : s'.pml4 = s.pml4
  events : ∃ events, s'.events = s.events ++ events

namespace OnlyFrees

theorem refl : OnlyFrees s s := ⟨rfl, rfl, [], (List.append_nil _).symm⟩

theorem trans {s'' : Kernel} (h : OnlyFrees s s') (h' : OnlyFrees s' s'') : OnlyFrees s s'' := by
  obtain ⟨l, hl⟩ := h.events
  obtain ⟨l', hl'⟩ := h'.events
  exact ⟨h'.tables.trans h.tables, h'.pml4.trans h.pml4, l ++ l',
    by rw [hl', hl, List.append_assoc]⟩

theorem freePages {ptr : Nat} : OnlyFrees s (s.freePages ptr n) := ⟨rfl, rfl, _, rfl⟩

theorem foldl {slots : List (Fin 512)} {body : Kernel → Fin 512 → Kernel}
    (h : ∀ s i, OnlyFrees s (body s i)) : OnlyFrees s (slots.foldl body s) := by
  induction slots generalizing s with
  | nil => exact refl
  | cons i slots ih => exact (h s i).trans ih

theorem destroyTableTree : OnlyFrees s (destroyTableTree n s t) := by
  induction n generalizing s t with
  | zero => exact refl
  | succ level ih =>
      rw [Memory.destroyTableTree]
      split
      · exact refl
      · apply foldl
        intro s₁ i
        simp only
        split
        · exact refl
        · split
          · exact refl
          · exact ih.trans freePages

/-- What one of the steps frees is among what the loop frees. -/
theorem mem_foldl {slots : List (Fin 512)} {body : Kernel → Fin 512 → Kernel}
    (h : ∀ s i, OnlyFrees s (body s i)) (hi : i ∈ slots)
    (hevent : ∀ s₁, OnlyFrees s s₁ → ∃ events room, (body s₁ i).events = s₁.events ++ events ∧
      PageEvent.freed t 1 room ∈ events) :
    ∃ events room, (slots.foldl body s).events = s.events ++ events ∧
      PageEvent.freed t 1 room ∈ events := by
  obtain ⟨before, after, rfl⟩ := List.append_of_mem hi
  rw [List.foldl_append, List.foldl_cons]
  have hbefore : OnlyFrees s (before.foldl body s) := foldl h
  obtain ⟨events₁, hevents₁⟩ := hbefore.events
  obtain ⟨events₂, room, hevents₂, hmem⟩ := hevent _ hbefore
  have hafter : OnlyFrees (body (before.foldl body s) i)
      (after.foldl body (body (before.foldl body s) i)) := foldl h
  obtain ⟨events₃, hevents₃⟩ := hafter.events
  refine ⟨events₁ ++ events₂ ++ events₃, room, ?_, ?_⟩
  · rw [hevents₃, hevents₂, hevents₁, List.append_assoc, List.append_assoc, List.append_assoc]
  · exact List.mem_append_left _ (List.mem_append_right _ hmem)

end OnlyFrees

/-- A shared entry that differs from the kernel's leads `paging_destroy_address_space` to the
kernel's table. -/
theorem SpacesOk.frees_of_differs (h : SpacesOk s roots blocks owned rank) (hroot : root ∈ roots)
    (hdiffers : ¬ SharedEntriesAgree s root) :
    FreesKernelTable s (pagingDestroyAddressSpace s root) := by
  have hspace := h.space hroot
  simp only [SharedEntriesAgree, not_forall] at hdiffers
  obtain ⟨i, hpresent, huser, hne⟩ := hdiffers
  have hsame : SameButAccessed (s.tables root i) (s.tables s.pml4 i) := by
    rcases hspace.top i hpresent with ⟨hyes, -⟩ | ⟨-, hagree⟩
    · exact absurd (huser.symm.trans hyes) (by decide)
    · exact hagree
  have hfour := h.kernel.root (h.pml4_ne_zero hroot)
  have hlarge : (s.tables root i).large = false := by
    rw [hsame.large]
    exact h.kernel.small s.pml4 i (by omega)
  have hchild : (s.tables s.pml4 i).child = some (s.tables root i).table := by
    rw [← hsame.child]
    simp [Entry.child, hpresent, hlarge]
  have hreach : Reaches (tableKids s.tables) 4 s.pml4 3 (s.tables root i).table := by
    apply Reaches.kid
    rw [tableKids, if_neg (by decide)]
    exact List.mem_filterMap.2 ⟨i, List.mem_finRange i, hchild⟩
  have hother : root ≠ s.pml4 :=
    (hspace.pages.pages_ne_rest List.mem_cons_self hspace.kernel).symm
  set body := fun (s₁ : Kernel) (i : Fin 512) =>
    let entry := s₁.tables root i
    if !entry.present then s₁
    else if s₁.pml4 ≠ 0 ∧ entry = s₁.tables s₁.pml4 i then s₁
    else if entry.large then s₁
    else (destroyTableTree 3 s₁ entry.table).freePages entry.table 1 with hbody
  have hfrees : ∀ s₁ i, OnlyFrees s₁ (body s₁ i) := by
    intro s₁ j
    simp only [hbody]
    split
    · exact .refl
    · split
      · exact .refl
      · split
        · exact .refl
        · exact OnlyFrees.destroyTableTree.trans .freePages
  have hslot : ∀ s₁, OnlyFrees s s₁ → ∃ events room, (body s₁ i).events = s₁.events ++ events ∧
      PageEvent.freed (s.tables root i).table 1 room ∈ events := by
    intro s₁ h₁
    have hstep : body s₁ i = (destroyTableTree 3 s₁ (s.tables root i).table).freePages
        (s.tables root i).table 1 := by
      simp [hbody, h₁.tables, h₁.pml4, hpresent, hlarge, hne]
    obtain ⟨events, hevents⟩ :=
      (OnlyFrees.destroyTableTree (s := s₁) (n := 3) (t := (s.tables root i).table)).events
    obtain ⟨room, hfreed⟩ : ∃ room, (body s₁ i).events =
        (destroyTableTree 3 s₁ (s.tables root i).table).events ++
          [.freed (s.tables root i).table 1 room] := by
      rw [hstep]
      exact ⟨_, rfl⟩
    refine ⟨events ++ [.freed (s.tables root i).table 1 room], room, ?_, ?_⟩
    · rw [hfreed, hevents, List.append_assoc]
    · exact List.mem_append_right _ (List.mem_singleton.2 rfl)
  obtain ⟨events, room, hevents, hmem⟩ :=
    OnlyFrees.mem_foldl hfrees (List.mem_finRange i) hslot
  refine ⟨(s.tables root i).table, 1, room, 3, ?_, hreach⟩
  rw [pagingDestroyAddressSpace, if_neg (by simp [hspace.root_ne_zero, hother])]
  show _ ∈ (((List.finRange 512).foldl body s).events ++ [_]).drop _
  rw [hevents, List.append_assoc, List.drop_left]
  exact List.mem_append_left _ hmem

/-- What is freed one page after the other is in the list. -/
theorem Kernel.mem_freeAll {l : List Nat} {room : Bool} {events : List PageEvent}
    (h : (s.freeAll l).events = s.events ++ events) (hmem : PageEvent.freed t n room ∈ events) :
    t ∈ l := by
  induction l generalizing s events with
  | nil =>
      rw [List.self_eq_append_right.1 h] at hmem
      exact absurd hmem List.not_mem_nil
  | cons u l ih =>
      obtain ⟨later, hlater⟩ := Kernel.freeAll_events (s := s.freePages u 1) (l := l)
      have hall : ((s.freePages u 1).freeAll l).events = s.events ++ events := h
      rw [hlater, Kernel.freePages, List.append_assoc] at hall
      rw [← List.append_cancel_left hall] at hmem
      rcases List.mem_append.1 hmem with hone | hmore
      · obtain ⟨rfl, -⟩ := PageEvent.freed.inj (List.mem_singleton.1 hone)
        exact List.mem_cons_self
      · exact List.mem_cons_of_mem _ (ih hlater hmore)

theorem tableKids_level {tables : Nat → Fin 512 → Entry}
    (h : Reaches (tableKids tables) n t k c) (hn : 1 ≤ n) : 1 ≤ k := by
  induction h with
  | here => exact hn
  | down hd _ ih =>
      apply ih
      rw [tableKids] at hd
      split at hd
      · exact absurd hd List.not_mem_nil
      · omega

/-- A process's own tables are none of the kernel's. -/
theorem SpacesOk.frees_no_kernel_table (h : SpacesOk s roots blocks owned rank)
    (hroot : root ∈ roots) (hagree : SharedEntriesAgree s root) :
    ¬ FreesKernelTable s (pagingDestroyAddressSpace s root) := by
  rintro ⟨t, n, room, level, hmem, hreach⟩
  rw [h.destroy_eq hroot hagree] at hmem
  obtain ⟨events, hevents⟩ := Kernel.freeAll_events (s := s) (l := ownTables s root ++ [root])
  rw [hevents, List.drop_left] at hmem
  have hown := (List.perm_append_singleton _ _).mem_iff.1 (Kernel.mem_freeAll hevents hmem)
  have hrank := h.kernel.rank_of_reaches (h.kernel.root (h.pml4_ne_zero hroot)) hreach
  have hlevel := tableKids_level hreach (by decide)
  have hkernel : t ∈ owned := h.kernel.ranked t (by omega)
  refine h.kernel.ne_rest hkernel ?_ rfl
  exact List.mem_append_left _ (List.mem_flatMap.2 ⟨root, hroot, mem_spacePages hown⟩)

/-- A step that frees no table that the kernel's root leads to, if it destroys a root. -/
def SafeStep (x : Kernel × List Nat) (call : SpaceCall) (y : Kernel × List Nat) : Prop :=
  SpaceStep x call y ∧ ∀ root, call = .destroy root → ¬ FreesKernelTable x.1 y.1

/-- What some tables and address spaces in order are enough for. -/
def SpacesReady (blocks : List FreePageRange) (x : Kernel × List Nat) : Prop :=
  ∃ owned rank, SpacesOk x.1 x.2 blocks owned rank

/-- A step is safe just when its shared entries agree. -/
theorem SpacesReady.safe_iff {x y : Kernel × List Nat} {call : SpaceCall}
    (h : SpacesReady blocks x) : SafeStep x call y ↔ AgreeingStep x call y := by
  obtain ⟨owned, rank, hok⟩ := h
  constructor
  · rintro ⟨hstep, hsafe⟩
    refine ⟨hstep, ?_⟩
    rintro root rfl
    cases hstep with
    | destroy s roots root hroot =>
        by_contra hdiffers
        exact hsafe root rfl (hok.frees_of_differs hroot hdiffers)
  · rintro ⟨hstep, hagree⟩
    refine ⟨hstep, ?_⟩
    rintro root rfl
    cases hstep with
    | destroy s roots root hroot => exact hok.frees_no_kernel_table hroot (hagree root rfl)

/-- In a run no root that is destroyed takes a table of the kernel's with it, just when in the
state before each destroy the entries that the root shares with the kernel's are the kernel's bit
for bit. -/
theorem destroy_safe_iff {calls : List SpaceCall} {y : Kernel × List Nat} (hboot : Booted s blocks) :
    Runs SafeStep (s, []) calls y ↔ Runs AgreeingStep (s, []) calls y := by
  have hstart : SpacesReady blocks (s, []) := hboot.spacesOk
  constructor
  · intro hrun
    refine hrun.mono_of_invariant ?_ (fun x call y hx => hx.safe_iff.1) hstart
    intro x call y hx hstep
    exact (hx.safe_iff.1 hstep).ok hx
  · intro hrun
    refine hrun.mono_of_invariant ?_ (fun x call y hx => hx.safe_iff.2) hstart
    intro x call y hx hstep
    exact hstep.ok hx

/-- An address space that is destroyed as it was made. -/
theorem destroy_safe_iff_started : ∃ s y root, Booted s [] ∧ root ≠ 0 ∧
    Runs SafeStep (s, []) [.create, .destroy root] y := by
  obtain ⟨s, hstarted, hleft, -⟩ := exists_started
  obtain ⟨owned, rank, hok⟩ := hstarted.booted.ready
  obtain ⟨root, s₁, hroot, hsome, hcreated⟩ :=
    pagingCreateAddressSpace_succeeds hok hstarted.root (by omega) Eq fun _ => rfl
  have hcreate : SpaceStep (s, []) .create (s₁, [root]) := by
    have hstep := SpaceStep.create s []
    rw [hsome, if_neg hroot] at hstep
    exact hstep
  have hagree : SharedEntriesAgree s₁ root := by
    intro i hpresent huser
    rcases hcreated.space.top i hpresent with ⟨hyes, -⟩ | ⟨-, heq⟩
    · exact absurd (huser.symm.trans hyes) (by decide)
    · exact heq
  have hdestroy := SpaceStep.destroy s₁ [root] root (List.mem_singleton.2 rfl)
  have hrun : Runs AgreeingStep (s, []) [.create, .destroy root]
      (pagingDestroyAddressSpace s₁ root, [root].erase root) := by
    refine .cons ⟨hcreate, fun _ h => nomatch h⟩ (.cons ⟨hdestroy, ?_⟩ (.nil _))
    intro root' heq
    obtain rfl := SpaceCall.destroy.inj heq
    exact hagree
  exact ⟨s, _, root, hstarted.booted, hroot, (destroy_safe_iff hstarted.booted).2 hrun⟩

/-- Where a device has its registers, above everything that `paging_init` maps. -/
abbrev deviceBase : Nat := 0x20000000000

/-- A page mapped alone. -/
theorem mapRangeInRoot_device : mapRangeInRoot s s.pml4 deviceBase deviceBase 4096 true false false =
    if s.pml4 = 0 then (false, s)
    else mapPage4k s s.pml4 deviceBase deviceBase true false false := by
  have hcursors : cursors (alignDownPage deviceBase pageSize)
      (alignUpPage ((deviceBase + 4096) % 2 ^ 64) pageSize) pageSize = [deviceBase] := by
    decide +kernel
  have hphys : (alignDownPage deviceBase pageSize +
      (deviceBase - alignDownPage deviceBase pageSize)) % 2 ^ 64 = deviceBase := by decide
  rw [mapRangeInRoot]
  by_cases hzero : s.pml4 = 0
  · rw [if_pos hzero, if_pos (.inl hzero)]
  · rw [if_neg hzero, if_neg (by simp [hzero]), if_neg (by decide)]
    simp only [hcursors, whileOk, hphys]
    split
    · next hok => exact Prod.ext hok.symm rfl
    · next hok => exact Prod.ext (by simpa using hok) rfl

/-- The kernel has mapped a page of a device, and nobody has used it. -/
theorem exists_device : ∃ s, Booted s [] ∧ s.pml4 ≠ 0 ∧ 0 < s.pagesLeft ∧
    Entry.Linked (s.tables s.pml4 (pml4Index deviceBase)) := by
  obtain ⟨s, hstarted, hleft, -⟩ := exists_started
  have hready := hstarted.booted.ready
  have hprice : Affords 3 s ((mapPage4k s s.pml4 deviceBase deviceBase true false false).1 = true)
      (mapPage4k s s.pml4 deviceBase deviceBase true false false).2 :=
    mapPage4k_affords hready rfl hstarted.root
  have hdone := hprice.succeeds (by omega)
  have hpresent := mapPage4k_present hready hstarted.root hdone
  have hkept : CallKept [] s (mapPage4k s s.pml4 deviceBase deviceBase true false false) :=
    mapPage4k_kept hready rfl hstarted.root
  have htop := hkept.2.top hstarted.root (pml4Index deviceBase)
  have hpml4 := hkept.2.pml4
  have htakes := hprice.takes
  obtain ⟨image, info, s₀, m₀, tables, cr3, calls, hmap, hinit, hrun⟩ := hstarted.booted
  have hmore := hrun.trans (.cons (.mapRange s [] deviceBase deviceBase 4096 true false) (.nil _))
  have hcall : ∃ s₁, (pagingMapRange s deviceBase deviceBase 4096 true false).2 = s₁ ∧
      s₁.tables = (mapPage4k s s.pml4 deviceBase deviceBase true false false).2.tables ∧
      s₁.pages = (mapPage4k s s.pml4 deviceBase deviceBase true false false).2.pages ∧
      s₁.pml4 = (mapPage4k s s.pml4 deviceBase deviceBase true false false).2.pml4 := by
    rw [pagingMapRange, if_neg hstarted.root, mapRangeInRoot_device, if_neg hstarted.root, andThen,
      if_pos hdone]
    split
    · exact ⟨_, rfl, rfl, rfl, rfl⟩
    · exact ⟨_, rfl, rfl, rfl, rfl⟩
  obtain ⟨s₁, hs₁, htables, hpages, hroot⟩ := hcall
  rw [hs₁] at hmore
  refine ⟨s₁, ⟨image, info, s₀, m₀, tables, cr3, _, hmap, hinit, hmore⟩, ?_, ?_, ?_⟩
  · rw [hroot, hpml4]
    exact hstarted.root
  · rw [Kernel.pagesLeft, hpages]
    show 0 < Kernel.pagesLeft _
    omega
  · rw [hroot, hpml4, htables]
    rcases htop with hold | hlinked
    · rw [hold] at hpresent ⊢
      rcases hstarted.top (pml4Index deviceBase) with hzero | hlinked
      · rw [hzero] at hpresent
        exact absurd hpresent (by decide)
      · exact hlinked
    · exact hlinked

/-- The kernel maps a page of a device; a process gets an address space and uses the device first;
when the address space is destroyed, the kernel's table for the device is freed. -/
theorem destroy_frees_device_table : ∃ s calls y root, Booted s [] ∧
    Runs SpaceStep (s, []) calls y ∧ root ∈ y.2 ∧
    FreesKernelTable y.1 (pagingDestroyAddressSpace y.1 root) := by
  obtain ⟨s, hboot, hpml4, hleft, hlinked⟩ := exists_device
  obtain ⟨owned, rank, hok⟩ := hboot.ready
  obtain ⟨root, s₁, hroot, hsome, hcreated⟩ :=
    pagingCreateAddressSpace_succeeds hok hpml4 hleft Eq fun _ => rfl
  have hcreate : SpaceStep (s, []) .create (s₁, [root]) := by
    have hstep := SpaceStep.create s []
    rw [hsome, if_neg hroot] at hstep
    exact hstep
  have hmem : root ∈ [root] := List.mem_singleton.2 rfl
  have haligned := hcreated.space.root_aligned
  have hother : root ≠ s₁.pml4 :=
    (hcreated.space.pages.pages_ne_rest List.mem_cons_self hcreated.space.kernel).symm
  have hsame : s₁.tables s₁.pml4 = s.tables s.pml4 := by
    rw [hcreated.untouched.pml4]
    apply hcreated.untouched.tables
    rw [← hcreated.untouched.pml4]
    exact hcreated.space.kernel
  have hactivate : SpaceStep (s₁, [root]) (.activate root) (loadCr3 s₁ root, [root]) := by
    have hstep := SpaceStep.activate s₁ [root] root (.inr hmem)
    rw [pagingActivateRoot, haligned, if_pos hroot] at hstep
    exact hstep
  have hcurrent : pagingCurrentRoot (loadCr3 s₁ root) = root := haligned
  have hentry : (loadCr3 s₁ root).tables root (pml4Index deviceBase) =
      s.tables s.pml4 (pml4Index deviceBase) := congrFun hcreated.shared _
  set s₂ := (loadCr3 s₁ root).setEntry root (pml4Index deviceBase)
    ((loadCr3 s₁ root).tables root (pml4Index deviceBase) ||| accessedBit) with hs₂
  have haccess : SpaceStep (loadCr3 s₁ root, [root]) (.accessed root (pml4Index deviceBase))
      (s₂, [root]) := by
    refine .accessed (loadCr3 s₁ root) [root] 4 root (pml4Index deviceBase) ?_ ?_ ?_
    · rw [hcurrent]
      exact .inr hmem
    · rw [hcurrent]
      exact .here 4 root
    · rw [hentry]
      exact hlinked.present
  have hrun : Runs AgreeingStep (s, []) [.create, .activate root,
      .accessed root (pml4Index deviceBase)] (s₂, [root]) :=
    .cons ⟨hcreate, fun _ h => nomatch h⟩ (.cons ⟨hactivate, fun _ h => nomatch h⟩
      (.cons ⟨haccess, fun _ h => nomatch h⟩ (.nil _)))
  obtain ⟨owned', rank', hspaces⟩ := spacesOk_of_run hboot hrun
  refine ⟨s, _, (s₂, [root]), root, hboot, hrun.mono fun _ _ _ => And.left, hmem, ?_⟩
  apply hspaces.frees_of_differs hmem
  intro hagree
  have hmarked : s₂.tables root (pml4Index deviceBase) =
      s.tables s.pml4 (pml4Index deviceBase) ||| accessedBit := by
    rw [← hentry]
    simp only [hs₂, Kernel.setEntry, Kernel.setTable, Function.update_self]
  have hkernel : s₂.tables s₂.pml4 (pml4Index deviceBase) =
      s.tables s.pml4 (pml4Index deviceBase) := by
    have hunmarked : s₂.tables s₂.pml4 = s₁.tables s₁.pml4 := by
      simp only [hs₂, Kernel.setEntry, Kernel.setTable, loadCr3]
      exact Function.update_of_ne hother.symm _ _
    rw [hunmarked, hsame]
  have hsimilar : SameButAccessed (s₂.tables root (pml4Index deviceBase))
      (s₂.tables s₂.pml4 (pml4Index deviceBase)) := by
    rw [hmarked, hkernel]
    exact .mark
  have hequal := hagree (pml4Index deviceBase) ?_ ?_
  · rw [hmarked, hkernel] at hequal
    have hbit := congrArg (fun e => BitVec.getLsbD e 5) hequal
    simp only [BitVec.getLsbD_or] at hbit
    rw [hlinked.unused] at hbit
    exact absurd hbit (by decide)
  · rw [hsimilar.present, hkernel]
    exact hlinked.present
  · rw [hsimilar.user, hkernel]
    exact hok.supervisor hpml4 _ hlinked.present

end FunnyOS.Memory
