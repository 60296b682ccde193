import FunnyOS.Memory.PageEntries
import FunnyOS.Lib.TableTree

/-!
# The kernel's tables

Every table of the kernel's tree is a page of its own with a level, and points to tables of the
level below; no entry of the root lets user code through. `paging_init` and `paging_map_range`
keep this whatever they are asked to map and wherever they fail, and touch no page that is not
theirs.
-/

namespace FunnyOS.Memory

variable {s s' s'' : Kernel} {owned : List Nat} {rest : List FreePageRange} {rank : Nat → Nat}
  {t c parent table : Nat} {e : Entry} {index slot : Fin 512} {n : Nat}

/-- The tables that a table of a level points to. -/
def tableKids (tables : Nat → Fin 512 → Entry) (level t : Nat) : List Nat :=
  if level ≤ 1 then [] else (List.finRange 512).filterMap fun i => (tables t i).child

/-- What holds of the kernel's tables. `rank t` is the level of the table `t`, and 0 where there
is none; `owned` are the pages that the tables are made of, and `rest` the other blocks that are
out. -/
structure KernelOk (s : Kernel) (owned : List Nat) (rest : List FreePageRange)
    (rank : Nat → Nat) : Prop where
  pages : Invariant (s.pages, owned.map page ++ rest)
  ranked : ∀ t, rank t ≠ 0 → t ∈ owned
  points : ∀ t i c, 2 ≤ rank t → (s.tables t i).child = some c → rank c + 1 = rank t
  small : ∀ t i, 3 ≤ rank t → (s.tables t i).large = false
  whole : ∀ t i, rank t = 2 → (s.tables t i).large = true → (s.tables t i).present = true
  root : s.pml4 ≠ 0 → rank s.pml4 = 4
  supervisor : s.pml4 ≠ 0 → ∀ i, (s.tables s.pml4 i).present = true →
    (s.tables s.pml4 i).user = false

/-- An entry that leads on and that the processor has not used yet. -/
structure Entry.Linked (e : Entry) : Prop where
  present : e.present = true
  unused : e.getLsbD 5 = false

/-- Some tables hold what `KernelOk` asks for. -/
def KernelReady (s : Kernel) (rest : List FreePageRange) : Prop :=
  ∃ owned rank, KernelOk s owned rest rank

/-- What the functions that map pages leave alone. -/
structure Untouched (rest : List FreePageRange) (s s' : Kernel) : Prop where
  tables : ∀ t, page t ∈ rest → s'.tables t = s.tables t
  pml4 : s'.pml4 = s.pml4

theorem Untouched.refl : Untouched rest s s := ⟨fun _ _ => rfl, rfl⟩

theorem Untouched.trans (h : Untouched rest s s') (h' : Untouched rest s' s'') :
    Untouched rest s s'' :=
  ⟨fun t ht => (h'.tables t ht).trans (h.tables t ht), h'.pml4.trans h.pml4⟩

/-- The functions that build the kernel's tables write entries into the root that point to a
table, and no others. -/
structure TreeKept (rest : List FreePageRange) (s s' : Kernel) : Prop
    extends Untouched rest s s' where
  top : s.pml4 ≠ 0 → ∀ i,
    s'.tables s.pml4 i = s.tables s.pml4 i ∨ Entry.Linked (s'.tables s.pml4 i)

theorem TreeKept.refl : TreeKept rest s s := ⟨.refl, fun _ _ => .inl rfl⟩

theorem TreeKept.trans (h : TreeKept rest s s') (h' : TreeKept rest s' s'') :
    TreeKept rest s s'' := by
  constructor
  · exact h.toUntouched.trans h'.toUntouched
  · intro hne i
    have htop := h'.top (h.pml4.symm ▸ hne) i
    rw [h.pml4] at htop
    rcases htop with hsame | hlinked
    · rw [hsame]
      exact h.top hne i
    · exact .inr hlinked

/-- A state with more tables of the kernel, where those it had have kept their levels. -/
structure Extends (rest : List FreePageRange) (rank : Nat → Nat) (s s' : Kernel)
    (owned' : List Nat) (rank' : Nat → Nat) : Prop where
  ok : KernelOk s' owned' rest rank'
  keeps : ∀ t, rank t ≠ 0 → rank' t = rank t
  tree : TreeKept rest s s'

namespace KernelOk

theorem owned_ne_zero (h : KernelOk s owned rest rank) (ht : t ∈ owned) : t ≠ 0 :=
  h.pages.page_ne_zero (List.mem_append_left _ (List.mem_map_of_mem ht))

theorem ne_rest (h : KernelOk s owned rest rank) (ht : t ∈ owned) (hc : page c ∈ rest) : c ≠ t :=
  h.pages.pages_ne_rest ht hc

theorem extends_refl (h : KernelOk s owned rest rank) : Extends rest rank s s owned rank :=
  ⟨h, fun _ _ => rfl, .refl⟩

/-- An entry written that points to no table, or in a table that points to none. -/
theorem setEntry (h : KernelOk s owned rest rank) (hrank : rank t ≠ 0)
    (hleaf : rank t = 1 ∨ e.child = none ∧ e.present = true ∧ rank t = 2) :
    Extends rest rank s (s.setEntry t index e) owned rank := by
  have ht : t ∈ owned := h.ranked t hrank
  have hlow : rank t ≤ 2 := by
    rcases hleaf with hone | ⟨-, -, htwo⟩
    · omega
    · omega
  have hroot : s.pml4 ≠ 0 → s.pml4 ≠ t := by
    rintro hne rfl
    have hfour := h.root hne
    omega
  have hother : ∀ u, 3 ≤ rank u → (s.setEntry t index e).tables u = s.tables u := by
    intro u hu
    apply Function.update_of_ne
    rintro rfl
    omega
  constructor
  · constructor
    · exact h.pages
    · exact h.ranked
    · intro u i c hu hchild
      simp only [Kernel.setEntry, Kernel.setTable] at hchild
      by_cases hut : u = t
      · subst hut
        rw [Function.update_self] at hchild
        by_cases hi : i = index
        · subst hi
          rw [Function.update_self] at hchild
          rcases hleaf with hone | ⟨hnone, -, -⟩
          · omega
          · exact absurd (hnone.symm.trans hchild) (by simp)
        · rw [Function.update_of_ne hi] at hchild
          exact h.points u i c hu hchild
      · rw [Function.update_of_ne hut] at hchild
        exact h.points u i c hu hchild
    · intro u i hu
      rw [hother u hu]
      exact h.small u i hu
    · intro u i hu hlarge
      simp only [Kernel.setEntry, Kernel.setTable] at hlarge ⊢
      by_cases hut : u = t
      · subst hut
        rw [Function.update_self] at hlarge ⊢
        by_cases hi : i = index
        · subst hi
          rw [Function.update_self]
          rcases hleaf with hone | ⟨-, hpresent, -⟩
          · omega
          · exact hpresent
        · rw [Function.update_of_ne hi] at hlarge ⊢
          exact h.whole u i hu hlarge
      · rw [Function.update_of_ne hut] at hlarge ⊢
        exact h.whole u i hu hlarge
    · exact h.root
    · intro hne i
      show (Function.update s.tables t _ s.pml4 i).present = true → _
      rw [Function.update_of_ne (hroot hne)]
      intro hpresent
      show (Function.update s.tables t _ s.pml4 i).user = false
      rw [Function.update_of_ne (hroot hne)]
      exact h.supervisor hne i hpresent
  · exact fun _ _ => rfl
  · constructor
    · refine ⟨?_, rfl⟩
      intro u hu
      exact Function.update_of_ne (h.ne_rest ht hu) _ _
    · intro hne i
      have hfour := h.root hne
      rw [hother s.pml4 (by omega)]
      exact .inl rfl

/-- A fresh page that becomes a table of level `n`, which a table of the level above points to. -/
theorem link {pages : State} (h : KernelOk s owned rest rank) (index : Fin 512)
    (entries : Fin 512 → Entry)
    (hrank : rank parent = n + 1) (hn : 0 < n) (hfresh : Fresh s.pages (owned.map page ++ rest) pages c)
    (hchild : e.child = some c) (huser : n = 3 → e.user = false ∧ e.Linked)
    (hentries : 2 ≤ n → ∀ i, entries i = 0) :
    Extends rest rank s
      (((s.withTable c pages).setTable c entries).setEntry parent index e)
      (c :: owned) (Function.update rank c n) := by
  have hparent : parent ∈ owned := h.ranked parent (by omega)
  have hne : ∀ t ∈ owned, t ≠ c := fun t ht =>
    hfresh.ne (List.mem_append_left _ (List.mem_map_of_mem ht))
  have hnew : rank c = 0 := by
    by_contra hc
    exact hne c (h.ranked c hc) rfl
  have hpc := hne parent hparent
  have htables : ∀ u, u ≠ c → u ≠ parent →
      (((s.withTable c pages).setTable c entries).setEntry parent index e).tables u =
        s.tables u := by
    intro u huc hup
    simp only [Kernel.setEntry, Kernel.setTable, Kernel.withTable]
    rw [Function.update_of_ne hup, Function.update_of_ne huc, Function.update_of_ne huc]
  have hold : (((s.withTable c pages).setTable c entries).setEntry parent index e).tables parent =
      Function.update (s.tables parent) index e := by
    simp only [Kernel.setEntry, Kernel.setTable, Kernel.withTable]
    rw [Function.update_self, Function.update_of_ne hpc, Function.update_of_ne hpc]
  have hc : (((s.withTable c pages).setTable c entries).setEntry parent index e).tables c =
      entries := by
    simp only [Kernel.setEntry, Kernel.setTable, Kernel.withTable]
    rw [Function.update_of_ne (Ne.symm hpc), Function.update_self]
  have hkeeps : ∀ t, rank t ≠ 0 → Function.update rank c n t = rank t := by
    intro t ht
    exact Function.update_of_ne (hne t (h.ranked t ht)) _ _
  constructor
  · constructor
    · exact hfresh.pages
    · intro u hu
      by_cases huc : u = c
      · exact huc ▸ List.mem_cons_self
      · rw [Function.update_of_ne huc] at hu
        exact List.mem_cons_of_mem _ (h.ranked u hu)
    · intro u i d hu hd
      by_cases huc : u = c
      · subst huc
        rw [Function.update_self] at hu
        rw [hc, hentries hu, Entry.child_zero] at hd
        exact absurd hd (by simp)
      · rw [Function.update_of_ne huc] at hu ⊢
        have hpoints : ∀ d, (s.tables u i).child = some d →
            Function.update rank c n d + 1 = rank u := by
          intro d hd
          have hdrank := h.points u i d hu hd
          rw [hkeeps d (by omega), hdrank]
        by_cases hup : u = parent
        · subst hup
          rw [hold] at hd
          by_cases hi : i = index
          · subst hi
            rw [Function.update_self, hchild] at hd
            obtain rfl := Option.some.inj hd
            rw [Function.update_self, hrank]
          · rw [Function.update_of_ne hi] at hd
            exact hpoints d hd
        · rw [htables u huc hup] at hd
          exact hpoints d hd
    · intro u i hu
      by_cases huc : u = c
      · subst huc
        rw [Function.update_self] at hu
        rw [hc, hentries (by omega)]
        decide
      · rw [Function.update_of_ne huc] at hu
        by_cases hup : u = parent
        · subst hup
          rw [hold]
          by_cases hi : i = index
          · subst hi
            rw [Function.update_self]
            exact (Entry.child_eq_some hchild).2.1
          · rw [Function.update_of_ne hi]
            exact h.small u i hu
        · rw [htables u huc hup]
          exact h.small u i hu
    · intro u i hu hlarge
      by_cases huc : u = c
      · subst huc
        rw [Function.update_self] at hu
        rw [hc, hentries (by omega)] at hlarge
        exact absurd hlarge (by decide)
      · rw [Function.update_of_ne huc] at hu
        by_cases hup : u = parent
        · subst hup
          rw [hold] at hlarge ⊢
          by_cases hi : i = index
          · subst hi
            rw [Function.update_self]
            exact (Entry.child_eq_some hchild).1
          · rw [Function.update_of_ne hi] at hlarge ⊢
            exact h.whole u i hu hlarge
        · rw [htables u huc hup] at hlarge ⊢
          exact h.whole u i hu hlarge
    · intro hne
      have hfour := h.root hne
      show Function.update rank c n s.pml4 = 4
      rw [hkeeps s.pml4 (by omega), hfour]
    · intro hpml i
      have hfour := h.root hpml
      have hmem : s.pml4 ∈ owned := h.ranked _ (by omega)
      by_cases hup : s.pml4 = parent
      · show ((((s.withTable c pages).setTable c entries).setEntry parent index e).tables
          s.pml4 i).present = true → ((((s.withTable c pages).setTable c entries).setEntry parent
          index e).tables s.pml4 i).user = false
        rw [hup, hold]
        by_cases hi : i = index
        · subst hi
          rw [Function.update_self]
          intro _
          exact (huser (by rw [hup] at hfour; omega)).1
        · rw [Function.update_of_ne hi, ← hup]
          exact h.supervisor hpml i
      · show ((((s.withTable c pages).setTable c entries).setEntry parent index e).tables
          s.pml4 i).present = true → ((((s.withTable c pages).setTable c entries).setEntry parent
          index e).tables s.pml4 i).user = false
        rw [htables s.pml4 (hne _ hmem) hup]
        exact h.supervisor hpml i
  · exact hkeeps
  · constructor
    · refine ⟨?_, rfl⟩
      intro u hu
      exact htables u (hfresh.ne (List.mem_append_right _ hu)) (h.ne_rest hparent hu)
    · intro hpml i
      have hfour := h.root hpml
      have hmem : s.pml4 ∈ owned := h.ranked _ (by omega)
      by_cases hup : s.pml4 = parent
      · rw [hup, hold]
        by_cases hi : i = index
        · subst hi
          rw [Function.update_self]
          exact .inr (huser (by rw [hup] at hfour; omega)).2
        · rw [Function.update_of_ne hi]
          exact .inl rfl
      · rw [htables s.pml4 (hne _ hmem) hup]
        exact .inl rfl

end KernelOk

theorem Extends.trans {owned' owned'' : List Nat} {rank' rank'' : Nat → Nat}
    (h : Extends rest rank s s' owned' rank') (h' : Extends rest rank' s' s'' owned'' rank'') :
    Extends rest rank s s'' owned'' rank'' := by
  constructor
  · exact h'.ok
  · intro t ht
    have hkeep := h.keeps t ht
    rw [h'.keeps t (by omega), hkeep]
  · exact h.tree.trans h'.tree

theorem tableEntry_linked {before after : State} {live : List FreePageRange} {user : Bool}
    (h : Fresh before live after c) : Entry.Linked (BitVec.ofNat 64 c ||| tableFlags user) := by
  constructor
  · exact (Entry.child_eq_some (tableEntry_child h.aligned h.lt)).1
  · rw [BitVec.getLsbD_or, getLsbD_page h.aligned (by decide)]
    cases user <;> decide

/-- `get_or_create_table` for the kernel: a table of the level below, or none. -/
theorem KernelOk.getOrCreateTable (h : KernelOk s owned rest rank) (hrank : rank parent = n + 1)
    (hn : 0 < n) (index : Fin 512) : ∃ owned' rank',
      Extends rest rank s (getOrCreateTable s parent index false).2 owned' rank' ∧
      ((getOrCreateTable s parent index false).1 ≠ 0 →
        rank' (getOrCreateTable s parent index false).1 = n) := by
  have hparent := h.owned_ne_zero (h.ranked parent (by omega))
  rcases getOrCreateTable_cases h.pages hparent index false with
    hnone | ⟨c, hchild, -, hget⟩ | ⟨-, c, pages, hfresh, hget⟩
  · rw [hnone]
    exact ⟨owned, rank, h.extends_refl, fun hne => absurd rfl hne⟩
  · rw [hget]
    have hc := h.points parent index c (by omega) hchild
    refine ⟨owned, rank, h.extends_refl, fun _ => ?_⟩
    show rank c = n
    omega
  · rw [hget]
    have hchild : Entry.child (BitVec.ofNat 64 c ||| tableFlags false) = some c :=
      tableEntry_child hfresh.aligned hfresh.lt
    have hlink := h.link index (fun _ => 0) hrank hn hfresh hchild
      (fun _ => ⟨tableEntry_user hfresh.aligned hfresh.lt, tableEntry_linked hfresh⟩)
      (fun _ _ => rfl)
    have hsame : (s.withTable c pages).setTable c (fun _ => 0) = s.withTable c pages := by
      simp only [Kernel.setTable, Kernel.withTable, Function.update_idem]
    rw [hsame] at hlink
    exact ⟨_, _, hlink, fun _ => Function.update_self _ _ _⟩

theorem KernelOk.getOrCreatePd {root : Nat} (h : KernelOk s owned rest rank)
    (hroot : rank root = 4) (virt : Nat) : ∃ owned' rank',
      Extends rest rank s (getOrCreatePd s root virt false).2 owned' rank' ∧
      ((getOrCreatePd s root virt false).1 ≠ 0 →
        rank' (getOrCreatePd s root virt false).1 = 2) := by
  obtain ⟨owned₁, rank₁, hext₁, hrank₁⟩ :=
    h.getOrCreateTable hroot (by decide) (pml4Index virt)
  rcases hget : Memory.getOrCreateTable s root (pml4Index virt) false with ⟨pdpt, s₁⟩
  rw [hget] at hext₁ hrank₁
  simp only [Memory.getOrCreatePd, hget]
  split
  · exact ⟨owned₁, rank₁, hext₁, fun hne => absurd rfl hne⟩
  · next hne =>
      obtain ⟨owned₂, rank₂, hext₂, hrank₂⟩ :=
        hext₁.ok.getOrCreateTable (hrank₁ hne) (by decide) (pdptIndex virt)
      exact ⟨owned₂, rank₂, hext₁.trans hext₂, hrank₂⟩

/-- The entry that `split_large_page` puts in the place of a large page. -/
theorem splitEntry_child {before pages : State} {live : List FreePageRange}
    (h : Fresh before live pages c) :
    Entry.child (BitVec.ofNat 64 c ||| pagePresent ||| pageWritable ||| (e &&& pageUser)) = some c := by
  have hmask : (pagePresent ||| pageWritable ||| (e &&& pageUser)) &&& pageTableAddrMask = 0 := by
    have huser : pageUser &&& pageTableAddrMask = 0 := by decide
    have hlow : (pagePresent ||| pageWritable) &&& pageTableAddrMask = 0 := by decide
    rw [BitVec.and_or_distrib_right, hlow, BitVec.and_assoc, huser]
    simp
  have hpresent : (pagePresent ||| pageWritable ||| (e &&& pageUser)).getLsbD 0 = true := by
    rw [BitVec.getLsbD_or]
    rfl
  have hlarge : (pagePresent ||| pageWritable ||| (e &&& pageUser)).getLsbD 7 = false := by
    rw [BitVec.getLsbD_or, BitVec.getLsbD_and]
    have huser : pageUser.getLsbD 7 = false := by decide
    have hlow : (pagePresent ||| pageWritable).getLsbD 7 = false := by decide
    rw [huser, hlow, Bool.and_false]
    rfl
  have hentry := (tableEntry_bits h.aligned h.lt hpresent hlarge hmask).1
  rw [← BitVec.or_assoc, ← BitVec.or_assoc] at hentry
  exact hentry

/-- `split_large_page` in a table of level 2. -/
theorem KernelOk.splitLargePage (h : KernelOk s owned rest rank) (hrank : rank t = 2)
    (slot : Fin 512) :
    ∃ owned' rank', Extends rest rank s (splitLargePage s t slot).2 owned' rank' ∧
      ((s.tables t slot).large = true → (splitLargePage s t slot).1 = true →
        ∃ c, ((splitLargePage s t slot).2.tables t slot).child = some c) := by
  simp only [Memory.splitLargePage]
  split
  · next hnot =>
      refine ⟨owned, rank, h.extends_refl, ?_⟩
      intro hlarge
      have hpresent := h.whole t slot hrank hlarge
      simp [hlarge, hpresent] at hnot
  · rcases allocPageTable_cases h.pages with hnone | ⟨c, pages, hfresh, halloc⟩
    · rw [hnone]
      exact ⟨owned, rank, h.extends_refl, by simp⟩
    · rw [halloc]
      simp only [if_neg hfresh.nonzero]
      refine ⟨_, _, h.link slot _ hrank (by decide) hfresh (splitEntry_child hfresh)
        (fun hthree => absurd hthree (by decide)) (fun hle => absurd hle (by decide)), ?_⟩
      intro _ _
      refine ⟨c, ?_⟩
      simp only [Kernel.setEntry, Function.update_self, Kernel.setTable]
      exact splitEntry_child hfresh

/-- The branches of `map_page_4k` on the entry for the table of level 1. -/
theorem KernelOk.preparePt (h : KernelOk s owned rest rank) (hrank : rank t = 2)
    (slot : Fin 512) :
    ∃ owned' rank', Extends rest rank s (preparePt s t slot false).2 owned' rank' ∧
      ((preparePt s t slot false).1 = true →
        ∃ c, ((preparePt s t slot false).2.tables t slot).child = some c) := by
  simp only [Memory.preparePt]
  split
  · next hlarge =>
      obtain ⟨owned', rank', hext, hchild⟩ := h.splitLargePage hrank slot
      exact ⟨owned', rank', hext, hchild hlarge⟩
  · next hlarge =>
      split
      · rcases allocPageTable_cases h.pages with hnone | ⟨c, pages, hfresh, halloc⟩
        · rw [hnone]
          exact ⟨owned, rank, h.extends_refl, by simp⟩
        · rw [halloc]
          simp only [if_neg hfresh.nonzero]
          have hchild : Entry.child (BitVec.ofNat 64 c ||| tableFlags false) = some c :=
            tableEntry_child hfresh.aligned hfresh.lt
          have hlink := h.link slot (fun _ => 0) hrank (by decide) hfresh hchild
            (fun _ => ⟨tableEntry_user hfresh.aligned hfresh.lt, tableEntry_linked hfresh⟩)
            (fun _ _ => rfl)
          have hsame : (s.withTable c pages).setTable c (fun _ => 0) = s.withTable c pages := by
            simp only [Kernel.setTable, Kernel.withTable, Function.update_idem]
          rw [hsame] at hlink
          refine ⟨_, _, hlink, fun _ => ⟨c, ?_⟩⟩
          simp only [Kernel.setEntry, Function.update_self, Kernel.setTable]
          exact hchild
      · next hpresent =>
          refine ⟨owned, rank, h.extends_refl, fun _ => ⟨(s.tables t slot).table, ?_⟩⟩
          simp only [Bool.false_and, Bool.false_eq_true, if_false]
          simp only [Bool.not_eq_true', Bool.not_eq_false] at hpresent
          simp [Entry.child, hlarge, hpresent]

/-- A step that keeps the kernel's tables. -/
def KernelKept (rest : List FreePageRange) (s s' : Kernel) : Prop :=
  KernelReady s' rest ∧ TreeKept rest s s'

/-- A call that keeps the kernel's tables, whatever it answers. -/
def CallKept (rest : List FreePageRange) (s : Kernel) (result : Bool × Kernel) : Prop :=
  KernelKept rest s result.2

theorem Extends.kept {owned' : List Nat} {rank' : Nat → Nat}
    (h : Extends rest rank s s' owned' rank') : KernelKept rest s s' :=
  ⟨⟨owned', rank', h.ok⟩, h.tree⟩

theorem KernelKept.trans (h : KernelKept rest s s') (h' : KernelKept rest s' s'') :
    KernelKept rest s s'' :=
  ⟨h'.1, h.2.trans h'.2⟩

theorem mapPage4k_kept {root virt phys : Nat} {writable executable : Bool} (h : KernelReady s rest)
    (hroot : s.pml4 = root) (hne : root ≠ 0) :
    CallKept rest s (mapPage4k s root virt phys writable executable false) := by
  subst hroot
  obtain ⟨owned, rank, hok⟩ := h
  obtain ⟨owned₁, rank₁, hext₁, hrank₁⟩ := hok.getOrCreatePd (hok.root hne) virt
  rcases hget : getOrCreatePd s s.pml4 virt false with ⟨pd, s₁⟩
  rw [hget] at hext₁ hrank₁
  simp only [mapPage4k, hget]
  split
  · exact hext₁.kept
  · next hpd =>
      have hpd : rank₁ pd = 2 := hrank₁ hpd
      obtain ⟨owned₂, rank₂, hext₂, hchild⟩ := hext₁.ok.preparePt hpd (pdIndex virt)
      rcases hprepare : preparePt s₁ pd (pdIndex virt) false with ⟨ok, s₂⟩
      rw [hprepare] at hext₂ hchild
      simp only
      split
      · exact (hext₁.trans hext₂).kept
      · next hnot =>
          obtain ⟨c, hc⟩ := hchild (by simpa using hnot)
          have hrank : rank₂ pd = rank₁ pd := hext₂.keeps pd (by omega)
          have hpt := hext₂.ok.points pd _ c (by omega) hc
          rw [(Entry.child_eq_some hc).2.2]
          exact ((hext₁.trans hext₂).trans
            (hext₂.ok.setEntry (by omega) (.inl (by omega)))).kept

/-- An entry for a large page. -/
theorem largeEntry_bits {x flags : Entry} (hlarge : flags.getLsbD 7 = true)
    (hpresent : flags.getLsbD 0 = true) :
    Entry.child (x ||| flags) = none ∧ Entry.present (x ||| flags) = true := by
  constructor
  · apply Entry.child_of_large
    rw [Entry.large_eq, BitVec.getLsbD_or, hlarge, Bool.or_true]
  · rw [Entry.present_eq, BitVec.getLsbD_or, hpresent, Bool.or_true]

theorem mapPage2m_kept {virt phys : Nat} {writable executable : Bool} (h : KernelReady s rest)
    (hne : s.pml4 ≠ 0) :
    CallKept rest s (mapPage2m s s.pml4 virt phys writable executable false) := by
  obtain ⟨owned, rank, hok⟩ := h
  obtain ⟨owned₁, rank₁, hext₁, hrank₁⟩ := hok.getOrCreatePd (hok.root hne) virt
  rcases hget : getOrCreatePd s s.pml4 virt false with ⟨pd, s₁⟩
  rw [hget] at hext₁ hrank₁
  simp only [mapPage2m, hget]
  split
  · exact hext₁.kept
  · next hpd =>
      have hpd : rank₁ pd = 2 := hrank₁ hpd
      have hbits : Entry.child (BitVec.ofNat 64 phys ||| (if executable = true then
            pagingDefaultLeafFlags writable false ||| pagePageSize
          else pagingDefaultLeafFlags writable false ||| pagePageSize ||| pageNx)) = none ∧
          Entry.present (BitVec.ofNat 64 phys ||| (if executable = true then
            pagingDefaultLeafFlags writable false ||| pagePageSize
          else pagingDefaultLeafFlags writable false ||| pagePageSize ||| pageNx)) = true := by
        apply largeEntry_bits
        · cases executable <;> cases writable <;> decide
        · cases executable <;> cases writable <;> decide
      exact (hext₁.trans (hext₁.ok.setEntry (by omega)
        (.inr ⟨hbits.1, hbits.2, by omega⟩))).kept

/-- A loop whose body keeps the kernel's tables keeps them. -/
theorem whileOk_kept {α : Type} {body : Kernel → α → Bool × Kernel} {l : List α}
    {root : Nat}
    (hbody : ∀ s a, KernelReady s rest → s.pml4 = root → CallKept rest s (body s a))
    (h : KernelReady s rest) (hroot : s.pml4 = root) : CallKept rest s (whileOk body l s) := by
  induction l generalizing s with
  | nil => exact ⟨h, .refl⟩
  | cons a l ih =>
      have hfirst := hbody s a h hroot
      rcases hstep : body s a with ⟨ok, s₁⟩
      rw [hstep] at hfirst
      simp only [whileOk, hstep]
      split
      · exact KernelKept.trans hfirst (ih hfirst.1 (hfirst.2.pml4.trans hroot))
      · exact hfirst

theorem mapRangeInRoot_kept {virtStart physStart size : Nat} {writable executable : Bool}
    (h : KernelReady s rest) :
    CallKept rest s (mapRangeInRoot s s.pml4 virtStart physStart size writable executable false) := by
  simp only [mapRangeInRoot]
  split
  · exact ⟨h, .refl⟩
  · next hroot =>
      split
      · exact ⟨h, .refl⟩
      · apply whileOk_kept _ h rfl
        intro s₁ virt h₁ hroot₁
        exact mapPage4k_kept h₁ hroot₁ (fun hzero => hroot (.inl hzero))

theorem mapKernelChunk_kept {cursor : Nat} (h : KernelReady s rest) (hne : s.pml4 ≠ 0) :
    CallKept rest s (mapKernelChunk s cursor) := by
  obtain ⟨owned, rank, hok⟩ := h
  obtain ⟨owned₁, rank₁, hext₁, hrank₁⟩ := hok.getOrCreatePd (hok.root hne) cursor
  rcases hget : getOrCreatePd s s.pml4 cursor false with ⟨pd, s₁⟩
  rw [hget] at hext₁ hrank₁
  simp only [mapKernelChunk, hget]
  split
  · exact hext₁.kept
  · next hpd =>
      have hpd : rank₁ pd = 2 := hrank₁ hpd
      have hbits : Entry.child (BitVec.ofNat 64 cursor ||| pagePresent ||| pageWritable |||
          pagePageSize) = none ∧ Entry.present (BitVec.ofNat 64 cursor ||| pagePresent |||
          pageWritable ||| pagePageSize) = true := by
        rw [BitVec.or_assoc, BitVec.or_assoc]
        exact largeEntry_bits (by decide) (by decide)
      have hset : Extends rest rank₁ s₁ (ensureChunk s₁ pd (pdIndex cursor) cursor) owned₁ rank₁ := by
        rw [ensureChunk]
        split
        · exact hext₁.ok.setEntry (by omega) (.inr ⟨hbits.1, hbits.2, by omega⟩)
        · exact hext₁.ok.extends_refl
      split
      · obtain ⟨owned₂, rank₂, hext₂, -⟩ :=
          hset.ok.splitLargePage hpd (pdIndex cursor)
        exact ((hext₁.trans hset).trans hext₂).kept
      · exact (hext₁.trans hset).kept

/-- A call that fails ends the whole; one that succeeds is followed by the next. -/
theorem CallKept.andThen {first : Bool × Kernel} {next : Kernel → Bool × Kernel}
    (h : CallKept rest s first)
    (hnext : ∀ s₁, KernelReady s₁ rest → s₁.pml4 = s.pml4 → CallKept rest s₁ (next s₁)) :
    CallKept rest s (andThen first next) := by
  rw [Memory.andThen]
  split
  · exact KernelKept.trans h (hnext first.2 h.1 h.2.pml4)
  · exact h

theorem mapRangeIdentityKernel_kept {start stop : Nat} {writable executable : Bool}
    (h : KernelReady s rest) :
    CallKept rest s (mapRangeIdentityKernel s start stop writable executable) :=
  mapRangeInRoot_kept h

theorem mapKernelImage_kept {layout : KernelLayout} (h : KernelReady s rest) (hne : s.pml4 ≠ 0) :
    CallKept rest s (mapKernelImage layout s) := by
  rw [mapKernelImage]
  apply CallKept.andThen
  · apply whileOk_kept _ h rfl
    intro s₁ cursor h₁ hroot₁
    exact mapKernelChunk_kept h₁ (hroot₁ ▸ hne)
  · intro s₁ h₁ _
    apply CallKept.andThen (mapRangeIdentityKernel_kept h₁)
    intro s₂ h₂ _
    apply CallKept.andThen (mapRangeIdentityKernel_kept h₂)
    intro s₃ h₃ _
    split
    · exact mapRangeIdentityKernel_kept h₃
    · exact ⟨h₃, .refl⟩

theorem mapFramebuffer_kept {bootInfo : Option BootInfo} (h : KernelReady s rest) :
    CallKept rest s (mapFramebuffer bootInfo s) := by
  cases bootInfo with
  | none => exact ⟨h, .refl⟩
  | some info =>
      rw [mapFramebuffer]
      split
      · exact ⟨h, .refl⟩
      · split
        · exact ⟨h, .refl⟩
        · exact mapRangeInRoot_kept h

/-- Loading CR3 changes no table. -/
theorem CallKept.loadCr3 {root : Nat} (h : KernelReady s rest) :
    CallKept rest s (true, loadCr3 s root) := by
  obtain ⟨owned, rank, hok⟩ := h
  exact ⟨⟨owned, rank, hok.pages, hok.ranked, hok.points, hok.small, hok.whole, hok.root,
    hok.supervisor⟩, ⟨fun _ _ => rfl, rfl⟩, fun _ _ => .inl rfl⟩

theorem pagingMapRange_kept {virtStart physStart size : Nat} {writable executable : Bool}
    (h : KernelReady s rest) :
    CallKept rest s (pagingMapRange s virtStart physStart size writable executable) := by
  rw [pagingMapRange]
  split
  · exact ⟨h, .refl⟩
  · apply CallKept.andThen (mapRangeInRoot_kept h)
    intro s₁ h₁ _
    split
    · exact .loadCr3 h₁
    · exact ⟨h₁, .refl⟩

/-- A fresh root is a tree of one table. -/
theorem KernelOk.newRoot {pages : State} (h : KernelOk s owned rest rank)
    (hfresh : Fresh s.pages (owned.map page ++ rest) pages c) :
    KernelReady { s.withTable c pages with pml4 := c } rest ∧
      ∀ t, page t ∈ rest → (s.withTable c pages).tables t = s.tables t := by
  have hne : ∀ t ∈ owned, t ≠ c := fun t ht =>
    hfresh.ne (List.mem_append_left _ (List.mem_map_of_mem ht))
  have hkeeps : ∀ t, rank t ≠ 0 → Function.update rank c 4 t = rank t := by
    intro t ht
    exact Function.update_of_ne (hne t (h.ranked t ht)) _ _
  have htables : ∀ u, u ≠ c → (s.withTable c pages).tables u = s.tables u :=
    fun u hu => Function.update_of_ne hu _ _
  have hc : (s.withTable c pages).tables c = fun _ => 0 := Function.update_self _ _ _
  refine ⟨⟨c :: owned, Function.update rank c 4, ?_⟩, fun t ht =>
    htables t (hfresh.ne (List.mem_append_right _ ht))⟩
  constructor
  · exact hfresh.pages
  · intro u hu
    by_cases huc : u = c
    · exact huc ▸ List.mem_cons_self
    · rw [Function.update_of_ne huc] at hu
      exact List.mem_cons_of_mem _ (h.ranked u hu)
  · intro u i d hu hd
    by_cases huc : u = c
    · subst huc
      have hd : ((s.withTable u pages).tables u i).child = some d := hd
      rw [hc, Entry.child_zero] at hd
      exact absurd hd (by simp)
    · rw [Function.update_of_ne huc] at hu ⊢
      have hdrank := h.points u i d hu (by rw [← htables u huc]; exact hd)
      rw [hkeeps d (by omega), hdrank]
  · intro u i hu
    show ((s.withTable c pages).tables u i).large = false
    by_cases huc : u = c
    · rw [huc, hc]
      exact (by decide : Entry.large 0 = false)
    · rw [Function.update_of_ne huc] at hu
      rw [htables u huc]
      exact h.small u i hu
  · intro u i hu hlarge
    by_cases huc : u = c
    · subst huc
      rw [Function.update_self] at hu
      exact absurd hu (by decide)
    · rw [Function.update_of_ne huc] at hu
      show ((s.withTable c pages).tables u i).present = true
      have hlarge : ((s.withTable c pages).tables u i).large = true := hlarge
      rw [htables u huc] at hlarge ⊢
      exact h.whole u i hu hlarge
  · intro _
    exact Function.update_self _ _ _
  · intro _ i hpresent
    have hpresent : ((s.withTable c pages).tables c i).present = true := hpresent
    rw [hc] at hpresent
    have hzero : Entry.present 0 = true := hpresent
    exact absurd hzero (by decide)

theorem fillKernelRoot_kept (h : KernelReady s rest) (hne : s.pml4 ≠ 0) (layout : KernelLayout)
    (bootInfo : Option BootInfo) :
    CallKept rest s (fillKernelRoot layout bootInfo s) := by
  rw [fillKernelRoot]
  apply CallKept.andThen (mapRangeInRoot_kept h)
  intro s₁ h₁ hpml₁
  apply CallKept.andThen
  · apply whileOk_kept _ h₁ hpml₁
    intro s₂ cursor h₂ hpml₂
    exact mapPage2m_kept h₂ (hpml₂ ▸ hne)
  · intro s₂ h₂ hpml₂
    apply CallKept.andThen (mapKernelImage_kept h₂ (by rw [hpml₂, hpml₁]; exact hne))
    intro s₃ h₃ _
    apply CallKept.andThen (mapFramebuffer_kept h₃)
    intro s₄ h₄ _
    exact .loadCr3 h₄

theorem pagingInit_ready (h : KernelReady s rest) (layout : KernelLayout)
    (bootInfo : Option BootInfo) : KernelReady (pagingInit layout bootInfo s).2 rest ∧
      ∀ t, page t ∈ rest → (pagingInit layout bootInfo s).2.tables t = s.tables t := by
  obtain ⟨owned, rank, hok⟩ := h
  rw [pagingInit]
  rcases allocPageTable_cases hok.pages with hnone | ⟨c, pages, hfresh, halloc⟩
  · rw [hnone]
    have hnull : KernelReady { s with pml4 := 0 } rest :=
      ⟨owned, rank, hok.pages, hok.ranked, hok.points, hok.small, hok.whole,
        fun hne => absurd rfl hne, fun hne => absurd rfl hne⟩
    simp only [if_true, implies_true, and_true]
    exact hnull
  · rw [halloc]
    simp only [if_neg hfresh.nonzero]
    obtain ⟨hroot, htables⟩ := hok.newRoot hfresh
    have hkept := fillKernelRoot_kept hroot hfresh.nonzero layout bootInfo
    exact ⟨hkept.1, fun t ht => (hkept.2.tables t ht).trans (htables t ht)⟩

/-- Where the kernel's pages hold the same, the kernel's tables are the same. -/
theorem KernelOk.of_same {rest' : List FreePageRange} (h : KernelOk s owned rest rank)
    (s' : Kernel) (hpages : Invariant (s'.pages, owned.map page ++ rest'))
    (hpml4 : s'.pml4 = s.pml4) (htables : ∀ t ∈ owned, s'.tables t = s.tables t) :
    KernelOk s' owned rest' rank := by
  have hranked : ∀ t, rank t ≠ 0 → s'.tables t = s.tables t := fun t ht =>
    htables t (h.ranked t ht)
  constructor
  · exact hpages
  · exact h.ranked
  · intro t i c ht hc
    rw [hranked t (by omega)] at hc
    exact h.points t i c ht hc
  · intro t i ht
    rw [hranked t (by omega)]
    exact h.small t i ht
  · intro t i ht hlarge
    rw [hranked t (by omega)] at hlarge ⊢
    exact h.whole t i ht hlarge
  · rw [hpml4]
    exact h.root
  · intro hne i hpresent
    rw [hpml4] at hne hpresent ⊢
    have hfour := h.root hne
    rw [hranked s.pml4 (by omega)] at hpresent ⊢
    exact h.supervisor hne i hpresent

/-- A table that the kernel's root leads to has the level at which it is reached. -/
theorem KernelOk.rank_of_reaches {k : Nat} (h : KernelOk s owned rest rank) (hrank : rank t = n)
    (hreach : Reaches (tableKids s.tables) n t k c) : rank c = k := by
  induction hreach with
  | here n t => exact hrank
  | @down n k t d c hd _ ih =>
      apply ih
      rw [tableKids] at hd
      split at hd
      · exact absurd hd List.not_mem_nil
      · next hlevel =>
          obtain ⟨i, -, hi⟩ := List.mem_filterMap.1 hd
          have hpoints := h.points t i d (by omega) hi
          omega

/-- Translation reads the kernel's tables only. -/
theorem KernelOk.translateFrom_eq {tables : Nat → Fin 512 → Entry} {virt level : Nat}
    {rights : Translation} (h : KernelOk s owned rest rank) (hrank : rank t = level)
    (hsame : ∀ t ∈ owned, tables t = s.tables t) :
    translateFrom tables virt level t rights = translateFrom s.tables virt level t rights := by
  induction level generalizing t rights with
  | zero => rfl
  | succ level ih =>
      simp only [translateFrom]
      rw [hsame t (h.ranked t (by omega))]
      set e := s.tables t (Fin.ofNat 512 (virt >>> (12 + 9 * level))) with he
      split
      · rfl
      · next hpresent =>
          split
          · rfl
          · next hleaf =>
              apply ih
              simp only [Bool.or_eq_true, decide_eq_true_eq, not_or, Bool.not_eq_true] at hleaf
              have hchild : e.child = some e.table := by
                simp only [Bool.not_eq_true', Bool.not_eq_false] at hpresent
                simp [Entry.child, hpresent, hleaf.2]
              have hpoints : rank e.table + 1 = rank t := h.points t _ _ (by omega) hchild
              omega

theorem KernelOk.translate_eq {tables : Nat → Fin 512 → Entry} {virt : Nat}
    (h : KernelOk s owned rest rank) (hne : s.pml4 ≠ 0)
    (hsame : ∀ t ∈ owned, tables t = s.tables t) :
    translate tables s.pml4 virt = translate s.tables s.pml4 virt :=
  h.translateFrom_eq (h.root hne) hsame

/-- What the kernel does before a process runs. -/
inductive BootCall
  | alloc (pageCount : Nat)
  | free (b : FreePageRange)
  | write
  | init (layout : KernelLayout) (info : Option BootInfo)
  | mapRange (virtStart physStart size : Nat) (writable executable : Bool)

/-- One call. The blocks are those that others than `paging.c` have; what these pages hold is up
to those who have them. -/
inductive BootStep : Kernel × List FreePageRange → BootCall → Kernel × List FreePageRange → Prop
  | alloc (s : Kernel) (blocks : List FreePageRange) (n : Nat) :
      BootStep (s, blocks) (.alloc n) ((s.allocPages n).2,
        if (s.allocPages n).1 = 0 then blocks else ⟨(s.allocPages n).1, n⟩ :: blocks)
  | free (s : Kernel) (blocks : List FreePageRange) (b : FreePageRange) (h : b ∈ blocks) :
      BootStep (s, blocks) (.free b) (s.freePages b.base b.pageCount, blocks.erase b)
  | write (s : Kernel) (blocks : List FreePageRange) (tables : Nat → Fin 512 → Entry)
      (h : ∀ t, (∀ b ∈ blocks, t ∉ b.addresses) → tables t = s.tables t) :
      BootStep (s, blocks) .write ({ s with tables := tables }, blocks)
  | init (s : Kernel) (blocks : List FreePageRange) (layout : KernelLayout)
      (info : Option BootInfo) :
      BootStep (s, blocks) (.init layout info) ((pagingInit layout info s).2, blocks)
  | mapRange (s : Kernel) (blocks : List FreePageRange) (virtStart physStart size : Nat)
      (writable executable : Bool) :
      BootStep (s, blocks) (.mapRange virtStart physStart size writable executable)
        ((pagingMapRange s virtStart physStart size writable executable).2, blocks)

theorem Kernel.allocPages_pages (n : Nat) :
    (s.allocPages n).2.pages = (Memory.allocPages s.pages n).2 ∧
      (s.allocPages n).1 = (Memory.allocPages s.pages n).1 ∧
      (s.allocPages n).2.tables = s.tables ∧ (s.allocPages n).2.pml4 = s.pml4 := by
  simp only [Kernel.allocPages]
  split
  · next hzero => exact ⟨rfl, hzero.symm, rfl, rfl⟩
  · exact ⟨rfl, rfl, rfl, rfl⟩

theorem BootStep.ready {x y : Kernel × List FreePageRange} {call : BootCall}
    (hx : KernelReady x.1 x.2) (h : BootStep x call y) : KernelReady y.1 y.2 := by
  obtain ⟨owned, rank, hok⟩ := hx
  cases h with
  | alloc s blocks n =>
      obtain ⟨hpages, hbase, htables, hpml4⟩ := Kernel.allocPages_pages (s := s) n
      have hinv := (CallStep.alloc s.pages blocks n).invariant_append hok.pages
      rw [← hpages, ← hbase] at hinv
      exact ⟨owned, rank, hok.of_same _ hinv hpml4 fun t _ => by rw [htables]⟩
  | free s blocks b hb =>
      have hinv := (CallStep.free s.pages blocks b hb).invariant_append hok.pages
      exact ⟨owned, rank, hok.of_same (s.freePages b.base b.pageCount) hinv rfl fun _ _ => rfl⟩
  | write s blocks tables htables =>
      refine ⟨owned, rank, hok.of_same { s with tables := tables } hok.pages rfl ?_⟩
      intro t ht
      apply htables t
      intro b hb hmem
      have hblock : page t ∈ owned.map page := List.mem_map_of_mem ht
      have hapart := (List.pairwise_append.1 hok.pages.disjointed.apart).2.2 _ hblock _ hb
      have hlt := (hok.pages.blocks _ (List.mem_append_left _ hblock)).base_lt
      exact Set.disjoint_left.1 hapart ⟨le_rfl, hlt⟩ hmem
  | init s blocks layout info => exact (pagingInit_ready ⟨owned, rank, hok⟩ layout info).1
  | mapRange s blocks virtStart physStart size writable executable =>
      exact (pagingMapRange_kept ⟨owned, rank, hok⟩).1

/-- The state in which `kmain` calls `paging_init`: nothing but the page allocator is set up. -/
def Kernel.initial (pages : State) (tables : Nat → Fin 512 → Entry) (cr3 : Nat) : Kernel :=
  ⟨pages, tables, 0, cr3, []⟩

theorem Kernel.initial_ready {pages : State} (h : Invariant (pages, []))
    (tables : Nat → Fin 512 → Entry) (cr3 : Nat) : KernelReady (Kernel.initial pages tables cr3) [] := by
  refine ⟨[], fun _ => 0, ?_⟩
  constructor
  · exact h
  · exact fun t ht => absurd rfl ht
  · intro t i c ht
    exact absurd ht (by decide)
  · intro t i ht
    exact absurd ht (by decide)
  · intro t i ht
    exact absurd ht (by decide)
  · exact fun hne => absurd rfl hne
  · exact fun hne => absurd rfl hne

/-- The kernel as it is after any calls that follow a successful `memory_init`. `blocks` are the
blocks of pages that others than `paging.c` have. -/
def Booted (s : Kernel) (blocks : List FreePageRange) : Prop :=
  ∃ image info s₀ m₀ tables cr3 calls,
    DisjointConventional info.memoryMap.entries ∧
    memoryInit image (some info) s₀ = (true, m₀) ∧
    Runs BootStep (Kernel.initial m₀ tables cr3, []) calls (s, blocks)

theorem Booted.ready {blocks : List FreePageRange} (h : Booted s blocks) : KernelReady s blocks := by
  obtain ⟨image, info, s₀, m₀, tables, cr3, calls, hmap, hinit, hrun⟩ := h
  have hstart := Kernel.initial_ready (memoryInit_initialised hmap hinit).invariant tables cr3
  exact hrun.invariant (I := fun x => KernelReady x.1 x.2) (fun _ _ _ hx hstep => hstep.ready hx) hstart

end FunnyOS.Memory
