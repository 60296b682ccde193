import FunnyOS.Memory.KernelTables
import FunnyOS.Memory.Walks

/-!
# The tables of every root

The kernel's root and the roots of the processes share tables. What holds of all of them together,
and what the functions do to it that map a page under one root: tables are linked and large pages
split without a change to any translation, and one entry is written in the end.
-/

namespace FunnyOS.Memory

variable {s s' s'' : Kernel} {owned owned' owned'' : List Nat} {rest : List FreePageRange}
  {rank rank' rank'' : Nat → Nat} {t c p parent root pd n : Nat} {e : Entry} {index slot : Fin 512}
  {user : Bool} {kept kept' : Set Nat}

/-- What an entry of a table of rank `n` is, from rank 2 on. -/
structure Entry.Fits (n : Nat) (e : Entry) : Prop where
  leads : ∀ c, e.child = some c → e.Open
  small : 3 ≤ n → e.large = false
  whole : e.large = true → e.present = true

/-- What holds of the tables. `rank t` is the level of the table `t`, and 0 where there is none;
`owned` are the pages that the tables are made of, and `rest` the other blocks that are out. No
large page is where user code may come. -/
structure TablesOk (s : Kernel) (owned : List Nat) (rest : List FreePageRange)
    (rank : Nat → Nat) : Prop where
  pages : Invariant (s.pages, owned.map page ++ rest)
  ranked : ∀ t, rank t ≠ 0 → t ∈ owned
  tree : SharedTree Entry.child s.tables rank 4
  entries : ∀ t i, 2 ≤ rank t → (s.tables t i).Fits (rank t)
  guarded : ∀ r i u j d k, rank r = 4 → (s.tables r i).user = true →
    (s.tables r i).child = some u → (s.tables u j).child = some d → (s.tables d k).large = false
  root : s.pml4 ≠ 0 → rank s.pml4 = 4

theorem Entry.fits_zero (n : Nat) : Entry.Fits n 0 := by
  constructor
  · intro c hc
    rw [Entry.child_zero] at hc
    exact absurd hc (by simp)
  · intro _
    decide
  · intro hlarge
    exact absurd hlarge (by decide)

theorem Kernel.setEntry_self (s : Kernel) (t : Nat) (index : Fin 512) (e : Entry) :
    (s.setEntry t index e).tables t index = e := by
  simp only [Kernel.setEntry, Kernel.setTable, Function.update_self]

theorem Kernel.setEntry_other (s : Kernel) (e : Entry) {u : Nat} {j : Fin 512}
    (h : (u, j) ≠ (t, index)) : (s.setEntry t index e).tables u j = s.tables u j := by
  simp only [Kernel.setEntry, Kernel.setTable]
  by_cases hut : u = t
  · subst hut
    have hj : j ≠ index := fun heq => h (by rw [heq])
    rw [Function.update_self, Function.update_of_ne hj]
  · rw [Function.update_of_ne hut]

/-- The state after a fresh page has become a table, which an entry of `parent` points to. -/
def Kernel.linkTable (s : Kernel) (c : Nat) (pages : State) (entries : Fin 512 → Entry)
    (parent : Nat) (index : Fin 512) (e : Entry) : Kernel :=
  ((s.withTable c pages).setTable c entries).setEntry parent index e

theorem Kernel.linkTable_zero (s : Kernel) (c : Nat) (pages : State) (parent : Nat)
    (index : Fin 512) (e : Entry) :
    s.linkTable c pages (fun _ => 0) parent index e =
      (s.withTable c pages).setEntry parent index e := by
  simp only [Kernel.linkTable, Kernel.setTable, Kernel.withTable, Function.update_idem]

theorem Kernel.linkTable_entry (s : Kernel) (pages : State) (entries : Fin 512 → Entry) :
    (s.linkTable c pages entries parent index e).tables parent index = e :=
  Kernel.setEntry_self _ _ _ _

theorem Kernel.linkTable_new (s : Kernel) (pages : State) (entries : Fin 512 → Entry)
    (hne : parent ≠ c) (j : Fin 512) :
    (s.linkTable c pages entries parent index e).tables c j = entries j := by
  have hslot : (c, j) ≠ (parent, index) := fun heq => hne (Prod.mk.inj heq).1.symm
  rw [Kernel.linkTable, Kernel.setEntry_other _ _ hslot]
  simp only [Kernel.setTable, Function.update_self]

theorem Kernel.linkTable_other (s : Kernel) (pages : State) (entries : Fin 512 → Entry) :
    ∀ u j, u ≠ c → (u, j) ≠ (parent, index) →
      (s.linkTable c pages entries parent index e).tables u j = s.tables u j := by
  intro u j hu hslot
  rw [Kernel.linkTable, Kernel.setEntry_other _ _ hslot]
  simp only [Kernel.setTable, Kernel.withTable]
  rw [Function.update_of_ne hu, Function.update_of_ne hu]

namespace TablesOk

theorem owned_ne_zero (h : TablesOk s owned rest rank) (ht : rank t ≠ 0) : t ≠ 0 :=
  h.pages.page_ne_zero (List.mem_append_left _ (List.mem_map_of_mem (h.ranked t ht)))

theorem fresh_rank {pages : State} (h : TablesOk s owned rest rank)
    (hfresh : Fresh s.pages (owned.map page ++ rest) pages c) : rank c = 0 := by
  by_contra hc
  exact hfresh.ne (List.mem_append_left _ (List.mem_map_of_mem (h.ranked c hc))) rfl

/-- An entry written in a table of level 1, or one that points to no table in a table of level 2.
There it is for a large page only where user code may not come. -/
theorem setEntry (h : TablesOk s owned rest rank) (hrank : rank t ≠ 0)
    (hleaf : rank t = 1 ∨ rank t = 2 ∧ e.child = none ∧ e.present = true ∧
      ∀ r i u j, rank r = 4 → (s.tables r i).child = some u → (s.tables u j).child = some t →
        (s.tables r i).user = false) :
    TablesOk (s.setEntry t index e) owned rest rank := by
  -- only the entry that was written differs, and it points to nothing
  have hcut : ∀ u j d, 2 ≤ rank u → ((s.setEntry t index e).tables u j).child = some d →
      (s.setEntry t index e).tables u j = s.tables u j := by
    intro u j d hu hd
    by_cases hslot : (u, j) = (t, index)
    · obtain ⟨rfl, rfl⟩ := Prod.mk.inj hslot
      rw [Kernel.setEntry_self] at hd
      rcases hleaf with hone | ⟨-, hnone, -, -⟩
      · omega
      · exact absurd (hnone.symm.trans hd) (by simp)
    · exact Kernel.setEntry_other _ _ hslot
  constructor
  · exact h.pages
  · exact h.ranked
  · exact h.tree.cut hcut
  · intro u j hu
    by_cases hslot : (u, j) = (t, index)
    · obtain ⟨rfl, rfl⟩ := Prod.mk.inj hslot
      rw [Kernel.setEntry_self]
      rcases hleaf with hone | ⟨htwo, hnone, hpresent, -⟩
      · omega
      · constructor
        · intro c hc
          exact absurd (hnone.symm.trans hc) (by simp)
        · intro hthree
          omega
        · exact fun _ => hpresent
    · rw [Kernel.setEntry_other _ _ hslot]
      exact h.entries u j hu
  · intro r i u j d k hr huser hu hd
    have hru := hcut r i u (by omega) hu
    rw [hru] at huser hu
    have hrank' := h.tree.points r i u (by omega) hu
    have hud := hcut u j d (by omega) hd
    rw [hud] at hd
    by_cases hslot : (d, k) = (t, index)
    · obtain ⟨rfl, rfl⟩ := Prod.mk.inj hslot
      have hpoints := h.tree.points u j d (by omega) hd
      rcases hleaf with hone | ⟨-, -, -, hguard⟩
      · omega
      · exact absurd (huser.symm.trans (hguard r i u j hr hu hd)) (by simp)
    · rw [Kernel.setEntry_other _ _ hslot]
      exact h.guarded r i u j d k hr huser hu hd
  · exact h.root

/-- A fresh page that becomes a table of level `n`, which a table of the level above points to. -/
theorem link {pages : State} {entries : Fin 512 → Entry} (h : TablesOk s owned rest rank)
    (hrank : rank parent = n + 1) (hn : 0 < n)
    (hfresh : Fresh s.pages (owned.map page ++ rest) pages c) (hchild : e.child = some c)
    (hopen : e.Open) (hentries : 2 ≤ n → ∀ i, entries i = 0) :
    TablesOk (s.linkTable c pages entries parent index e) (c :: owned) rest
      (Function.update rank c n) := by
  have hc := h.fresh_rank hfresh
  have hpc : parent ≠ c := by
    rintro rfl
    omega
  have hkeeps : ∀ t, rank t ≠ 0 → Function.update rank c n t = rank t := by
    intro t ht
    apply Function.update_of_ne
    rintro rfl
    exact ht hc
  have hempty : 2 ≤ n → ∀ j, ((s.linkTable c pages entries parent index e).tables c j).child = none := by
    intro htwo j
    rw [Kernel.linkTable_new s pages entries hpc, hentries htwo, Entry.child_zero]
  have hnew : ((s.linkTable c pages entries parent index e).tables parent index).child = some c := by
    rw [Kernel.linkTable_entry, hchild]
  have hsame : ∀ u j, u ≠ c → (u, j) ≠ (parent, index) →
      (s.linkTable c pages entries parent index e).tables u j = s.tables u j :=
    Kernel.linkTable_other s pages entries
  constructor
  · exact hfresh.pages
  · intro u hu
    by_cases huc : u = c
    · exact huc ▸ List.mem_cons_self
    · rw [Function.update_of_ne huc] at hu
      exact List.mem_cons_of_mem _ (h.ranked u hu)
  · exact h.tree.link hrank hc hnew hsame hempty
  · intro u j hu
    by_cases huc : u = c
    · subst huc
      rw [Function.update_self] at hu
      rw [Kernel.linkTable_new s pages entries hpc, hentries hu]
      exact Entry.fits_zero _
    · rw [Function.update_of_ne huc] at hu ⊢
      by_cases hslot : (u, j) = (parent, index)
      · obtain ⟨rfl, rfl⟩ := Prod.mk.inj hslot
        rw [Kernel.linkTable_entry]
        obtain ⟨-, hlarge, -⟩ := Entry.child_eq_some hchild
        constructor
        · exact fun _ _ => hopen
        · exact fun _ => hlarge
        · intro hyes
          rw [hlarge] at hyes
          exact absurd hyes (by simp)
      · rw [hsame u j huc hslot]
        exact h.entries u j hu
  · intro r i u j d k hr huser hu hd
    rcases h.tree.link_cases hc hsame hempty (by omega) hu with hslot | ⟨hold, hu, hr2, hrc, huc⟩
    · obtain ⟨rfl, rfl⟩ := Prod.mk.inj hslot
      obtain rfl := Option.some.inj (hnew.symm.trans hu)
      rw [hkeeps r (by omega)] at hr
      rw [hempty (by omega)] at hd
      exact absurd hd (by simp)
    · rw [hold] at huser
      rw [Function.update_of_ne hrc] at hr
      have hurank := h.tree.points r i u (by omega) hu
      have hu2 : 2 ≤ Function.update rank c n u := by
        rw [hkeeps u (by omega)]
        omega
      rcases h.tree.link_cases hc hsame hempty hu2 hd with hslot | ⟨-, hd, -, -, hdc⟩
      · obtain ⟨rfl, rfl⟩ := Prod.mk.inj hslot
        obtain rfl := Option.some.inj (hnew.symm.trans hd)
        rw [Kernel.linkTable_new s pages entries hpc, hentries (by omega)]
        decide
      · by_cases hslot : (d, k) = (parent, index)
        · obtain ⟨rfl, rfl⟩ := Prod.mk.inj hslot
          rw [Kernel.linkTable_entry]
          exact (Entry.child_eq_some hchild).2.1
        · rw [hsame d k hdc hslot]
          exact h.guarded r i u j d k hr huser hu hd
  · intro hne
    have hfour := h.root hne
    show Function.update rank c n s.pml4 = 4
    rw [hkeeps s.pml4 (by omega), hfour]

end TablesOk

/-- A state with more tables, made for the root `root`: entries that led on above level 2 do so as
they did, and the addresses in `kept` translate as they did. -/
structure Grows (root : Nat) (user : Bool) (kept : Set Nat) (rest : List FreePageRange)
    (rank : Nat → Nat) (s s' : Kernel) (owned' : List Nat) (rank' : Nat → Nat) : Prop where
  ok : TablesOk s' owned' rest rank'
  keeps : ∀ t, rank t ≠ 0 → rank' t = rank t
  pml4 : s'.pml4 = s.pml4
  links : ∀ t i c, 3 ≤ rank t → (s.tables t i).child = some c → s'.tables t i = s.tables t i
  top : ∀ i, s'.tables root i = s.tables root i ∨ (s'.tables root i).user = user
  walks : ∀ virt ∈ kept, translate s'.tables root virt = translate s.tables root virt

namespace Grows

theorem refl (h : TablesOk s owned rest rank) : Grows root user kept rest rank s s owned rank := by
  constructor
  · exact h
  · exact fun _ _ => rfl
  · rfl
  · exact fun _ _ _ _ _ => rfl
  · exact fun _ => .inl rfl
  · exact fun _ _ => rfl

theorem trans (h : Grows root user kept rest rank s s' owned' rank')
    (h' : Grows root user kept rest rank' s' s'' owned'' rank'') :
    Grows root user kept rest rank s s'' owned'' rank'' := by
  constructor
  · exact h'.ok
  · intro t ht
    have hkeep := h.keeps t ht
    rw [h'.keeps t (by omega), hkeep]
  · exact h'.pml4.trans h.pml4
  · intro t i c ht hc
    have hkeep := h.keeps t (by omega)
    have hsame := h.links t i c ht hc
    rw [← hsame] at hc ⊢
    exact h'.links t i c (by omega) hc
  · intro i
    rcases h'.top i with hsame | huser
    · rw [hsame]
      exact h.top i
    · exact .inr huser
  · intro virt hvirt
    rw [h'.walks virt hvirt, h.walks virt hvirt]

theorem mono (h : Grows root user kept rest rank s s' owned' rank') (hsub : kept' ⊆ kept) :
    Grows root user kept' rest rank s s' owned' rank' :=
  ⟨h.ok, h.keeps, h.pml4, h.links, h.top, fun virt hvirt => h.walks virt (hsub hvirt)⟩

end Grows

/-- The table `pd` is where an address comes at level 2, by way of `pdpt`; user code may come there
where that was asked. -/
structure PdAt (tables : Nat → Fin 512 → Entry) (root virt : Nat) (user : Bool) (pdpt pd : Nat) :
    Prop where
  first : (tables root (pml4Index virt)).child = some pdpt
  second : (tables pdpt (pdptIndex virt)).child = some pd
  firstUser : user = true → (tables root (pml4Index virt)).user = true
  secondUser : user = true → (tables pdpt (pdptIndex virt)).user = true

/-- The entry that `split_large_page` puts in the place of the large page `e`. -/
def splitParent (c : Nat) (e : Entry) : Entry :=
  BitVec.ofNat 64 c ||| pagePresent ||| pageWritable |||
    (e &&& (pagePresent ||| pageWritable ||| pageNx ||| pageUser) &&& pageUser)

theorem splitParent_open (hlt : c < 2 ^ 32) : Entry.Open (splitParent c e) := by
  constructor
  · rw [splitParent, BitVec.getLsbD_or, BitVec.getLsbD_or]
    simp
  · have hhigh : (BitVec.ofNat 64 c).getLsbD 63 = false := getLsbD_page_high hlt (by decide)
    simp only [splitParent, BitVec.getLsbD_or, BitVec.getLsbD_and, hhigh]
    simp

theorem splitParent_user (hpage : c % pageSize = 0) :
    Entry.user (splitParent c e) = e.user := by
  rw [Entry.user_eq, Entry.user_eq]
  simp only [splitParent, BitVec.getLsbD_or, BitVec.getLsbD_and, getLsbD_page hpage (i := 2) (by decide)]
  simp

namespace TablesOk

theorem page_lt {before pages : State} {live : List FreePageRange}
    (hfresh : Fresh before live pages c) : c < 2 ^ 32 := by
  have hok := hfresh.pages.blocks (page c) List.mem_cons_self
  exact hok.base_lt.trans_le hok.bounded

/-- A linked table that changes no translation. -/
theorem grows_of_link {pages : State} {entries : Fin 512 → Entry} (h : TablesOk s owned rest rank)
    (hroot : rank root = 4) (hrank : rank parent = n + 1) (hn : 0 < n)
    (hfresh : Fresh s.pages (owned.map page ++ rest) pages c) (hchild : e.child = some c)
    (hopen : e.Open) (hentries : 2 ≤ n → ∀ i, entries i = 0)
    (hnone : (s.tables parent index).child = none) (huser : n = 3 → e.user = user)
    (hwalks : ∀ virt, translate (s.linkTable c pages entries parent index e).tables root virt =
      translate s.tables root virt) :
    Grows root user Set.univ rest rank s (s.linkTable c pages entries parent index e) (c :: owned)
      (Function.update rank c n) := by
  have hc := h.fresh_rank hfresh
  have hsame : ∀ u j, u ≠ c → (u, j) ≠ (parent, index) →
      (s.linkTable c pages entries parent index e).tables u j = s.tables u j :=
    Kernel.linkTable_other s pages entries
  constructor
  · exact h.link hrank hn hfresh hchild hopen hentries
  · intro t ht
    apply Function.update_of_ne
    rintro rfl
    exact ht hc
  · rfl
  · intro t i d ht hd
    apply hsame t i
    · rintro rfl
      omega
    · intro hslot
      obtain ⟨rfl, rfl⟩ := Prod.mk.inj hslot
      exact absurd (hnone.symm.trans hd) (by simp)
  · intro i
    by_cases hslot : (root, i) = (parent, index)
    · right
      obtain ⟨rfl, rfl⟩ := Prod.mk.inj hslot
      rw [Kernel.linkTable_entry]
      exact huser (by omega)
    · left
      apply hsame root i _ hslot
      rintro rfl
      omega
  · exact fun virt _ => hwalks virt

/-- A fresh and empty table in the place of an entry that was not present. -/
theorem grows_empty {pages : State} (h : TablesOk s owned rest rank) (hroot : rank root = 4)
    (hrank : rank parent = n + 1) (hn : 0 < n) (habsent : (s.tables parent index).present = false)
    (hfresh : Fresh s.pages (owned.map page ++ rest) pages c) :
    Grows root user Set.univ rest rank s ((s.withTable c pages).setEntry parent index
        (BitVec.ofNat 64 c ||| tableFlags user)) (c :: owned) (Function.update rank c n) := by
  have hc := h.fresh_rank hfresh
  have hpc : parent ≠ c := by
    rintro rfl
    omega
  have hchild : Entry.child (BitVec.ofNat 64 c ||| tableFlags user) = some c :=
    tableEntry_child hfresh.aligned hfresh.lt
  rw [← Kernel.linkTable_zero]
  apply h.grows_of_link hroot hrank hn hfresh hchild (tableEntry_open (page_lt hfresh))
    (fun _ _ => rfl) (Entry.child_of_not_present habsent)
  · intro _
    exact tableEntry_user hfresh.aligned hfresh.lt
  · intro virt
    apply translateFrom_link h.tree hrank hn hc habsent
    · rw [Kernel.linkTable_entry, hchild]
    · exact Kernel.linkTable_other s pages _
    · exact Kernel.linkTable_new s pages _ hpc
    · exact hroot

/-- `get_or_create_table`: no table, or one of the level below, which user code may use where that
was asked. -/
theorem getOrCreateTable (h : TablesOk s owned rest rank) (hroot : rank root = 4)
    (hrank : rank parent = n + 1) (hn : 0 < n) (index : Fin 512) (user : Bool) :
    ∃ owned' rank', Grows root user Set.univ rest rank s (getOrCreateTable s parent index user).2
        owned' rank' ∧
      ((getOrCreateTable s parent index user).1 ≠ 0 →
        ((getOrCreateTable s parent index user).2.tables parent index).child =
            some (getOrCreateTable s parent index user).1 ∧
          (user = true →
            ((getOrCreateTable s parent index user).2.tables parent index).user = true)) := by
  have hparent : parent ≠ 0 := h.owned_ne_zero (by omega)
  rcases getOrCreateTable_cases h.pages hparent index user with
    hnone | ⟨c, hchild, huser, hget⟩ | ⟨habsent, c, pages, hfresh, hget⟩
  · rw [hnone]
    exact ⟨owned, rank, .refl h, fun hne => absurd rfl hne⟩
  · rw [hget]
    exact ⟨owned, rank, .refl h, fun _ => ⟨hchild, huser⟩⟩
  · rw [hget]
    refine ⟨_, _, h.grows_empty hroot hrank hn habsent hfresh, fun _ => ?_⟩
    rw [Kernel.setEntry_self]
    constructor
    · exact tableEntry_child hfresh.aligned hfresh.lt
    · intro huser
      rw [tableEntry_user hfresh.aligned hfresh.lt, huser]

/-- `get_or_create_pd`: a table of level 2 and the way to it, or none. -/
theorem getOrCreatePd (h : TablesOk s owned rest rank) (hroot : rank root = 4) (virt : Nat)
    (user : Bool) :
    ∃ owned' rank', Grows root user Set.univ rest rank s (getOrCreatePd s root virt user).2
        owned' rank' ∧
      ((getOrCreatePd s root virt user).1 ≠ 0 → ∃ pdpt,
        PdAt (getOrCreatePd s root virt user).2.tables root virt user pdpt
          (getOrCreatePd s root virt user).1) := by
  obtain ⟨owned₁, rank₁, hgrows₁, hfound₁⟩ :=
    h.getOrCreateTable hroot hroot (by decide) (pml4Index virt) user
  rcases hget : Memory.getOrCreateTable s root (pml4Index virt) user with ⟨pdpt, s₁⟩
  rw [hget] at hgrows₁ hfound₁
  simp only [Memory.getOrCreatePd, hget]
  split
  · exact ⟨owned₁, rank₁, hgrows₁, fun hne => absurd rfl hne⟩
  · next hne =>
      obtain ⟨hfirst, hfirstUser⟩ := hfound₁ hne
      have hroot₁ := hgrows₁.keeps root (by omega)
      have hpdpt := hgrows₁.ok.tree.points root _ pdpt (by omega) hfirst
      have hthree : rank₁ pdpt = 2 + 1 := by omega
      obtain ⟨owned₂, rank₂, hgrows₂, hfound₂⟩ := hgrows₁.ok.getOrCreateTable (hroot₁.trans hroot)
        hthree (by decide) (pdptIndex virt) user
      refine ⟨owned₂, rank₂, hgrows₁.trans hgrows₂, fun hne₂ => ⟨pdpt, ?_⟩⟩
      obtain ⟨hsecond, hsecondUser⟩ := hfound₂ hne₂
      have hsame := hgrows₂.links root _ pdpt (by omega) hfirst
      constructor
      · rw [hsame]
        exact hfirst
      · exact hsecond
      · rw [hsame]
        exact hfirstUser
      · exact hsecondUser

/-- The ranks of the tables on the way. -/
theorem pd_rank (h : TablesOk s owned rest rank) (hroot : rank root = 4) {virt pdpt : Nat}
    (hat : PdAt s.tables root virt user pdpt pd) : rank pdpt = 3 ∧ rank pd = 2 := by
  have hfirst := h.tree.points root _ pdpt (by omega) hat.first
  have hsecond := h.tree.points pdpt _ pd (by omega) hat.second
  omega

/-- A large page and the table that `split_large_page` puts in its place. -/
theorem grows_split {pages : State} (h : TablesOk s owned rest rank) (hroot : rank root = 4)
    (hrank : rank pd = 2) (hpresent : (s.tables pd slot).present = true)
    (hlarge : (s.tables pd slot).large = true)
    (hfresh : Fresh s.pages (owned.map page ++ rest) pages c) :
    Grows root user Set.univ rest rank s (s.linkTable c pages
        (fun index => splitEntry (s.tables pd slot) index) pd slot (splitParent c (s.tables pd slot)))
      (c :: owned) (Function.update rank c 1) := by
  have hc := h.fresh_rank hfresh
  have hpc : pd ≠ c := by
    rintro rfl
    omega
  have hchild : Entry.child (splitParent c (s.tables pd slot)) = some c := splitEntry_child hfresh
  have hopen : Entry.Open (splitParent c (s.tables pd slot)) := splitParent_open (page_lt hfresh)
  apply h.grows_of_link hroot hrank (by decide) hfresh hchild hopen
  · exact fun hle => absurd hle (by decide)
  · exact Entry.child_of_large hlarge
  · exact fun hthree => absurd hthree (by decide)
  · intro virt
    apply translateFrom_split h.tree hrank hc hpresent hlarge
    · rw [Kernel.linkTable_entry, hchild]
    · rw [Kernel.linkTable_entry]
      exact hopen
    · rw [Kernel.linkTable_entry, splitParent_user hfresh.aligned]
    · exact Kernel.linkTable_other s pages _
    · exact Kernel.linkTable_new s pages _ hpc
    · exact hroot

/-- `split_large_page`, which changes no translation. -/
theorem splitLargePage (h : TablesOk s owned rest rank) (hroot : rank root = 4)
    (hrank : rank pd = 2) (slot : Fin 512) (user : Bool) :
    ∃ owned' rank', Grows root user Set.univ rest rank s (splitLargePage s pd slot).2 owned' rank' ∧
      ((splitLargePage s pd slot).1 = true → (s.tables pd slot).large = true →
        ∃ c, ((splitLargePage s pd slot).2.tables pd slot).child = some c) := by
  simp only [Memory.splitLargePage]
  split
  · next hnot =>
      refine ⟨owned, rank, .refl h, ?_⟩
      intro _ hlarge
      have hpresent := (h.entries pd slot (by omega)).whole hlarge
      simp [hlarge, hpresent] at hnot
  · next hlarge =>
      simp only [Bool.or_eq_true, Bool.not_eq_true', not_or, Bool.not_eq_false] at hlarge
      obtain ⟨hpresent, hlarge⟩ := hlarge
      rcases allocPageTable_cases h.pages with hnone | ⟨c, pages, hfresh, halloc⟩
      · rw [hnone]
        exact ⟨owned, rank, .refl h, by simp⟩
      · rw [halloc]
        simp only [if_neg hfresh.nonzero]
        refine ⟨_, _, h.grows_split hroot hrank hpresent hlarge hfresh, fun _ _ => ⟨c, ?_⟩⟩
        rw [Kernel.setEntry_self]
        exact splitEntry_child hfresh

/-- The branches of `map_page_4k` on the entry for the table of level 1. A large page is not split
for user code. -/
theorem preparePt (h : TablesOk s owned rest rank) (hroot : rank root = 4) (hrank : rank pd = 2)
    (slot : Fin 512) (user : Bool) (hsmall : user = true → (s.tables pd slot).large = false) :
    ∃ owned' rank', Grows root user Set.univ rest rank s (preparePt s pd slot user).2 owned' rank' ∧
      ((preparePt s pd slot user).1 = true →
        ∃ c, ((preparePt s pd slot user).2.tables pd slot).child = some c ∧
          (user = true → ((preparePt s pd slot user).2.tables pd slot).user = true)) := by
  simp only [Memory.preparePt]
  split
  · next hlarge =>
      obtain ⟨owned', rank', hgrows, hchild⟩ := h.splitLargePage hroot hrank slot user
      refine ⟨owned', rank', hgrows, fun hdone => ?_⟩
      obtain ⟨c, hc⟩ := hchild hdone hlarge
      refine ⟨c, hc, fun huser => ?_⟩
      rw [hsmall huser] at hlarge
      exact absurd hlarge (by simp)
  · next hlarge =>
      split
      · next habsent =>
          simp only [Bool.not_eq_true'] at habsent
          rcases allocPageTable_cases h.pages with hnone | ⟨c, pages, hfresh, halloc⟩
          · rw [hnone]
            exact ⟨owned, rank, .refl h, by simp⟩
          · rw [halloc]
            simp only [if_neg hfresh.nonzero]
            refine ⟨_, _, h.grows_empty hroot hrank (by decide) habsent hfresh, fun _ => ⟨c, ?_⟩⟩
            rw [Kernel.setEntry_self]
            constructor
            · exact tableEntry_child hfresh.aligned hfresh.lt
            · intro huser
              rw [tableEntry_user hfresh.aligned hfresh.lt, huser]
      · next hpresent =>
          split
          · exact ⟨owned, rank, .refl h, by simp⟩
          · next huser =>
              refine ⟨owned, rank, .refl h, fun _ => ⟨(s.tables pd slot).table, ?_, ?_⟩⟩
              · simp only [Bool.not_eq_true', Bool.not_eq_false] at hpresent
                simp [Entry.child, hlarge, hpresent]
              · intro hyes
                simpa [hyes] using huser

end TablesOk

end FunnyOS.Memory
