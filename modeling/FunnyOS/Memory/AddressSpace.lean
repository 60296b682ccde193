import FunnyOS.Memory.PagingInit

/-!
# Address spaces

The root of a process holds the kernel's entries, and entries of its own where the kernel has
none. Its own tables form a tree in which every table is a page of its own; `paging_map_user_range`
only lets the tree grow, by fresh pages, and walks through no table of the kernel, since no entry
of the kernel lets user code through.
-/

namespace FunnyOS.Memory

variable {agree : Entry → Entry → Prop} {s s' s'' : Kernel} {root t c p : Nat} {e : Entry}
  {index slot : Fin 512} {rest : List FreePageRange} {n m : Nat} {news news' : List Nat}

/-- The tables that user code may reach from a table of a level. -/
def userKids (tables : Nat → Fin 512 → Entry) (level t : Nat) : List Nat :=
  if level ≤ 1 then [] else (List.finRange 512).filterMap fun i => (tables t i).userChild

/-- A process's own tables under its root. -/
def ownTables (s : Kernel) (root : Nat) : List Nat := tablesUnder (userKids s.tables) 4 root

/-- What holds of an address space. Each present entry of the root is its own or agrees with the
kernel's, and every entry of its other tables is its own. `rest` are the other blocks that are
out, the kernel's root among them. -/
structure UserSpace (agree : Entry → Entry → Prop) (s : Kernel) (root : Nat)
    (rest : List FreePageRange) : Prop where
  pages : Invariant (s.pages, (root :: ownTables s root).map page ++ rest)
  kernel : page s.pml4 ∈ rest
  own : ∀ n t, Reaches (userKids s.tables) 4 root n t → 2 ≤ n → n ≠ 4 → ∀ i,
    (s.tables t i).large = false ∧ ((s.tables t i).present = true → (s.tables t i).user = true)
  top : ∀ i, (s.tables root i).present = true →
    ((s.tables root i).user = true ∧ (s.tables root i).large = false) ∨
      ((s.tables root i).user = false ∧ agree (s.tables root i) (s.tables s.pml4 i))

/-- A state in which the address space has the tables `news` besides those it had. -/
structure Grown (agree : Entry → Entry → Prop) (root : Nat) (rest : List FreePageRange)
    (s : Kernel) (news : List Nat) (s' : Kernel) : Prop where
  space : UserSpace agree s' root rest
  untouched : Untouched rest s s'
  current : pagingCurrentRoot s' = pagingCurrentRoot s
  free : freeAddresses s.pages.freeRanges =
    freeAddresses s'.pages.freeRanges ∪ Pool.out FreePageRange.addresses (news.map page)
  events : s'.events = s.events ++ news.map fun c => .given c 1
  tables : (ownTables s' root).Perm (news ++ ownTables s root)
  reaches : ∀ n t, Reaches (userKids s.tables) 4 root n t →
    Reaches (userKids s'.tables) 4 root n t

theorem out_append {l l' : List FreePageRange} :
    Pool.out FreePageRange.addresses (l ++ l') =
      Pool.out FreePageRange.addresses l ∪ Pool.out FreePageRange.addresses l' := by
  induction l with
  | nil => simp
  | cons b l ih => simp [ih, Set.union_assoc]

theorem Grown.refl (h : UserSpace agree s root rest) : Grown agree root rest s [] s := by
  constructor
  · exact h
  · exact .refl
  · rfl
  · rw [List.map_nil, Pool.out_nil, Set.union_empty]
  · rw [List.map_nil, List.append_nil]
  · rw [List.nil_append]
  · exact fun _ _ hr => hr

theorem Grown.trans (h : Grown agree root rest s news s') (h' : Grown agree root rest s' news' s'') :
    Grown agree root rest s (news ++ news') s'' := by
  constructor
  · exact h'.space
  · exact h.untouched.trans h'.untouched
  · exact h'.current.trans h.current
  · rw [h.free, h'.free, List.map_append, out_append, Set.union_right_comm, Set.union_assoc]
  · rw [h'.events, h.events, List.map_append, List.append_assoc]
  · have hperm := h'.tables.trans (h.tables.append_left news')
    rw [← List.append_assoc] at hperm
    exact hperm.trans (List.perm_append_comm.append_right _)
  · exact fun n t hr => h'.reaches n t (h.reaches n t hr)

namespace UserSpace

theorem nodup (h : UserSpace agree s root rest) : (root :: ownTables s root).Nodup :=
  h.pages.pages_nodup

theorem level_unique (h : UserSpace agree s root rest) (hn : Reaches (userKids s.tables) 4 root n t)
    (hm : Reaches (userKids s.tables) 4 root m t) : n = m :=
  hn.level_unique hm h.nodup

theorem userKids_one (tables : Nat → Fin 512 → Entry) (t : Nat) : userKids tables 1 t = [] :=
  if_pos le_rfl

theorem userKids_of_two_le {tables : Nat → Fin 512 → Entry} (hn : 2 ≤ n) :
    userKids tables n t = (List.finRange 512).filterMap fun i => (tables t i).userChild :=
  if_neg (by omega)

theorem userKids_congr {tables tables' : Nat → Fin 512 → Entry} (h : tables' t = tables t) :
    userKids tables' n t = userKids tables n t := by
  rw [userKids, userKids, h]

/-- The facts about the other tables carry over when the tables of the tree are the same where
they are read. -/
theorem of_same (h : UserSpace agree s root rest) (s' : Kernel)
    (hpages : Invariant (s'.pages, (root :: ownTables s' root).map page ++ rest))
    (hpml4 : s'.pml4 = s.pml4) (hrest : ∀ t, page t ∈ rest → s'.tables t = s.tables t)
    (hinner : ∀ n t, Reaches (userKids s'.tables) 4 root n t → 2 ≤ n → n ≠ 4 → ∀ i,
      (s'.tables t i).large = false ∧
        ((s'.tables t i).present = true → (s'.tables t i).user = true))
    (htop : ∀ i, s'.tables root i = s.tables root i ∨
      ((s'.tables root i).user = true ∧ (s'.tables root i).large = false)) :
    UserSpace agree s' root rest := by
  constructor
  · exact hpages
  · rw [hpml4]
    exact h.kernel
  · exact hinner
  · intro i hpresent
    rcases htop i with hsame | hnew
    · rw [hsame, hpml4, hrest _ h.kernel]
      rw [hsame] at hpresent
      exact h.top i hpresent
    · exact .inl hnew

/-- An entry written in a table of level 1, which leads nowhere. -/
theorem leaf (h : UserSpace agree s root rest) (hp : Reaches (userKids s.tables) 4 root 1 p) :
    Grown agree root rest s [] (s.setEntry p index e) := by
  have htables : ∀ u, u ≠ p → (s.setEntry p index e).tables u = s.tables u :=
    fun u hu => Function.update_of_ne hu _ _
  have hroot : root ≠ p := by
    rintro rfl
    have hlevel := h.level_unique (.here 4 root) hp
    exact absurd hlevel (by decide)
  have hkids : ∀ k x, Reaches (userKids s.tables) 4 root k x →
      userKids (s.setEntry p index e).tables k x = userKids s.tables k x := by
    intro k x hx
    by_cases hxp : x = p
    · subst hxp
      have hk := h.level_unique hx hp
      subst hk
      rw [userKids_one, userKids_one]
    · exact userKids_congr (htables x hxp)
  have hown : ownTables (s.setEntry p index e) root = ownTables s root := tablesUnder_congr hkids
  have hrest : ∀ t, page t ∈ rest → (s.setEntry p index e).tables t = s.tables t :=
    fun t ht => htables t (h.pages.pages_ne_rest hp.mem ht)
  have hspace : UserSpace agree (s.setEntry p index e) root rest := by
    have hpages : Invariant ((s.setEntry p index e).pages,
        (root :: ownTables (s.setEntry p index e) root).map page ++ rest) := by
      rw [hown]
      exact h.pages
    apply h.of_same _ hpages rfl hrest
    · intro n t ht hn hne i
      have hold := Reaches.of_congr hkids ht
      have htp : t ≠ p := by
        rintro rfl
        have hlevel := h.level_unique hold hp
        omega
      rw [htables t htp]
      exact h.own n t hold hn hne i
    · intro i
      rw [htables root hroot]
      exact .inl rfl
  constructor
  · exact hspace
  · exact ⟨hrest, rfl⟩
  · rfl
  · rw [List.map_nil, Pool.out_nil, Set.union_empty]
    rfl
  · rw [List.map_nil, List.append_nil]
    rfl
  · rw [List.nil_append, hown]
  · intro n t ht
    apply ht.mono
    intro k x hx
    rw [hkids k x hx]
    exact List.Subset.refl _

/-- A fresh page that becomes a table, which a table of the tree points to. -/
theorem link {pages : State} (h : UserSpace agree s root rest)
    (hp : Reaches (userKids s.tables) 4 root (m + 1) p) (hm : 1 ≤ m)
    (hnot : (s.tables p index).present = false)
    (hfresh : Fresh s.pages ((root :: ownTables s root).map page ++ rest) pages c) :
    Grown agree root rest s [c] ((s.withTable c pages).setEntry p index
        (BitVec.ofNat 64 c ||| tableFlags true)) ∧
      Reaches (userKids ((s.withTable c pages).setEntry p index
        (BitVec.ofNat 64 c ||| tableFlags true)).tables) 4 root m c := by
  set s' := (s.withTable c pages).setEntry p index (BitVec.ofNat 64 c ||| tableFlags true) with hs'
  have hne : ∀ t ∈ root :: ownTables s root, t ≠ c := fun t ht =>
    hfresh.ne (List.mem_append_left _ (List.mem_map_of_mem ht))
  have hpc : p ≠ c := hne p hp.mem
  have hcnew : c ∉ root :: ownTables s root := fun hc => hne c hc rfl
  have htables : ∀ u, u ≠ c → u ≠ p → s'.tables u = s.tables u := by
    intro u huc hup
    simp only [hs', Kernel.setEntry, Kernel.setTable, Kernel.withTable]
    rw [Function.update_of_ne hup, Function.update_of_ne huc]
  have hparent : s'.tables p = Function.update (s.tables p) index
      (BitVec.ofNat 64 c ||| tableFlags true) := by
    simp only [hs', Kernel.setEntry, Kernel.setTable, Kernel.withTable]
    rw [Function.update_self, Function.update_of_ne hpc]
  have hc : s'.tables c = fun _ => 0 := by
    simp only [hs', Kernel.setEntry, Kernel.setTable, Kernel.withTable]
    rw [Function.update_of_ne hpc.symm, Function.update_self]
  have hchild : Entry.child (BitVec.ofNat 64 c ||| tableFlags true) = some c :=
    tableEntry_child hfresh.aligned hfresh.lt
  have huser : Entry.user (BitVec.ofNat 64 c ||| tableFlags true) = true :=
    tableEntry_user hfresh.aligned hfresh.lt
  have hentry : Entry.userChild (BitVec.ofNat 64 c ||| tableFlags true) = some c := by
    rw [Entry.userChild, huser, if_pos rfl, hchild]
  have hempty : ∀ k, userKids s'.tables k c = [] := by
    intro k
    by_cases hk : k ≤ 1
    · exact if_pos hk
    · rw [userKids_of_two_le (by omega), hc]
      exact List.filterMap_eq_nil_iff.2 fun _ _ => Entry.userChild_zero
  have hsame : ∀ k, ∀ x ∈ root :: ownTables s root, x ≠ p →
      userKids s'.tables k x = userKids s.tables k x :=
    fun k x hx hxp => userKids_congr (htables x (hne x hx) hxp)
  have hfill : ∀ k, 2 ≤ k → (userKids s'.tables k p).Perm (c :: userKids s.tables k p) := by
    intro k hk
    rw [userKids_of_two_le hk, userKids_of_two_le hk, hparent]
    apply filterMap_fill_perm (List.nodup_finRange 512) (List.mem_finRange index)
    · rw [Entry.userChild, Entry.child_of_not_present hnot, ite_self]
    · rw [Function.update_self, hentry]
    · intro j hj
      rw [Function.update_of_ne hj]
  have hkids := hfill (m + 1) (by omega)
  have hown : (ownTables s' root).Perm (c :: ownTables s root) :=
    tablesUnder_add hp h.nodup hcnew hkids hempty hsame
  have hsub : ∀ k x, Reaches (userKids s.tables) 4 root k x →
      userKids s.tables k x ⊆ userKids s'.tables k x := by
    intro k x hx
    by_cases hxp : x = p
    · subst hxp
      have hk := h.level_unique hx hp
      subst hk
      intro y hy
      exact hkids.mem_iff.2 (List.mem_cons_of_mem _ hy)
    · rw [hsame k x hx.mem hxp]
      exact List.Subset.refl _
  have hrest : ∀ t, page t ∈ rest → s'.tables t = s.tables t := fun t ht =>
    htables t (hfresh.ne (List.mem_append_right _ ht)) (h.pages.pages_ne_rest hp.mem ht)
  have hreaches : ∀ n t, Reaches (userKids s.tables) 4 root n t →
      Reaches (userKids s'.tables) 4 root n t := fun n t ht => ht.mono hsub
  have hpages : Invariant (s'.pages, (root :: ownTables s' root).map page ++ rest) := by
    apply hfresh.pages.perm
    have hperm : (c :: root :: ownTables s root).Perm (root :: ownTables s' root) :=
      (List.Perm.swap _ _ _).trans (hown.symm.cons _)
    exact (hperm.map page).append_right rest
  have hspace : UserSpace agree s' root rest := by
    apply h.of_same _ hpages rfl hrest
    · intro n t ht hn hne' i
      rcases Reaches.of_add hp h.nodup hkids hempty hsame (.here 4 root) ht with hold | ⟨htc, -⟩
      · by_cases htp : t = p
        · subst htp
          rw [hparent]
          by_cases hi : i = index
          · subst hi
            rw [Function.update_self]
            exact ⟨(Entry.child_eq_some hchild).2.1, fun _ => huser⟩
          · rw [Function.update_of_ne hi]
            exact h.own n t hold hn hne' i
        · rw [htables t (hne t hold.mem) htp]
          exact h.own n t hold hn hne' i
      · have hzero : s'.tables t i = 0 := by rw [htc, hc]
        rw [hzero]
        exact ⟨by decide, fun hpresent => absurd hpresent (by decide)⟩
    · intro i
      by_cases hroot : root = p
      · rw [hroot, hparent]
        by_cases hi : i = index
        · right
          subst hi
          rw [Function.update_self]
          exact ⟨huser, (Entry.child_eq_some hchild).2.1⟩
        · left
          rw [Function.update_of_ne hi]
      · left
        rw [htables root (hne root List.mem_cons_self) hroot]
  constructor
  · constructor
    · exact hspace
    · exact ⟨hrest, rfl⟩
    · rfl
    · rw [List.map_singleton, Pool.out_cons, Pool.out_nil, Set.union_empty]
      exact hfresh.taken
    · rfl
    · rw [List.singleton_append]
      exact hown
    · exact hreaches
  · have hmem : c ∈ userKids s'.tables (m + 1) p := by
      rw [hkids.mem_iff]
      exact List.mem_cons_self
    exact (hreaches (m + 1) p hp).trans (Reaches.kid hmem)

/-- `get_or_create_table` for user code: a table of the tree, or none. -/
theorem getOrCreateTable (h : UserSpace agree s root rest)
    (hp : Reaches (userKids s.tables) 4 root (m + 1) p) (hm : 1 ≤ m) (index : Fin 512) : ∃ news,
      Grown agree root rest s news (getOrCreateTable s p index true).2 ∧
      ((getOrCreateTable s p index true).1 ≠ 0 →
        Reaches (userKids (getOrCreateTable s p index true).2.tables) 4 root m
          (getOrCreateTable s p index true).1) := by
  have hblock : page p ∈ (root :: ownTables s root).map page ++ rest :=
    List.mem_append_left _ (List.mem_map_of_mem hp.mem)
  rcases getOrCreateTable_cases h.pages (h.pages.page_ne_zero hblock) index true with
    hnone | ⟨c, hchild, huser, hget⟩ | ⟨hnot, c, pages, hfresh, hget⟩
  · rw [hnone]
    exact ⟨[], .refl h, fun hne => absurd rfl hne⟩
  · rw [hget]
    refine ⟨[], .refl h, fun _ => ?_⟩
    have hmem : c ∈ userKids s.tables (m + 1) p := by
      rw [userKids_of_two_le (by omega)]
      refine List.mem_filterMap.2 ⟨index, List.mem_finRange index, ?_⟩
      rw [Entry.userChild, huser rfl, if_pos rfl, hchild]
    exact hp.trans (Reaches.kid hmem)
  · rw [hget]
    obtain ⟨hgrown, hreach⟩ := h.link hp hm hnot hfresh
    exact ⟨[c], hgrown, fun _ => hreach⟩

theorem getOrCreatePd (h : UserSpace agree s root rest) (virt : Nat) : ∃ news,
    Grown agree root rest s news (getOrCreatePd s root virt true).2 ∧
    ((getOrCreatePd s root virt true).1 ≠ 0 →
      Reaches (userKids (getOrCreatePd s root virt true).2.tables) 4 root 2
        (getOrCreatePd s root virt true).1) := by
  obtain ⟨news, hgrown, hreach⟩ :=
    h.getOrCreateTable (.here 4 root) (m := 3) (by decide) (pml4Index virt)
  rcases hget : Memory.getOrCreateTable s root (pml4Index virt) true with ⟨pdpt, s₁⟩
  rw [hget] at hgrown hreach
  simp only [Memory.getOrCreatePd, hget]
  split
  · exact ⟨news, hgrown, fun hne => absurd rfl hne⟩
  · next hne =>
      obtain ⟨news', hgrown', hreach'⟩ :=
        hgrown.space.getOrCreateTable (hreach hne) (by decide) (pdptIndex virt)
      exact ⟨news ++ news', hgrown.trans hgrown', hreach'⟩

/-- The branches of `map_page_4k` on the entry for the table of level 1. No page of the tree is a
large one, so that none is split. -/
theorem preparePt (h : UserSpace agree s root rest)
    (hp : Reaches (userKids s.tables) 4 root 2 p) (slot : Fin 512) : ∃ news,
      Grown agree root rest s news (preparePt s p slot true).2 ∧
      ((preparePt s p slot true).1 = true →
        Reaches (userKids (preparePt s p slot true).2.tables) 4 root 1
          ((preparePt s p slot true).2.tables p slot).table) := by
  obtain ⟨hlarge, huser⟩ := h.own 2 p hp (by decide) (by decide) slot
  simp only [Memory.preparePt, hlarge, Bool.false_eq_true, if_false]
  cases hpresent : (s.tables p slot).present with
  | false =>
      simp only [Bool.not_false, if_true]
      rcases allocPageTable_cases h.pages with hnone | ⟨c, pages, hfresh, halloc⟩
      · rw [hnone]
        exact ⟨[], .refl h, by simp⟩
      · rw [halloc]
        simp only [if_neg hfresh.nonzero]
        obtain ⟨hgrown, hreach⟩ := h.link hp (by decide) hpresent hfresh
        refine ⟨[c], hgrown, fun _ => ?_⟩
        have htable : (((s.withTable c pages).setEntry p slot
            (BitVec.ofNat 64 c ||| tableFlags true)).tables p slot).table = c := by
          simp only [Kernel.setEntry, Function.update_self, Kernel.setTable]
          exact (Entry.child_eq_some (tableEntry_child hfresh.aligned hfresh.lt)).2.2
        rw [htable]
        exact hreach
  | true =>
      simp only [Bool.not_true, Bool.false_eq_true, if_false, huser hpresent, Bool.and_false]
      refine ⟨[], .refl h, fun _ => ?_⟩
      have hmem : (s.tables p slot).table ∈ userKids s.tables 2 p := by
        rw [userKids_of_two_le (by decide)]
        refine List.mem_filterMap.2 ⟨slot, List.mem_finRange slot, ?_⟩
        simp [Entry.userChild, Entry.child, huser hpresent, hpresent, hlarge]
      exact hp.trans (Reaches.kid hmem)

theorem mapPage4k {virt phys : Nat} {writable executable : Bool}
    (h : UserSpace agree s root rest) : ∃ news,
      Grown agree root rest s news (mapPage4k s root virt phys writable executable true).2 := by
  obtain ⟨news, hgrown, hreach⟩ := h.getOrCreatePd virt
  rcases hget : Memory.getOrCreatePd s root virt true with ⟨pd, s₁⟩
  rw [hget] at hgrown hreach
  simp only [Memory.mapPage4k, hget]
  split
  · exact ⟨news, hgrown⟩
  · next hpd =>
      obtain ⟨news', hgrown', hreach'⟩ := hgrown.space.preparePt (hreach hpd) (pdIndex virt)
      rcases hprepare : Memory.preparePt s₁ pd (pdIndex virt) true with ⟨ok, s₂⟩
      rw [hprepare] at hgrown' hreach'
      simp only
      split
      · exact ⟨news ++ news', hgrown.trans hgrown'⟩
      · next hok =>
          have hpt := hreach' (by simpa using hok)
          exact ⟨_, (hgrown.trans hgrown').trans (hgrown'.space.leaf hpt)⟩

/-- Any loop over `map_page_4k`. -/
theorem whileOk {α : Type} {body : Kernel → α → Bool × Kernel} {l : List α}
    (hbody : ∀ s a, UserSpace agree s root rest → ∃ news,
      Grown agree root rest s news (body s a).2)
    (h : UserSpace agree s root rest) : ∃ news,
      Grown agree root rest s news (whileOk body l s).2 := by
  induction l generalizing s with
  | nil => exact ⟨[], .refl h⟩
  | cons a l ih =>
      obtain ⟨news, hgrown⟩ := hbody s a h
      rcases hstep : body s a with ⟨ok, s₁⟩
      rw [hstep] at hgrown
      simp only [Memory.whileOk, hstep]
      split
      · obtain ⟨news', hgrown'⟩ := ih hgrown.space
        exact ⟨news ++ news', hgrown.trans hgrown'⟩
      · exact ⟨news, hgrown⟩

theorem mapRangeInRoot (h : UserSpace agree s root rest) (virtStart physStart size : Nat)
    (writable executable : Bool) : ∃ news, Grown agree root rest s news
      (mapRangeInRoot s root virtStart physStart size writable executable true).2 := by
  simp only [Memory.mapRangeInRoot]
  split
  · exact ⟨[], .refl h⟩
  · split
    · exact ⟨[], .refl h⟩
    · apply whileOk _ h
      intro s₁ virt h₁
      exact h₁.mapPage4k

/-- Loading CR3 with the root that it holds changes nothing. -/
theorem loadCr3 (h : UserSpace agree s root rest) (hcurrent : pagingCurrentRoot s = root) :
    Grown agree root rest s [] (loadCr3 s root) := by
  have hsame := Grown.refl h
  have hroot : alignDownPage root pageSize = root := by
    rw [← hcurrent]
    simp only [pagingCurrentRoot, alignDownPage, alignDownUintptr]
    rw [Nat.mul_div_cancel _ (by decide)]
  constructor
  · exact ⟨h.pages, h.kernel, h.own, h.top⟩
  · exact ⟨fun _ _ => rfl, rfl⟩
  · rw [hcurrent]
    exact hroot
  · exact hsame.free
  · exact hsame.events
  · exact hsame.tables
  · exact hsame.reaches

theorem root_ne_zero (h : UserSpace agree s root rest) : root ≠ 0 :=
  h.pages.page_ne_zero (t := root) List.mem_cons_self

theorem root_aligned (h : UserSpace agree s root rest) : alignDownPage root pageSize = root := by
  have haligned : root % pageSize = 0 := (h.pages.blocks (page root) List.mem_cons_self).aligned
  exact Nat.div_mul_cancel (Nat.dvd_of_mod_eq_zero haligned)

/-- `paging_map_user_range`, whether it succeeds or fails at some page. -/
theorem mapUserRange (h : UserSpace agree s root rest) (virtStart physStart size : Nat)
    (writable executable : Bool) : ∃ news, Grown agree root rest s news
      (pagingMapUserRange s root virtStart physStart size writable executable).2 := by
  obtain ⟨news, hgrown⟩ := h.mapRangeInRoot virtStart physStart size writable executable
  simp only [pagingMapUserRange, h.root_aligned, if_neg h.root_ne_zero, andThen]
  split
  · split
    · next hcurrent => exact ⟨_, hgrown.trans (hgrown.space.loadCr3 hcurrent)⟩
    · exact ⟨news, hgrown⟩
  · exact ⟨news, hgrown⟩

end UserSpace

/-- What `paging_create_address_space` leaves: a root that holds the kernel's entries. -/
structure Created (agree : Entry → Entry → Prop) (s : Kernel) (rest : List FreePageRange)
    (root : Nat) (s' : Kernel) : Prop where
  space : UserSpace agree s' root rest
  shared : s'.tables root = s.tables s.pml4
  untouched : Untouched rest s s'
  current : pagingCurrentRoot s' = pagingCurrentRoot s
  free : freeAddresses s.pages.freeRanges =
    freeAddresses s'.pages.freeRanges ∪ FreePageRange.addresses (page root)
  events : s'.events = s.events ++ [.given root 1]
  own : ownTables s' root = []

theorem pagingCreateAddressSpace_cases {owned : List Nat} {blocks : List FreePageRange}
    {rank : Nat → Nat} (h : KernelOk s owned blocks rank) (agree : Entry → Entry → Prop)
    (hagree : ∀ e, agree e e) :
    pagingCreateAddressSpace s = (0, s) ∨ ∃ root s', s.pml4 ≠ 0 ∧ root ≠ 0 ∧
      pagingCreateAddressSpace s = (root, s') ∧
      Created agree s (owned.map page ++ blocks) root s' := by
  rw [pagingCreateAddressSpace]
  split
  · exact .inl rfl
  · next hne =>
      rcases allocPageTable_cases h.pages with hnone | ⟨c, pages, hfresh, halloc⟩
      · left
        rw [hnone]
        rfl
      · right
        rw [halloc]
        simp only [if_neg hfresh.nonzero]
        refine ⟨c, _, hne, hfresh.nonzero, rfl, ?_⟩
        have hfour := h.root hne
        have hkernel : page s.pml4 ∈ owned.map page ++ blocks :=
          List.mem_append_left _ (List.mem_map_of_mem (h.ranked _ (by omega)))
        set s' := (s.withTable c pages).setTable c ((s.withTable c pages).tables
          (s.withTable c pages).pml4) with hs'
        have htables : ∀ u, u ≠ c → s'.tables u = s.tables u := by
          intro u hu
          simp only [hs', Kernel.setTable, Kernel.withTable]
          rw [Function.update_of_ne hu, Function.update_of_ne hu]
        have hshared : s'.tables c = s.tables s.pml4 := by
          simp only [hs', Kernel.setTable, Kernel.withTable]
          rw [Function.update_self, Function.update_of_ne (hfresh.ne hkernel)]
        have hkids : userKids s'.tables 4 c = [] := by
          rw [UserSpace.userKids_of_two_le (by decide), hshared]
          apply List.filterMap_eq_nil_iff.2
          intro i _
          cases hpresent : (s.tables s.pml4 i).present with
          | false => rw [Entry.userChild, Entry.child_of_not_present hpresent, ite_self]
          | true => rw [Entry.userChild, h.supervisor hne i hpresent, if_neg Bool.false_ne_true]
        have hown : ownTables s' c = [] := by
          rw [ownTables, tablesUnder, hkids]
          rfl
        have hreach : ∀ n t, Reaches (userKids s'.tables) 4 c n t → n = 4 := by
          intro n t ht
          cases ht with
          | here => rfl
          | down hd _ =>
              rw [hkids] at hd
              exact absurd hd List.not_mem_nil
        constructor
        · constructor
          · rw [hown]
            exact hfresh.pages
          · exact hkernel
          · intro n t ht _ hn
            exact absurd (hreach n t ht) hn
          · intro i hpresent
            right
            have hsame : s'.tables s'.pml4 = s.tables s.pml4 := htables _ (hfresh.ne hkernel)
            rw [hsame]
            rw [hshared] at hpresent ⊢
            exact ⟨h.supervisor hne i hpresent, hagree _⟩
        · exact hshared
        · exact ⟨fun t ht => htables t (hfresh.ne ht), rfl⟩
        · rfl
        · exact hfresh.taken
        · rfl
        · exact hown

/-- Pages freed one after the other. -/
def Kernel.freeAll (s : Kernel) (l : List Nat) : Kernel := l.foldl (fun s t => s.freePages t 1) s

@[simp] theorem Kernel.freeAll_append {l l' : List Nat} :
    s.freeAll (l ++ l') = (s.freeAll l).freeAll l' := List.foldl_append

@[simp] theorem Kernel.freeAll_tables {l : List Nat} : (s.freeAll l).tables = s.tables := by
  induction l generalizing s with
  | nil => rfl
  | cons t l ih => exact ih

@[simp] theorem Kernel.freeAll_pml4 {l : List Nat} : (s.freeAll l).pml4 = s.pml4 := by
  induction l generalizing s with
  | nil => rfl
  | cons t l ih => exact ih

@[simp] theorem Kernel.freeAll_cr3 {l : List Nat} : (s.freeAll l).cr3 = s.cr3 := by
  induction l generalizing s with
  | nil => rfl
  | cons t l ih => exact ih

/-- The loop of `destroy_table_tree`, and of `paging_destroy_address_space`: for each slot that
leads to a table, the tables under it and the table itself are freed. -/
theorem foldl_freeAll {slots : List (Fin 512)} {child : Fin 512 → Option Nat}
    {under : Nat → List Nat} {body : Kernel → Fin 512 → Kernel} {tables : Nat → Fin 512 → Entry}
    (hskip : ∀ s i, s.tables = tables → s.pml4 = p → child i = none → body s i = s)
    (hfree : ∀ s i c, s.tables = tables → s.pml4 = p → i ∈ slots → child i = some c →
      body s i = s.freeAll (under c ++ [c])) (htables : s.tables = tables) (hpml4 : s.pml4 = p) :
    slots.foldl body s = s.freeAll ((slots.filterMap child).flatMap fun c => under c ++ [c]) := by
  induction slots generalizing s with
  | nil => rfl
  | cons i slots ih =>
      have hrest : ∀ s i c, s.tables = tables → s.pml4 = p → i ∈ slots → child i = some c →
          body s i = s.freeAll (under c ++ [c]) :=
        fun s i c hs hp hi => hfree s i c hs hp (List.mem_cons_of_mem _ hi)
      rw [List.foldl_cons]
      cases hchild : child i with
      | none =>
          rw [hskip s i htables hpml4 hchild, ih hrest htables hpml4,
            List.filterMap_cons_none hchild]
      | some c =>
          rw [hfree s i c htables hpml4 List.mem_cons_self hchild, ih hrest (by simp [htables])
            (by simp [hpml4]), List.filterMap_cons_some hchild, List.flatMap_cons,
            Kernel.freeAll_append (l := under c ++ [c])]

/-- `destroy_table_tree` frees the tables under a table. -/
theorem destroyTableTree_eq (hne : ∀ x ∈ t :: tablesUnder (tableKids s.tables) n t, x ≠ 0) :
    destroyTableTree n s t = s.freeAll (tablesUnder (tableKids s.tables) n t) := by
  generalize htables : s.tables = tables at hne ⊢
  induction n generalizing s t with
  | zero => rfl
  | succ level ih =>
      rw [destroyTableTree, if_neg (hne t List.mem_cons_self)]
      have hkids : tablesUnder (tableKids tables) (level + 1) t =
          ((List.finRange 512).filterMap fun i => if level + 1 ≤ 1 then none
            else (tables t i).child).flatMap
              fun c => tablesUnder (tableKids tables) level c ++ [c] := by
        rw [tablesUnder, tableKids]
        split
        · simp
        · rfl
      rw [hkids] at hne ⊢
      apply foldl_freeAll (p := s.pml4) _ _ htables rfl
      · intro s₁ i htables₁ _ hchild
        rw [← htables₁] at hchild
        simp only
        split
        · rfl
        · next hpresent =>
            split
            · rfl
            · next hwalk =>
                simp only [not_or, Bool.not_eq_true] at hwalk
                simp only [Bool.not_eq_true', Bool.not_eq_false] at hpresent
                rw [if_neg (by omega)] at hchild
                simp [Entry.child, hpresent, hwalk.2] at hchild
      · intro s₁ i c htables₁ _ _ hchild
        have hlevel : ¬ level + 1 ≤ 1 := by
          intro hle
          simp [hle] at hchild
        have hin : ∀ x ∈ c :: tablesUnder (tableKids tables) level c, x ≠ 0 := by
          intro x hx
          apply hne x
          apply List.mem_cons_of_mem
          apply List.mem_flatMap.2
          refine ⟨c, List.mem_filterMap.2 ⟨i, List.mem_finRange i, hchild⟩, ?_⟩
          exact (List.perm_append_singleton c _).mem_iff.2 hx
        rw [if_neg hlevel, ← htables₁] at hchild
        obtain ⟨hpresent, hlarge, htable⟩ := Entry.child_eq_some hchild
        have hlevel' : level + 1 ≠ 1 := by omega
        simp only [hpresent, hlarge, htable, Bool.not_true, Bool.false_eq_true, if_false, hlevel',
          or_self]
        rw [ih htables₁ hin, Kernel.freeAll_append]
        rfl

/-- What `paging_destroy_address_space` frees when each entry that is not the process's own is the
kernel's, bit for bit: its own tables and the root. -/
theorem UserSpace.destroy_eq (h : UserSpace agree s root rest)
    (hsupervisor : ∀ i, (s.tables s.pml4 i).present = true → (s.tables s.pml4 i).user = false)
    (hshared : ∀ i, (s.tables root i).present = true → (s.tables root i).user = false →
      s.tables root i = s.tables s.pml4 i) :
    pagingDestroyAddressSpace s root = s.freeAll (ownTables s root ++ [root]) := by
  have hkernel := h.pages.page_ne_zero (List.mem_append_right _ h.kernel)
  have hother : root ≠ s.pml4 := (h.pages.pages_ne_rest List.mem_cons_self h.kernel).symm
  have hinner : ∀ c ∈ userKids s.tables 4 root,
      tablesUnder (tableKids s.tables) 3 c = tablesUnder (userKids s.tables) 3 c := by
    intro c hc
    apply tablesUnder_congr
    intro k x hx
    rw [tableKids, userKids]
    split
    · rfl
    · next hk =>
        have hown := h.own k x ((Reaches.kid hc).trans hx) (by omega)
          (by have := hx.level_le; omega)
        apply List.filterMap_congr
        intro i _
        rw [Entry.userChild]
        split
        · rfl
        · next huser =>
            rw [Entry.child_of_not_present]
            simpa using fun hpresent => huser ((hown i).2 hpresent)
  have hnonzero : ∀ x ∈ root :: ownTables s root, x ≠ 0 := by
    intro x hx
    exact h.pages.page_ne_zero (List.mem_append_left _ (List.mem_map_of_mem hx))
  rw [pagingDestroyAddressSpace, if_neg (by simp [h.root_ne_zero, hother]), Kernel.freeAll_append]
  have hown : ownTables s root = (userKids s.tables 4 root).flatMap
      fun c => tablesUnder (tableKids s.tables) 3 c ++ [c] := by
    rw [ownTables, tablesUnder]
    apply List.flatMap_congr
    intro c hc
    rw [hinner c hc]
  rw [hown, userKids_of_two_le (by decide)]
  apply congrArg (fun s => Kernel.freeAll s [root])
  apply foldl_freeAll (p := s.pml4) _ _ rfl rfl
  · intro s₁ i htables hpml4 hchild
    simp only [htables, hpml4]
    split
    · rfl
    · next hpresent =>
        simp only [Bool.not_eq_true', Bool.not_eq_false] at hpresent
        split
        · rfl
        · next hdiffers =>
            split
            · rfl
            · next hlarge =>
                cases huser : (s.tables root i).user with
                | true => simp [Entry.userChild, Entry.child, huser, hpresent, hlarge] at hchild
                | false => exact absurd ⟨hkernel, hshared i hpresent huser⟩ hdiffers
  · intro s₁ i c htables hpml4 _ hchild
    obtain ⟨huser, hchild'⟩ := Entry.userChild_eq_some hchild
    obtain ⟨hpresent, hlarge, htable⟩ := Entry.child_eq_some hchild'
    have hdiffers : s.tables root i ≠ s.tables s.pml4 i := by
      intro heq
      rw [heq] at hpresent huser
      exact absurd (huser.symm.trans (hsupervisor i hpresent)) (by decide)
    have hmem : c ∈ userKids s.tables 4 root := by
      rw [userKids_of_two_le (by decide)]
      exact List.mem_filterMap.2 ⟨i, List.mem_finRange i, hchild⟩
    have hin : ∀ x ∈ c :: tablesUnder (tableKids s₁.tables) 3 c, x ≠ 0 := by
      intro x hx
      apply hnonzero x
      apply List.mem_cons_of_mem
      rw [hown]
      apply List.mem_flatMap.2
      rw [htables] at hx
      exact ⟨c, hmem, (List.perm_append_singleton c _).mem_iff.2 hx⟩
    simp only [htables, hpml4, hpresent, hlarge, htable, hdiffers, Bool.not_true,
      Bool.false_eq_true, if_false, and_false]
    rw [destroyTableTree_eq hin, Kernel.freeAll_append, htables]
    rfl

/-- No free in the events finds the table of free ranges full. -/
def RoomFound (events : List PageEvent) : Prop :=
  ∀ base n, PageEvent.freed base n false ∉ events

/-- Pages that are live, freed one after the other. -/
theorem Kernel.freeAll_spec {l : List Nat} (h : Invariant (s.pages, l.map page ++ rest)) :
    Invariant ((s.freeAll l).pages, rest) ∧ ∃ events, (s.freeAll l).events = s.events ++ events ∧
      (RoomFound events →
        events = l.map (fun t => .freed t 1 true) ∧
        freeAddresses (s.freeAll l).pages.freeRanges =
          freeAddresses s.pages.freeRanges ∪ Pool.out FreePageRange.addresses (l.map page)) := by
  induction l generalizing s with
  | nil =>
      refine ⟨h, [], (List.append_nil _).symm, fun _ => ⟨rfl, ?_⟩⟩
      rw [List.map_nil, Pool.out_nil, Set.union_empty]
      rfl
  | cons t l ih =>
      have hmem : page t ∈ (t :: l).map page ++ rest := List.mem_cons_self
      have hstep := CallStep.free s.pages ((t :: l).map page ++ rest) (page t) hmem
      have hinv := hstep.invariant h
      rw [List.map_cons, List.cons_append, List.erase_cons_head] at hinv
      obtain ⟨hafter, events, hevents, hroom⟩ := ih (s := s.freePages t 1) hinv
      refine ⟨hafter, .freed t 1 (decide (s.pages.freeRanges.length < maxFreeRanges)) :: events,
        ?_, ?_⟩
      · have hfirst : (s.freePages t 1).events = s.events ++
            [.freed t 1 (decide (s.pages.freeRanges.length < maxFreeRanges))] := rfl
        show ((s.freePages t 1).freeAll l).events = _
        rw [hevents, hfirst, List.append_assoc]
        rfl
      · intro hfound
        have hfirst : s.pages.freeRanges.length < maxFreeRanges := by
          by_contra hfull
          apply hfound t 1
          rw [decide_eq_false hfull]
          exact List.mem_cons_self
        obtain ⟨hlist, hfree⟩ := hroom fun base n hmem => hfound base n (List.mem_cons_of_mem _ hmem)
        rcases freePages_cases h hmem with ⟨hfull, -⟩ | ⟨-, ranges, hdone, htaken⟩
        · exact absurd hfirst (not_lt.2 hfull)
        · have hone : (s.freePages t 1).pages = { s.pages with freeRanges := ranges } := hdone
          constructor
          · rw [hlist, decide_eq_true hfirst, List.map_cons]
          · show freeAddresses ((s.freePages t 1).freeAll l).pages.freeRanges = _
            rw [hfree, hone, htaken.addresses, List.map_cons, Pool.out_cons, ← Set.union_assoc]
            rfl

/-- A call of `paging_map_user_range`. -/
structure UserMap where
  virtStart : Nat
  physStart : Nat
  size : Nat
  writable : Bool
  executable : Bool

/-- Calls of `paging_map_user_range` one after the other, whatever they answer. -/
def mapUserRanges (s : Kernel) (root : Nat) (calls : List UserMap) : Kernel :=
  calls.foldl
    (fun s call => (pagingMapUserRange s root call.virtStart call.physStart call.size
      call.writable call.executable).2) s

theorem UserSpace.mapUserRanges (h : UserSpace agree s root rest) (calls : List UserMap) :
    ∃ news, Grown agree root rest s news (mapUserRanges s root calls) := by
  induction calls generalizing s with
  | nil => exact ⟨[], .refl h⟩
  | cons call calls ih =>
      obtain ⟨news, hgrown⟩ := h.mapUserRange call.virtStart call.physStart call.size
        call.writable call.executable
      obtain ⟨news', hgrown'⟩ := ih hgrown.space
      exact ⟨news ++ news', hgrown.trans hgrown'⟩

/-- What is taken from the page allocator at most: so many blocks, and no range is put into the
table. -/
structure Spends (n : Nat) (s s' : Kernel) : Prop where
  events : s'.events.length ≤ s.events.length + n
  ranges : s'.pages.freeRanges.length ≤ s.pages.freeRanges.length

namespace Spends

theorem refl : Spends n s s := ⟨Nat.le_add_right _ _, le_rfl⟩

theorem mono (h : Spends n s s') (hle : n ≤ m) : Spends m s s' :=
  ⟨h.events.trans (Nat.add_le_add_left hle _), h.ranges⟩

theorem trans (h : Spends n s s') (h' : Spends m s' s'') : Spends (n + m) s s'' := by
  have hevents := h.events
  have hevents' := h'.events
  exact ⟨by omega, h'.ranges.trans h.ranges⟩

theorem allocPageTable : Spends 1 s (allocPageTable s).2 := by
  have hranges := allocPages_length s.pages 1
  rw [Memory.allocPageTable, Kernel.allocPages]
  rcases halloc : Memory.allocPages s.pages 1 with ⟨base, pages⟩
  rw [halloc] at hranges
  by_cases hbase : base = 0
  · simp only [hbase, if_true]
    exact ⟨Nat.le_add_right _ _, hranges⟩
  · simp only [if_neg hbase]
    exact ⟨by simp [Kernel.setTable], hranges⟩

variable {user : Bool}

theorem getOrCreateTable : Spends 1 s (getOrCreateTable s t index user).2 := by
  have halloc := allocPageTable (s := s)
  rw [Memory.getOrCreateTable]
  simp only
  split_ifs
  · exact refl
  · exact refl
  · exact refl
  · exact refl
  · exact halloc
  · exact ⟨halloc.events, halloc.ranges⟩

theorem getOrCreatePd {virt : Nat} : Spends 2 s (getOrCreatePd s root virt user).2 := by
  rw [Memory.getOrCreatePd]
  simp only
  split
  · exact getOrCreateTable.mono (by decide)
  · exact getOrCreateTable.trans getOrCreateTable

theorem splitLargePage : Spends 1 s (splitLargePage s t slot).2 := by
  have halloc := allocPageTable (s := s)
  rw [Memory.splitLargePage]
  simp only
  split_ifs
  · exact refl
  · exact halloc
  · exact ⟨halloc.events, halloc.ranges⟩

theorem preparePt : Spends 1 s (preparePt s t slot user).2 := by
  have halloc := allocPageTable (s := s)
  rw [Memory.preparePt]
  simp only
  split_ifs
  · exact splitLargePage
  · exact halloc
  · exact ⟨halloc.events, halloc.ranges⟩
  · exact refl
  · exact refl

theorem mapPage4k {virt phys : Nat} {writable executable : Bool} :
    Spends 3 s (mapPage4k s root virt phys writable executable user).2 := by
  rw [Memory.mapPage4k]
  have hboth : Spends 3 s (Memory.preparePt (Memory.getOrCreatePd s root virt user).2
      (Memory.getOrCreatePd s root virt user).1 (pdIndex virt) user).2 :=
    getOrCreatePd.trans preparePt
  simp only
  split
  · exact getOrCreatePd.mono (by decide)
  · split
    · exact hboth
    · exact ⟨hboth.events, hboth.ranges⟩

theorem whileOk {α : Type} {body : Kernel → α → Bool × Kernel} {l : List α}
    (hbody : ∀ s a, Spends n s (body s a).2) : Spends (n * l.length) s (whileOk body l s).2 := by
  induction l generalizing s with
  | nil => exact refl
  | cons a l ih =>
      simp only [Memory.whileOk]
      rw [List.length_cons, Nat.mul_succ]
      split
      · exact ((hbody s a).trans ih).mono (by omega)
      · exact (hbody s a).mono (by omega)

/-- A page mapped takes three tables at most. -/
theorem mapUserRange (s : Kernel) (root : Nat) (call : UserMap) :
    Spends (3 * (rangePages call.virtStart ((call.virtStart + call.size) % 2 ^ 64)).length) s
      (mapUserRanges s root [call]) := by
  have hrange : Spends (3 * (rangePages call.virtStart
      ((call.virtStart + call.size) % 2 ^ 64)).length) s (mapRangeInRoot s
        (alignDownPage root pageSize) call.virtStart call.physStart call.size call.writable
        call.executable true).2 := by
    rw [mapRangeInRoot]
    split_ifs
    · exact refl
    · exact refl
    · exact whileOk fun _ _ => mapPage4k
  rw [mapUserRanges, List.foldl_cons, List.foldl_nil, pagingMapUserRange]
  simp only [andThen]
  split_ifs
  · exact refl
  · exact ⟨hrange.events, hrange.ranges⟩
  · exact hrange
  · exact hrange

theorem create : Spends 1 s (pagingCreateAddressSpace s).2 := by
  have halloc := allocPageTable (s := s)
  rw [pagingCreateAddressSpace]
  simp only
  split_ifs
  · exact refl
  · exact halloc
  · exact ⟨halloc.events, halloc.ranges⟩

end Spends

theorem mergeFreeRange_length {before after : List FreePageRange} {base : Nat} :
    (mergeFreeRange before after base n).length ≤ before.length + after.length + 1 := by
  have hnext : (mergeFreeRange.mergeNext before after base n).length ≤
      before.length + after.length + 1 := by
    simp only [mergeFreeRange.mergeNext]
    split
    · split
      · simp
      · simp
        omega
    · simp
  rw [mergeFreeRange]
  split
  · simp only
    split
    · split
      · split <;> simp <;> omega
      · simp
    · exact hnext
  · exact hnext

/-- A table of free ranges grows by one range for each page freed, at most. -/
theorem freePages_length (pages : State) (ptr n : Nat) :
    (freePages pages ptr n).freeRanges.length ≤ pages.freeRanges.length + 1 := by
  have hsplit : (pages.freeRanges.takeWhile fun r => decide (r.base < ptr)).length +
      (pages.freeRanges.dropWhile fun r => decide (r.base < ptr)).length =
        pages.freeRanges.length := by
    rw [← List.length_append, List.takeWhile_append_dropWhile]
  rw [freePages]
  split
  · exact Nat.le_succ _
  · simp only [appendFreeRange]
    split_ifs
    · exact Nat.le_succ _
    · exact Nat.le_succ _
    · exact Nat.le_succ _
    · rw [← hsplit]
      exact mergeFreeRange_length

theorem Kernel.freeAll_events {l : List Nat} :
    ∃ events, (s.freeAll l).events = s.events ++ events := by
  induction l generalizing s with
  | nil => exact ⟨[], (List.append_nil _).symm⟩
  | cons t l ih =>
      obtain ⟨events, hevents⟩ := ih (s := s.freePages t 1)
      refine ⟨.freed t 1 (decide (s.pages.freeRanges.length < maxFreeRanges)) :: events, ?_⟩
      show ((s.freePages t 1).freeAll l).events = _
      rw [hevents, Kernel.freePages, List.append_assoc]
      rfl

/-- Where there is room for as many ranges as pages are freed, room is found for each. -/
theorem Kernel.freeAll_room {l : List Nat} {events : List PageEvent}
    (hroom : s.pages.freeRanges.length + l.length ≤ maxFreeRanges)
    (h : (s.freeAll l).events = s.events ++ events) : RoomFound events := by
  induction l generalizing s events with
  | nil =>
      have hnil : events = [] := List.self_eq_append_right.1 h
      rw [hnil]
      exact fun base n => List.not_mem_nil
  | cons t l ih =>
      have hlength : (t :: l).length = l.length + 1 := rfl
      have hgrows := freePages_length s.pages t 1
      have hfirst : decide (s.pages.freeRanges.length < maxFreeRanges) = true :=
        decide_eq_true (by omega)
      have hevents : (s.freePages t 1).events = s.events ++ [.freed t 1 true] := by
        rw [Kernel.freePages, hfirst]
      have hle : (s.freePages t 1).pages.freeRanges.length + l.length ≤ maxFreeRanges := by
        show (Memory.freePages s.pages t 1).freeRanges.length + l.length ≤ maxFreeRanges
        omega
      obtain ⟨later, hlater⟩ := Kernel.freeAll_events (s := s.freePages t 1) (l := l)
      have hrest := ih hle hlater
      have hsame : s.events ++ events = s.events ++ ([.freed t 1 true] ++ later) := by
        rw [← h, ← List.append_assoc, ← hevents, ← hlater]
        rfl
      rw [List.append_cancel_left hsame]
      intro base n hmem
      rcases List.mem_append.1 hmem with hone | hmore
      · simp at hone
      · exact hrest base n hmore

/-- What `paging_destroy_address_space` frees after `paging_map_user_range` has been called. -/
theorem Created.destroy_eq {blocks : List FreePageRange} {owned : List Nat} {rank : Nat → Nat}
    {s₁ s₂ : Kernel} (h : Created Eq s (owned.map page ++ blocks) root s₁)
    (hok : KernelOk s owned blocks rank) (hpml4 : s.pml4 ≠ 0)
    (hgrown : Grown Eq root (owned.map page ++ blocks) s₁ news s₂) :
    pagingDestroyAddressSpace s₂ root = s₂.freeAll (ownTables s₂ root ++ [root]) ∧
      (ownTables s₂ root ++ [root]).Perm (root :: news) := by
  have huntouched := h.untouched.trans hgrown.untouched
  have hsupervisor : ∀ i, (s₂.tables s₂.pml4 i).present = true →
      (s₂.tables s₂.pml4 i).user = false := by
    have hfour := hok.root hpml4
    have hkernel : page s.pml4 ∈ owned.map page ++ blocks :=
      List.mem_append_left _ (List.mem_map_of_mem (hok.ranked _ (by omega)))
    rw [huntouched.pml4, huntouched.tables _ hkernel]
    exact hok.supervisor hpml4
  have hshared : ∀ i, (s₂.tables root i).present = true → (s₂.tables root i).user = false →
      s₂.tables root i = s₂.tables s₂.pml4 i := by
    intro i hpresent huser
    rcases hgrown.space.top i hpresent with ⟨hyes, -⟩ | ⟨-, heq⟩
    · exact absurd (huser.symm.trans hyes) (by decide)
    · exact heq
  have htables := hgrown.tables
  rw [h.own, List.append_nil] at htables
  exact ⟨hgrown.space.destroy_eq hsupervisor hshared,
    (List.perm_append_singleton _ _).trans (htables.cons _)⟩

/-- An address space made, filled and destroyed: the pages given are the pages freed, each once,
the free pages are what they were, and the kernel's root translates as it did. -/
theorem destroy_of_maps {blocks : List FreePageRange} {calls : List UserMap} {s₁ : Kernel}
    (hboot : Booted s blocks) (hcreate : pagingCreateAddressSpace s = (root, s₁)) (hroot : root ≠ 0)
    (hroom : RoomFound ((pagingDestroyAddressSpace (mapUserRanges s₁ root calls) root).events.drop
      (mapUserRanges s₁ root calls).events.length)) :
    ∃ given freed : List Nat,
      (mapUserRanges s₁ root calls).events = s.events ++ given.map (fun t => .given t 1) ∧
      (pagingDestroyAddressSpace (mapUserRanges s₁ root calls) root).events =
        (mapUserRanges s₁ root calls).events ++ freed.map (fun t => .freed t 1 true) ∧
      root ∈ given ∧ freed.Nodup ∧ freed.Perm given ∧
      (pagingDestroyAddressSpace (mapUserRanges s₁ root calls) root).pages.freeRanges =
        s.pages.freeRanges ∧
      ∀ virt, translate (pagingDestroyAddressSpace (mapUserRanges s₁ root calls) root).tables
        s.pml4 virt = translate s.tables s.pml4 virt := by
  obtain ⟨owned, rank, hok⟩ := hboot.ready
  rcases pagingCreateAddressSpace_cases hok Eq fun _ => rfl with
    hnone | ⟨root', s', hpml4, -, hsome, hcreated⟩
  · rw [hnone] at hcreate
    exact absurd (Prod.mk.inj hcreate).1.symm hroot
  · rw [hsome] at hcreate
    obtain ⟨rfl, rfl⟩ := Prod.mk.inj hcreate
    obtain ⟨news, hgrown⟩ := hcreated.space.mapUserRanges calls
    set s₂ := Memory.mapUserRanges s' root' calls with hs₂
    have huntouched := hcreated.untouched.trans hgrown.untouched
    obtain ⟨hdestroy, hown⟩ := hcreated.destroy_eq hok hpml4 hgrown
    have hpages : Invariant (s₂.pages,
        (ownTables s₂ root' ++ [root']).map page ++ (owned.map page ++ blocks)) := by
      apply hgrown.space.pages.perm
      exact ((List.perm_append_singleton _ _).symm.map page).append_right _
    rw [hdestroy] at hroom ⊢
    obtain ⟨hafter, events, hevents, hfound⟩ := Kernel.freeAll_spec hpages
    rw [hevents, List.drop_left] at hroom
    obtain ⟨hlist, hfree⟩ := hfound hroom
    refine ⟨root' :: news, ownTables s₂ root' ++ [root'], ?_, ?_, List.mem_cons_self, ?_, hown, ?_, ?_⟩
    · rw [hgrown.events, hcreated.events, List.append_assoc, List.map_cons, List.singleton_append]
    · rw [hevents, hlist]
    · exact hpages.pages_nodup
    · apply hafter.freeRanges_ok.eq_of_addresses hok.pages.freeRanges_ok
      have hout : Pool.out FreePageRange.addresses ((ownTables s₂ root' ++ [root']).map page) =
          Pool.out FreePageRange.addresses ((root' :: news).map page) := by
        apply Set.ext
        intro x
        simp only [Pool.out, Set.mem_ofPred_eq, (hown.map page).mem_iff]
      rw [hfree, hout, hcreated.free, hgrown.free, List.map_cons, Pool.out_cons, Set.union_assoc,
        Set.union_comm (FreePageRange.addresses _)]
    · intro virt
      rw [Kernel.freeAll_tables]
      apply hok.translate_eq hpml4
      intro t ht
      exact huntouched.tables t (List.mem_append_left _ (List.mem_map_of_mem ht))

/-- An address space takes one page. -/
theorem pagingCreateAddressSpace_affords {live : List FreePageRange}
    (h : Invariant (s.pages, live)) (hne : s.pml4 ≠ 0) :
    Affords 1 s ((pagingCreateAddressSpace s).1 ≠ 0) (pagingCreateAddressSpace s).2 := by
  have halloc := allocPageTable_affords h
  rw [pagingCreateAddressSpace, if_neg hne]
  rcases hcall : allocPageTable s with ⟨table, s₁⟩
  rw [hcall] at halloc
  simp only
  split
  · next hzero => exact halloc.fail (not_not.2 hzero)
  · next hroot => exact ⟨fun _ => hroot, halloc.takes, halloc.ranges⟩

theorem pagingCreateAddressSpace_succeeds {owned : List Nat} {blocks : List FreePageRange}
    {rank : Nat → Nat} (h : KernelOk s owned blocks rank) (hne : s.pml4 ≠ 0)
    (hleft : 0 < s.pagesLeft) (agree : Entry → Entry → Prop) (hagree : ∀ e, agree e e) :
    ∃ root s', root ≠ 0 ∧ pagingCreateAddressSpace s = (root, s') ∧
      Created agree s (owned.map page ++ blocks) root s' := by
  have hsucceeds := (pagingCreateAddressSpace_affords h.pages hne).succeeds hleft
  rcases pagingCreateAddressSpace_cases h agree hagree with
    hnone | ⟨root, s', -, hroot, hsome, hcreated⟩
  · rw [hnone] at hsucceeds
    exact absurd rfl hsucceeds
  · exact ⟨root, s', hroot, hsome, hcreated⟩

/-- A page in the region where processes live. -/
def sampleUserMap : UserMap := ⟨0x8000000000, 0x300000, 4096, true, false⟩

/-- An address space made, given a page and destroyed in 64 MiB. -/
theorem destroy_of_maps_started : ∃ (s s₁ : Kernel) (root : Nat), Booted s [] ∧
    pagingCreateAddressSpace s = (root, s₁) ∧ root ≠ 0 ∧
    (pagingDestroyAddressSpace (mapUserRanges s₁ root [sampleUserMap]) root).pages.freeRanges =
      s.pages.freeRanges := by
  obtain ⟨s, hstarted, hleft, hranges⟩ := exists_started
  obtain ⟨owned, rank, hok⟩ := hstarted.booted.ready
  obtain ⟨root, s₁, hroot, hsome, hcreated⟩ :=
    pagingCreateAddressSpace_succeeds hok hstarted.root (by omega) Eq fun _ => rfl
  refine ⟨s, s₁, root, hstarted.booted, hsome, hroot, ?_⟩
  have hcreate := Spends.create (s := s)
  rw [hsome] at hcreate
  have hmap := Spends.mapUserRange s₁ root sampleUserMap
  obtain ⟨news, hgrown⟩ := hcreated.space.mapUserRanges [sampleUserMap]
  obtain ⟨hdestroy, hfreed⟩ := hcreated.destroy_eq hok hstarted.root hgrown
  have hcount : (rangePages sampleUserMap.virtStart
      ((sampleUserMap.virtStart + sampleUserMap.size) % 2 ^ 64)).length = 1 := by decide +kernel
  have hevents := hmap.events
  rw [hgrown.events, List.length_append, List.length_map, hcount] at hevents
  have hlength := hfreed.length_eq
  rw [List.length_cons] at hlength
  have hroom : RoomFound ((pagingDestroyAddressSpace (mapUserRanges s₁ root [sampleUserMap])
      root).events.drop (mapUserRanges s₁ root [sampleUserMap]).events.length) := by
    rw [hdestroy]
    obtain ⟨events, hafter⟩ := Kernel.freeAll_events (s := mapUserRanges s₁ root [sampleUserMap])
      (l := ownTables (mapUserRanges s₁ root [sampleUserMap]) root ++ [root])
    rw [hafter, List.drop_left]
    apply Kernel.freeAll_room _ hafter
    have hmax : maxFreeRanges = 256 := rfl
    have hcreateRanges : s₁.pages.freeRanges.length ≤ s.pages.freeRanges.length := hcreate.ranges
    have hmapRanges := hmap.ranges
    omega
  obtain ⟨given, freed, -, -, -, -, -, hsame, -⟩ :=
    destroy_of_maps hstarted.booted hsome hroot hroom
  exact hsame

end FunnyOS.Memory
