import FunnyOS.Memory.PagingInit
import FunnyOS.Memory.SharedTables

/-!
# What `map_range_in_root` maps

A call of `map_page_4k` gives one page its new meaning and leaves every other page under the root
as it was. So does the whole range, page for page, and a call that fails half way has mapped some
of its pages and changed no other.
-/

namespace FunnyOS.Memory

variable {s s' : Kernel} {owned : List Nat} {rest blocks : List FreePageRange} {rank : Nat → Nat}
  {root virt phys : Nat} {writable executable user : Bool} {roots : List Nat} {kept : Set Nat}

/-- The number of the page of an address, of which translation reads 36 bits. -/
def pageOf (addr : Nat) : Nat := addr / pageSize % 2 ^ 36

theorem slots_of_pageOf {addr : Nat} (h : pageOf addr = pageOf virt) {k : Nat} (hk : k < 4) :
    slotOf addr k = slotOf virt k :=
  slots_eq_iff.2 h k hk

/-- The entry for a page, written in the table that the walk comes to. -/
theorem TablesOk.writeLeaf {pt : Nat} (h : TablesOk s owned rest rank) (hroot : rank root = 4)
    (hwalk : Walk Entry.child s.tables (slotOf virt) 4 root 1 pt) (e : Entry) (user : Bool) :
    Grows root user {addr | pageOf addr ≠ pageOf virt} rest rank s
      (s.setEntry pt (ptIndex virt) e) owned rank := by
  have hpt := h.tree.rank_of_walk le_rfl hwalk hroot
  have hne : ∀ t i, rank t ≠ 1 → (t, i) ≠ (pt, ptIndex virt) := by
    intro t i ht heq
    obtain ⟨rfl, -⟩ := Prod.mk.inj heq
    exact ht hpt
  constructor
  · exact h.setEntry (by omega) (.inl hpt)
  · exact fun _ _ => rfl
  · rfl
  · intro t i c ht _
    exact Kernel.setEntry_other s e (hne t i (by omega))
  · intro i
    exact .inl (Kernel.setEntry_other s e (hne root i (by omega)))
  · intro addr haddr
    apply translateFrom_write h.tree hpt (fun t j hslot => Kernel.setEntry_other s e hslot) hroot
    intro hwalk' hslot
    -- a walk that comes to the same table has taken the same slots
    have hpath := (h.tree.path_eq le_rfl le_rfl hwalk' hwalk hroot hroot).1
    apply haddr
    apply slots_eq_iff.1
    intro k hk
    cases k with
    | zero => exact hslot
    | succ k => exact hpath (k + 1) (by omega) hk

/-- The way to a table of level 2 is not changed any more. -/
theorem PdAt.of_grows {owned' : List Nat} {rank' : Nat → Nat} {root' pdpt pd : Nat} {user' : Bool}
    (hat : PdAt s.tables root virt user pdpt pd) (hroot : rank root = 4) (hpdpt : rank pdpt = 3)
    (h : Grows root' user' kept rest rank s s' owned' rank') :
    PdAt s'.tables root virt user pdpt pd := by
  have hfirst := h.links root _ pdpt (by omega) hat.first
  have hsecond := h.links pdpt _ pd (by omega) hat.second
  constructor
  · rw [hfirst]
    exact hat.first
  · rw [hsecond]
    exact hat.second
  · rw [hfirst]
    exact hat.firstUser
  · rw [hsecond]
    exact hat.secondUser

/-- The four entries of a page that is mapped, and what they say together. -/
theorem TablesOk.translate_leaf {pdpt pd pt addr : Nat} (h : TablesOk s owned rest rank)
    (hroot : rank root = 4) (hat : PdAt s.tables root virt user pdpt pd)
    (hpt : (s.tables pd (pdIndex virt)).child = some pt)
    (hptUser : user = true → (s.tables pd (pdIndex virt)).user = true)
    (hleaf : s.tables pt (ptIndex virt) = leafEntry phys writable executable user)
    (hphys : phys % pageSize = 0) (hlt : phys < 2 ^ 52) (haddr : pageOf addr = pageOf virt) :
    translate s.tables root addr =
      some ⟨phys + addr % pageSize, writable, user, executable⟩ := by
  obtain ⟨hpdpt, hpd⟩ := h.pd_rank hroot hat
  have hslot : ∀ k < 4, slotOf addr k = slotOf virt k := fun k hk => slots_of_pageOf haddr hk
  have hfirst : (s.tables root (slotOf addr 3)).child = some pdpt := by
    rw [hslot 3 (by decide)]
    exact hat.first
  have hsecond : (s.tables pdpt (slotOf addr 2)).child = some pd := by
    rw [hslot 2 (by decide)]
    exact hat.second
  have hthird : (s.tables pd (slotOf addr 1)).child = some pt := by
    rw [hslot 1 (by decide)]
    exact hpt
  have hfourth : s.tables pt (slotOf addr 0) = leafEntry phys writable executable user := by
    rw [hslot 0 (by decide)]
    exact hleaf
  have hpresent : (s.tables pt (slotOf addr 0)).present = true := by
    rw [hfourth]
    exact leafEntry_present
  rw [translate, translateFrom_child hfirst, ((h.entries root _ (by omega)).leads _ hfirst).grants_eq,
    translateFrom_child hsecond, ((h.entries pdpt _ (by omega)).leads _ hsecond).grants_eq,
    translateFrom_child hthird, ((h.entries pd _ (by omega)).leads _ hthird).grants_eq,
    translateFrom_leaf hpresent, hfourth]
  rw [leafEntry_ends hphys hlt rfl rfl]
  intro huser
  rw [hslot 3 (by decide), hslot 2 (by decide), hslot 1 (by decide)]
  have hone : (s.tables root (slotOf virt 3)).user = true := hat.firstUser huser
  have htwo : (s.tables pdpt (slotOf virt 2)).user = true := hat.secondUser huser
  have hthree : (s.tables pd (slotOf virt 1)).user = true := hptUser huser
  rw [hone, htwo, hthree]
  rfl

/-- `map_page_4k`, which keeps every other page, and where it succeeds maps its own. -/
theorem TablesOk.mapPage4k (h : TablesOk s owned rest rank) (hroot : rank root = 4)
    (virt phys : Nat) (writable executable user : Bool) :
    ∃ owned' rank', Grows root user {addr | pageOf addr ≠ pageOf virt} rest rank s
        (mapPage4k s root virt phys writable executable user).2 owned' rank' ∧
      ((mapPage4k s root virt phys writable executable user).1 = true → phys % pageSize = 0 →
        phys < 2 ^ 52 → ∀ addr, pageOf addr = pageOf virt →
          translate (mapPage4k s root virt phys writable executable user).2.tables root addr =
            some ⟨phys + addr % pageSize, writable, user, executable⟩) := by
  obtain ⟨owned₁, rank₁, hgrows₁, hfound⟩ := h.getOrCreatePd hroot virt user
  rcases hget : Memory.getOrCreatePd s root virt user with ⟨pd, s₁⟩
  rw [hget] at hgrows₁ hfound
  have hroot₁ : rank₁ root = 4 := by rw [hgrows₁.keeps root (by omega), hroot]
  simp only [Memory.mapPage4k, hget]
  split
  · exact ⟨owned₁, rank₁, hgrows₁.mono (Set.subset_univ _), by simp⟩
  · next hpd =>
      obtain ⟨pdpt, hat⟩ := hfound hpd
      have hat : PdAt s₁.tables root virt user pdpt pd := hat
      obtain ⟨hpdpt, hpd⟩ := hgrows₁.ok.pd_rank hroot₁ hat
      have hsmall : user = true → (s₁.tables pd (pdIndex virt)).large = false := by
        intro huser
        exact hgrows₁.ok.guarded root _ pdpt _ pd _ hroot₁ (hat.firstUser huser) hat.first hat.second
      obtain ⟨owned₂, rank₂, hgrows₂, hprepared⟩ :=
        hgrows₁.ok.preparePt hroot₁ hpd (pdIndex virt) user hsmall
      rcases hprepare : Memory.preparePt s₁ pd (pdIndex virt) user with ⟨ok, s₂⟩
      rw [hprepare] at hgrows₂ hprepared
      simp only
      split
      · exact ⟨owned₂, rank₂, (hgrows₁.trans hgrows₂).mono (Set.subset_univ _), by simp⟩
      · next hok =>
          obtain ⟨pt, hpt, hptUser⟩ := hprepared (by simpa using hok)
          have hroot₂ : rank₂ root = 4 := by rw [hgrows₂.keeps root (by omega), hroot₁]
          have hpdpt₂ : rank₂ pdpt = 3 := by rw [hgrows₂.keeps pdpt (by omega), hpdpt]
          have hpd₂ : rank₂ pd = 2 := by rw [hgrows₂.keeps pd (by omega), hpd]
          have hat₂ := hat.of_grows hroot₁ hpdpt hgrows₂
          have hwalk : Walk Entry.child s₂.tables (slotOf virt) 4 root 1 pt :=
            .down hat₂.first (.down hat₂.second (.down hpt (.here 1 pt)))
          have hgrows₃ := hgrows₂.ok.writeLeaf hroot₂ hwalk
            (leafEntry phys writable executable user) user
          rw [(Entry.child_eq_some hpt).2.2]
          refine ⟨owned₂, rank₂, ((hgrows₁.trans hgrows₂).mono (Set.subset_univ _)).trans hgrows₃, ?_⟩
          intro _ hphys hlt addr haddr
          have hpt₂ := hgrows₂.ok.tree.points pd _ pt (by omega) hpt
          have hslot : (pd, pdIndex virt) ≠ (pt, ptIndex virt) := by
            intro heq
            obtain ⟨rfl, -⟩ := Prod.mk.inj heq
            omega
          have hsame := Kernel.setEntry_other s₂ (leafEntry phys writable executable user) hslot
          have hpt₃ : ((s₂.setEntry pt (ptIndex virt) (leafEntry phys writable executable
              user)).tables pd (pdIndex virt)).child = some pt := by
            rw [hsame]
            exact hpt
          apply hgrows₃.ok.translate_leaf hroot₂ (hat₂.of_grows hroot₂ hpdpt₂ hgrows₃) hpt₃ _
            (Kernel.setEntry_self _ _ _ _) hphys hlt haddr
          rw [hsame]
          exact hptUser

/-- The tables are in order, and `roots` are roots among them. -/
def RootsOk (s : Kernel) (rest : List FreePageRange) (roots : List Nat) : Prop :=
  ∃ owned rank, TablesOk s owned rest rank ∧ ∀ r ∈ roots, r ≠ 0 → rank r = 4

/-- A mapping of one page: the page's meaning is new where the call succeeds, and no other page's
changes. -/
theorem RootsOk.mapPage4k (h : RootsOk s rest roots) (hmem : root ∈ roots) (hne : root ≠ 0)
    (virt phys : Nat) (writable executable user : Bool) :
    RootsOk (mapPage4k s root virt phys writable executable user).2 rest roots ∧
    (∀ addr, pageOf addr ≠ pageOf virt →
      translate (mapPage4k s root virt phys writable executable user).2.tables root addr =
        translate s.tables root addr) ∧
    ((mapPage4k s root virt phys writable executable user).1 = true → phys % pageSize = 0 →
      phys < 2 ^ 52 → ∀ addr, pageOf addr = pageOf virt →
        translate (mapPage4k s root virt phys writable executable user).2.tables root addr =
          some ⟨phys + addr % pageSize, writable, user, executable⟩) := by
  obtain ⟨owned, rank, hok, hroots⟩ := h
  obtain ⟨owned', rank', hgrows, hmaps⟩ :=
    hok.mapPage4k (hroots root hmem hne) virt phys writable executable user
  refine ⟨⟨owned', rank', hgrows.ok, ?_⟩, hgrows.walks, hmaps⟩
  intro r hr hzero
  have hfour := hroots r hr hzero
  rw [hgrows.keeps r (by omega), hfour]

/-- The loop of `map_range_in_root` over some pages. The pages after the first leave it alone, for
each page comes once. -/
theorem RootsOk.mapPages {l : List Nat} (h : RootsOk s rest roots) (hmem : root ∈ roots)
    (hne : root ≠ 0) (physOf : Nat → Nat) (writable executable user : Bool)
    {result : Bool × Kernel}
    (hresult : whileOk (fun s virt => Memory.mapPage4k s root virt (physOf virt) writable executable
      user) l s = result) :
    RootsOk result.2 rest roots ∧
    (∀ addr, (∀ virt ∈ l, pageOf addr ≠ pageOf virt) →
      translate result.2.tables root addr = translate s.tables root addr) ∧
    (result.1 = true → (l.map pageOf).Nodup → ∀ virt ∈ l, physOf virt % pageSize = 0 →
      physOf virt < 2 ^ 52 → ∀ addr, pageOf addr = pageOf virt →
        translate result.2.tables root addr =
          some ⟨physOf virt + addr % pageSize, writable, user, executable⟩) := by
  induction l generalizing s with
  | nil =>
      subst hresult
      exact ⟨h, fun _ _ => rfl, fun _ _ virt hvirt => absurd hvirt List.not_mem_nil⟩
  | cons virt l ih =>
      obtain ⟨hfirst, hkeeps, hmaps⟩ :=
        h.mapPage4k hmem hne virt (physOf virt) writable executable user
      rcases hstep : Memory.mapPage4k s root virt (physOf virt) writable executable user with ⟨ok, s₁⟩
      rw [hstep] at hfirst hkeeps hmaps
      simp only [whileOk, hstep] at hresult
      split at hresult
      · next hok =>
          obtain ⟨hlast, hkeeps', hmaps'⟩ := ih hfirst hresult
          refine ⟨hlast, ?_, ?_⟩
          · intro addr haddr
            rw [hkeeps' addr fun v hv => haddr v (List.mem_cons_of_mem _ hv)]
            exact hkeeps addr (haddr virt List.mem_cons_self)
          · intro hdone hnodup v hv hphys hlt addr haddr
            rw [List.map_cons, List.nodup_cons] at hnodup
            rcases List.mem_cons.1 hv with rfl | hv
            · rw [hkeeps' addr]
              · exact hmaps hok hphys hlt addr haddr
              · intro w hw heq
                apply hnodup.1
                rw [← haddr, heq]
                exact List.mem_map_of_mem hw
            · exact hmaps' hdone hnodup.2 v hv hphys hlt addr haddr
      · subst hresult
        refine ⟨hfirst, ?_, by simp⟩
        intro addr haddr
        exact hkeeps addr (haddr virt List.mem_cons_self)

/-- The addresses, in 48 bits, of the pages that a range touches. -/
def InPages (virtStart size addr : Nat) : Prop :=
  alignDownPage virtStart pageSize ≤ addr % 2 ^ 48 ∧
    addr % 2 ^ 48 < alignUpPage (virtStart + size) pageSize

/-- The pages of a range that ends below the last page of 48 bits. -/
structure RangePages (virtStart size : Nat) (l : List Nat) : Prop where
  once : (l.map pageOf).Nodup
  inside : ∀ virt ∈ l, ∀ addr, pageOf addr = pageOf virt → InPages virtStart size addr
  covers : ∀ i < size, (virtStart + i) / pageSize * pageSize ∈ l

theorem alignUpPage_eq {n : Nat} (hn : n ≤ 2 ^ 48) :
    alignUpPage n pageSize = (n + 4095) / 4096 * 4096 := by
  show (n + 4096 - 1) % 2 ^ 64 / 4096 * 4096 = _
  rw [Nat.mod_eq_of_lt (by omega)]
  omega

theorem rangePages_eq (virtStart : Nat) {stop : Nat} (hstop : stop ≤ 2 ^ 48) :
    rangePages virtStart stop =
      (List.range (((stop + 4095) / 4096 * 4096 - virtStart / 4096 * 4096) / 4096)).map
        fun i => virtStart / 4096 * 4096 + i * 4096 := by
  rw [rangePages, alignUpPage_eq hstop]
  rfl

theorem rangePages_pages {virtStart size : Nat} (hsize : virtStart + size ≤ 2 ^ 48 - pageSize) :
    RangePages virtStart size (rangePages virtStart (virtStart + size)) := by
  have hsize : virtStart + size ≤ 2 ^ 48 - 4096 := hsize
  have hdown : alignDownPage virtStart pageSize = virtStart / 4096 * 4096 := rfl
  have hpage : ∀ addr, pageOf addr = addr / 4096 % 2 ^ 36 := fun _ => rfl
  have hstop : virtStart + size ≤ 2 ^ 48 := by omega
  have hup := alignUpPage_eq hstop
  have hpages := rangePages_eq virtStart hstop
  constructor
  · rw [hpages, List.map_map]
    apply List.Nodup.map_on _ List.nodup_range
    intro i hi j hj heq
    rw [List.mem_range] at hi hj
    simp only [Function.comp_apply, hpage] at heq
    omega
  · intro virt hvirt addr heq
    simp only [hpages, List.mem_map, List.mem_range] at hvirt
    obtain ⟨i, hi, rfl⟩ := hvirt
    rw [hpage, hpage] at heq
    rw [InPages, hdown, hup]
    omega
  · intro i hi
    simp only [hpages, List.mem_map, List.mem_range]
    refine ⟨(virtStart + i) / 4096 - virtStart / 4096, ?_, ?_⟩
    · omega
    · show _ = (virtStart + i) / 4096 * 4096
      omega

/-- `map_range_in_root`. -/
theorem RootsOk.mapRangeInRoot (h : RootsOk s rest roots) (hmem : root ∈ roots)
    (virtStart physStart size : Nat) (writable executable user : Bool) :
    RootsOk (mapRangeInRoot s root virtStart physStart size writable executable user).2 rest roots ∧
    (virtStart + size ≤ 2 ^ 48 - pageSize → ∀ addr, ¬ InPages virtStart size addr →
      translate (mapRangeInRoot s root virtStart physStart size writable executable user).2.tables
        root addr = translate s.tables root addr) ∧
    (virtStart + size ≤ 2 ^ 48 - pageSize → physStart + size ≤ 2 ^ 51 →
      virtStart % pageSize = physStart % pageSize →
      (mapRangeInRoot s root virtStart physStart size writable executable user).1 = true →
      ∀ i < size,
        translate (mapRangeInRoot s root virtStart physStart size writable executable user).2.tables
          root (virtStart + i) = some ⟨physStart + i, writable, user, executable⟩) := by
  rw [Memory.mapRangeInRoot]
  split
  · exact ⟨h, fun _ _ _ => rfl, by simp⟩
  · next hroot =>
      rw [not_or] at hroot
      split
      · exact ⟨h, fun _ _ _ => rfl, by simp⟩
      · obtain ⟨hok, hkeeps, hmaps⟩ := h.mapPages hmem hroot.1 (fun virt =>
          (alignDownPage physStart pageSize + (virt - alignDownPage virtStart pageSize)) % 2 ^ 64)
          writable executable user rfl
        refine ⟨hok, ?_, ?_⟩
        · intro hvirt addr hout
          have hvirt' : virtStart + size ≤ 2 ^ 48 - 4096 := hvirt
          have hpages := rangePages_pages hvirt
          rw [Nat.mod_eq_of_lt (by omega)] at hkeeps ⊢
          apply hkeeps addr
          intro virt hv heq
          exact hout (hpages.inside virt hv addr heq)
        · intro hvirt hphys hmod hdone i hi
          have hvirt' : virtStart + size ≤ 2 ^ 48 - 4096 := hvirt
          have hmod : virtStart % 4096 = physStart % 4096 := hmod
          have hpages := rangePages_pages hvirt
          rw [Nat.mod_eq_of_lt (by omega)] at hmaps hdone ⊢
          -- where the page of `virtStart + i` was put
          have hphysOf : (alignDownPage physStart pageSize + ((virtStart + i) / pageSize * pageSize -
              alignDownPage virtStart pageSize)) % 2 ^ 64 = (physStart + i) / 4096 * 4096 := by
            show (physStart / 4096 * 4096 + ((virtStart + i) / 4096 * 4096 -
              virtStart / 4096 * 4096)) % 2 ^ 64 = _
            rw [Nat.mod_eq_of_lt (by omega)]
            omega
          have hone := hmaps hdone hpages.once _ (hpages.covers i hi)
          rw [hphysOf] at hone
          have hsame : pageOf (virtStart + i) = pageOf ((virtStart + i) / pageSize * pageSize) := by
            show (virtStart + i) / 4096 % 2 ^ 36 = (virtStart + i) / 4096 * 4096 / 4096 % 2 ^ 36
            omega
          rw [hone (Nat.mul_mod_left _ 4096) (by omega) _ hsame]
          have hsum : (physStart + i) / 4096 * 4096 + (virtStart + i) % pageSize = physStart + i := by
            show (physStart + i) / 4096 * 4096 + (virtStart + i) % 4096 = _
            omega
          rw [hsum]

end FunnyOS.Memory
