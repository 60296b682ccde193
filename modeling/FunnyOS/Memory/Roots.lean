import FunnyOS.Memory.AddressSpace
import FunnyOS.Memory.MapRange

/-!
# The roots that there are

`paging_init` builds a new root, into which no entry lets user code, and `paging_create_address_space`
makes one that holds the kernel's entries. In any run of these and of the calls that map ranges the
tables of all roots stay in order, so that `map_range_in_root` maps what it was asked under each.
-/

namespace FunnyOS.Memory

variable {s s' : Kernel} {owned owned' : List Nat} {rest blocks : List FreePageRange}
  {rank rank' : Nat → Nat} {root virt phys c pd pdpt : Nat} {writable executable user : Bool}
  {roots : List Nat} {kept : Set Nat} {e : Entry}

/-- No entry of a root lets user code through. -/
def Supervisor (s : Kernel) (root : Nat) : Prop :=
  ∀ i u, (s.tables root i).child = some u → (s.tables root i).user = false

theorem Supervisor.of_grows (h : Supervisor s root)
    (hgrows : Grows root false kept rest rank s s' owned' rank') : Supervisor s' root := by
  intro i u hu
  rcases hgrows.top i with hsame | hfalse
  · rw [hsame] at hu ⊢
    exact h i u hu
  · exact hfalse

/-- The kernel's root while `paging_init` fills it, and the other roots. -/
def Filling (rest : List FreePageRange) (roots : List Nat) (root : Nat) (s : Kernel) : Prop :=
  s.pml4 = root ∧ Supervisor s root ∧ ∃ owned rank, TablesOk s owned rest rank ∧ rank root = 4 ∧
    ∀ r ∈ roots, r ≠ 0 → rank r = 4

theorem Filling.of_grows (hroot : s.pml4 = root) (hsupervisor : Supervisor s root)
    (hfour : rank root = 4) (hroots : ∀ r ∈ roots, r ≠ 0 → rank r = 4)
    (hgrows : Grows root false kept rest rank s s' owned' rank') : Filling rest roots root s' := by
  refine ⟨hgrows.pml4.trans hroot, hsupervisor.of_grows hgrows, owned', rank', hgrows.ok, ?_, ?_⟩
  · rw [hgrows.keeps root (by omega), hfour]
  · intro r hr hne
    have hrank := hroots r hr hne
    rw [hgrows.keeps r (by omega), hrank]

/-- An entry for a large page, written where user code may not come. -/
theorem TablesOk.writeLarge (h : TablesOk s owned rest rank) (hroot : rank root = 4)
    (hsupervisor : Supervisor s root) (hat : PdAt s.tables root virt user pdpt pd)
    (hnone : e.child = none) (hpresent : e.present = true) :
    Grows root false ∅ rest rank s (s.setEntry pd (pdIndex virt) e) owned rank := by
  obtain ⟨hpdpt, hpd⟩ := h.pd_rank hroot hat
  have hne : ∀ t i, 3 ≤ rank t → (s.setEntry pd (pdIndex virt) e).tables t i = s.tables t i := by
    intro t i ht
    apply Kernel.setEntry_other
    intro heq
    obtain ⟨rfl, -⟩ := Prod.mk.inj heq
    omega
  constructor
  · apply h.setEntry (by omega)
    refine .inr ⟨hpd, hnone, hpresent, ?_⟩
    intro r i u j hr hu hd
    -- one entry leads to the table of level 2, and the entries that lead to that one are equal
    have hrank := h.tree.points r i u (by omega) hu
    obtain ⟨-, -, htable⟩ := h.tree.once u pdpt j _ pd (by omega) (by omega) hd hat.second
    obtain rfl := htable (by omega)
    obtain ⟨-, hequal, -⟩ := h.tree.once r root i _ u (by omega) (by omega) hu hat.first
    rw [hequal]
    exact hsupervisor _ _ hat.first
  · exact fun _ _ => rfl
  · rfl
  · exact fun t i _ ht _ => hne t i ht
  · exact fun i => .inl (hne root i (by omega))
  · exact fun virt hvirt => absurd hvirt (Set.notMem_empty virt)

/-- A call leaves a state with a property, whatever it answers. -/
def Leaves (P : Kernel → Prop) (result : Bool × Kernel) : Prop := P result.2

namespace Leaves

variable {P : Kernel → Prop}

/-- A loop keeps what its body keeps. -/
theorem whileOk {α : Type} {body : Kernel → α → Bool × Kernel} {l : List α} (h : P s)
    (hbody : ∀ s a, P s → Leaves P (body s a)) : Leaves P (whileOk body l s) := by
  induction l generalizing s with
  | nil => exact h
  | cons a l ih =>
      have hfirst := hbody s a h
      rcases hstep : body s a with ⟨ok, s₁⟩
      rw [hstep] at hfirst
      simp only [Memory.whileOk, hstep]
      split
      · exact ih hfirst
      · exact hfirst

theorem andThen {first : Bool × Kernel} {next : Kernel → Bool × Kernel} (h : Leaves P first)
    (hnext : ∀ s, P s → Leaves P (next s)) : Leaves P (andThen first next) := by
  rw [Memory.andThen]
  split
  · exact hnext first.2 h
  · exact h

end Leaves

namespace Filling

theorem mapPage4k (h : Filling rest roots root s) (virt phys : Nat) (writable executable : Bool) :
    Leaves (Filling rest roots root) (mapPage4k s root virt phys writable executable false) := by
  obtain ⟨hroot, hsupervisor, owned, rank, hok, hfour, hroots⟩ := h
  obtain ⟨owned', rank', hgrows, -⟩ := hok.mapPage4k hfour virt phys writable executable false
  exact .of_grows hroot hsupervisor hfour hroots hgrows

theorem mapPage2m (h : Filling rest roots root s) (virt phys : Nat) (writable executable : Bool) :
    Leaves (Filling rest roots root) (mapPage2m s s.pml4 virt phys writable executable false) := by
  obtain ⟨hroot, hsupervisor, owned, rank, hok, hfour, hroots⟩ := h
  rw [hroot]
  obtain ⟨owned₁, rank₁, hgrows₁, hfound⟩ := hok.getOrCreatePd hfour virt false
  rcases hget : getOrCreatePd s root virt false with ⟨pd, s₁⟩
  rw [hget] at hgrows₁ hfound
  simp only [Memory.mapPage2m, hget]
  split
  · exact .of_grows hroot hsupervisor hfour hroots hgrows₁
  · next hpd =>
      obtain ⟨pdpt, hat⟩ := hfound hpd
      have hat : PdAt s₁.tables root virt false pdpt pd := hat
      have hfour₁ : rank₁ root = 4 := by rw [hgrows₁.keeps root (by omega), hfour]
      have hbits : Entry.child (BitVec.ofNat 64 phys ||| (if executable = true then
            pagingDefaultLeafFlags writable false ||| pagePageSize
          else pagingDefaultLeafFlags writable false ||| pagePageSize ||| pageNx)) = none ∧
          Entry.present (BitVec.ofNat 64 phys ||| (if executable = true then
            pagingDefaultLeafFlags writable false ||| pagePageSize
          else pagingDefaultLeafFlags writable false ||| pagePageSize ||| pageNx)) = true := by
        apply largeEntry_bits
        · cases executable <;> cases writable <;> decide
        · cases executable <;> cases writable <;> decide
      have hgrows₂ := hgrows₁.ok.writeLarge hfour₁ (hsupervisor.of_grows hgrows₁) hat hbits.1 hbits.2
      exact .of_grows hroot hsupervisor hfour hroots
        ((hgrows₁.mono (Set.subset_univ _)).trans hgrows₂)

theorem mapKernelChunk (h : Filling rest roots root s) (cursor : Nat) :
    Leaves (Filling rest roots root) (mapKernelChunk s cursor) := by
  obtain ⟨hroot, hsupervisor, owned, rank, hok, hfour, hroots⟩ := h
  rw [Memory.mapKernelChunk, hroot]
  obtain ⟨owned₁, rank₁, hgrows₁, hfound⟩ := hok.getOrCreatePd hfour cursor false
  rcases hget : getOrCreatePd s root cursor false with ⟨pd, s₁⟩
  rw [hget] at hgrows₁ hfound
  simp only
  split
  · exact .of_grows hroot hsupervisor hfour hroots hgrows₁
  · next hpd =>
      obtain ⟨pdpt, hat⟩ := hfound hpd
      have hat : PdAt s₁.tables root cursor false pdpt pd := hat
      have hfour₁ : rank₁ root = 4 := by rw [hgrows₁.keeps root (by omega), hfour]
      obtain ⟨-, hpd⟩ := hgrows₁.ok.pd_rank hfour₁ hat
      have hset : Grows root false ∅ rest rank₁ s₁ (ensureChunk s₁ pd (pdIndex cursor) cursor)
          owned₁ rank₁ := by
        rw [ensureChunk]
        split
        · have hbits : Entry.child (BitVec.ofNat 64 cursor ||| pagePresent ||| pageWritable |||
              pagePageSize) = none ∧ Entry.present (BitVec.ofNat 64 cursor ||| pagePresent |||
              pageWritable ||| pagePageSize) = true := by
            rw [BitVec.or_assoc, BitVec.or_assoc]
            exact largeEntry_bits (by decide) (by decide)
          exact hgrows₁.ok.writeLarge hfour₁ (hsupervisor.of_grows hgrows₁) hat hbits.1 hbits.2
        · exact .refl hgrows₁.ok
      have hboth := (hgrows₁.mono (Set.empty_subset _)).trans hset
      split
      · obtain ⟨owned₂, rank₂, hgrows₂, -⟩ :=
          hset.ok.splitLargePage hfour₁ hpd (pdIndex cursor) false
        exact .of_grows hroot hsupervisor hfour hroots
          (hboth.trans (hgrows₂.mono (Set.empty_subset _)))
      · exact .of_grows hroot hsupervisor hfour hroots hboth

theorem mapRangeInRoot (h : Filling rest roots root s) (virtStart physStart size : Nat)
    (writable executable : Bool) : Leaves (Filling rest roots root)
      (mapRangeInRoot s s.pml4 virtStart physStart size writable executable false) := by
  rw [h.1, Memory.mapRangeInRoot]
  split
  · exact h
  · split
    · exact h
    · apply Leaves.whileOk h
      intro s₁ virt h₁
      exact h₁.mapPage4k virt _ writable executable

theorem mapRangeIdentityKernel (h : Filling rest roots root s) (start stop : Nat)
    (writable executable : Bool) :
    Leaves (Filling rest roots root) (mapRangeIdentityKernel s start stop writable executable) := by
  rw [Memory.mapRangeIdentityKernel]
  exact h.mapRangeInRoot start start (sub64 stop start) writable executable

theorem mapKernelImage (h : Filling rest roots root s) (layout : KernelLayout) :
    Leaves (Filling rest roots root) (mapKernelImage layout s) := by
  rw [Memory.mapKernelImage]
  apply Leaves.andThen
  · apply Leaves.whileOk h
    intro s₁ cursor h₁
    exact h₁.mapKernelChunk cursor
  · intro s₁ h₁
    apply Leaves.andThen (h₁.mapRangeIdentityKernel _ _ _ _)
    intro s₂ h₂
    apply Leaves.andThen (h₂.mapRangeIdentityKernel _ _ _ _)
    intro s₃ h₃
    split
    · exact h₃.mapRangeIdentityKernel _ _ _ _
    · exact h₃

theorem mapFramebuffer (h : Filling rest roots root s) (bootInfo : Option BootInfo) :
    Leaves (Filling rest roots root) (mapFramebuffer bootInfo s) := by
  cases bootInfo with
  | none => exact h
  | some info =>
      rw [Memory.mapFramebuffer]
      split
      · exact h
      · split
        · exact h
        · exact h.mapRangeInRoot _ _ _ _ _

theorem loadCr3 (h : Filling rest roots root s) (cr3 : Nat) :
    Filling rest roots root (loadCr3 s cr3) := by
  obtain ⟨hroot, hsupervisor, owned, rank, hok, hfour, hroots⟩ := h
  exact ⟨hroot, hsupervisor, owned, rank,
    ⟨hok.pages, hok.ranked, hok.tree, hok.entries, hok.guarded, hok.root⟩, hfour, hroots⟩

theorem fillKernelRoot (h : Filling rest roots root s) (layout : KernelLayout)
    (bootInfo : Option BootInfo) :
    Leaves (Filling rest roots root) (fillKernelRoot layout bootInfo s) := by
  rw [Memory.fillKernelRoot]
  apply Leaves.andThen (h.mapRangeInRoot _ _ _ _ _)
  intro s₁ h₁
  apply Leaves.andThen
  · apply Leaves.whileOk h₁
    intro s₂ cursor h₂
    exact h₂.mapPage2m cursor cursor true true
  · intro s₂ h₂
    apply Leaves.andThen (h₂.mapKernelImage layout)
    intro s₃ h₃
    apply Leaves.andThen (h₃.mapFramebuffer bootInfo)
    intro s₄ h₄
    exact h₄.loadCr3 _

end Filling

/-- A fresh page that becomes a root, whose entries are 0 or those of another root. -/
theorem TablesOk.addRoot {pages : State} (h : TablesOk s owned rest rank)
    (hfresh : Fresh s.pages (owned.map page ++ rest) pages c) (s' : Kernel)
    (hpages : s'.pages = pages)
    (hcopy : ∀ i, s'.tables c i = 0 ∨ ∃ r, rank r = 4 ∧ s'.tables c i = s.tables r i)
    (hsame : ∀ t, t ≠ c → s'.tables t = s.tables t) (hpml4 : s'.pml4 = s.pml4 ∨ s'.pml4 = c) :
    TablesOk s' (c :: owned) rest (Function.update rank c 4) := by
  have hc := h.fresh_rank hfresh
  have hkeeps : ∀ t, rank t ≠ 0 → Function.update rank c 4 t = rank t := by
    intro t ht
    apply Function.update_of_ne
    rintro rfl
    exact ht hc
  have hchild : ∀ i d, (s'.tables c i).child = some d →
      ∃ r, rank r = 4 ∧ s'.tables c i = s.tables r i := by
    intro i d hd
    rcases hcopy i with hzero | hroot
    · rw [hzero, Entry.child_zero] at hd
      exact absurd hd (by simp)
    · exact hroot
  constructor
  · rw [hpages]
    exact hfresh.pages
  · intro t ht
    by_cases htc : t = c
    · exact htc ▸ List.mem_cons_self
    · rw [Function.update_of_ne htc] at ht
      exact List.mem_cons_of_mem _ (h.ranked t ht)
  · exact h.tree.addRoot hc hchild hsame
  · intro t i ht
    by_cases htc : t = c
    · subst htc
      rcases hcopy i with hzero | ⟨r, hr, hentry⟩
      · rw [hzero]
        exact Entry.fits_zero _
      · rw [hentry, Function.update_self, ← hr]
        exact h.entries r i (by omega)
    · rw [Function.update_of_ne htc] at ht ⊢
      rw [hsame t htc]
      exact h.entries t i ht
  · intro r i u j d k hr huser hu hd
    -- the entry of the root stands in a root from before
    have hold : ∃ r₀, rank r₀ = 4 ∧ s'.tables r i = s.tables r₀ i := by
      by_cases hrc : r = c
      · subst hrc
        exact hchild i u hu
      · rw [Function.update_of_ne hrc] at hr
        exact ⟨r, hr, by rw [hsame r hrc]⟩
    obtain ⟨r₀, hr₀, hentry⟩ := hold
    rw [hentry] at huser hu
    have hurank := h.tree.points r₀ i u (by omega) hu
    have huc : u ≠ c := by
      rintro rfl
      omega
    rw [hsame u huc] at hd
    have hdrank := h.tree.points u j d (by omega) hd
    have hdc : d ≠ c := by
      rintro rfl
      omega
    rw [hsame d hdc]
    exact h.guarded r₀ i u j d k hr₀ huser hu hd
  · intro hne
    rcases hpml4 with hold | hnew
    · rw [hold] at hne ⊢
      have hfour := h.root hne
      rw [hkeeps s.pml4 (by omega), hfour]
    · rw [hnew, Function.update_self]

/-- Where the pages of the tables hold the same, the tables are in order as they were. -/
theorem TablesOk.of_same {rest' : List FreePageRange} (h : TablesOk s owned rest rank)
    (s' : Kernel) (hpages : Invariant (s'.pages, owned.map page ++ rest'))
    (hpml4 : s'.pml4 = s.pml4 ∨ s'.pml4 = 0) (htables : ∀ t ∈ owned, s'.tables t = s.tables t) :
    TablesOk s' owned rest' rank := by
  have hranked : ∀ t, rank t ≠ 0 → s'.tables t = s.tables t := fun t ht =>
    htables t (h.ranked t ht)
  have hcut : ∀ t i c, 2 ≤ rank t → (s'.tables t i).child = some c →
      s'.tables t i = s.tables t i := by
    intro t i c ht _
    rw [hranked t (by omega)]
  constructor
  · exact hpages
  · exact h.ranked
  · exact h.tree.cut hcut
  · intro t i ht
    rw [hranked t (by omega)]
    exact h.entries t i ht
  · intro r i u j d k hr huser hu hd
    rw [hranked r (by omega)] at huser hu
    have hurank := h.tree.points r i u (by omega) hu
    rw [hranked u (by omega)] at hd
    have hdrank := h.tree.points u j d (by omega) hd
    rw [hranked d (by omega)]
    exact h.guarded r i u j d k hr huser hu hd
  · intro hne
    rcases hpml4 with hold | hzero
    · rw [hold] at hne ⊢
      exact h.root hne
    · exact absurd hzero hne

namespace RootsOk

theorem of_same {rest' : List FreePageRange} (h : RootsOk s rest roots) (s' : Kernel)
    (hpages : ∀ owned : List Nat, Invariant (s.pages, owned.map page ++ rest) →
      Invariant (s'.pages, owned.map page ++ rest'))
    (hpml4 : s'.pml4 = s.pml4 ∨ s'.pml4 = 0)
    (htables : ∀ t, (∀ b ∈ rest, t ∉ b.addresses) → s'.tables t = s.tables t) :
    RootsOk s' rest' roots := by
  obtain ⟨owned, rank, hok, hroots⟩ := h
  refine ⟨owned, rank, hok.of_same s' (hpages owned hok.pages) hpml4 ?_, hroots⟩
  intro t ht
  apply htables t
  intro b hb hmem
  have hblock : page t ∈ owned.map page := List.mem_map_of_mem ht
  have hapart := (List.pairwise_append.1 hok.pages.disjointed.apart).2.2 _ hblock _ hb
  have hlt := (hok.pages.blocks _ (List.mem_append_left _ hblock)).base_lt
  exact Set.disjoint_left.1 hapart ⟨le_rfl, hlt⟩ hmem

/-- The kernel's root is one of the roots. -/
theorem cons_pml4 (h : RootsOk s rest roots) : RootsOk s rest (s.pml4 :: roots) := by
  obtain ⟨owned, rank, hok, hroots⟩ := h
  refine ⟨owned, rank, hok, ?_⟩
  intro r hr hne
  rcases List.mem_cons.1 hr with rfl | hr
  · exact hok.root hne
  · exact hroots r hr hne

theorem tail (h : RootsOk s rest (root :: roots)) : RootsOk s rest roots := by
  obtain ⟨owned, rank, hok, hroots⟩ := h
  exact ⟨owned, rank, hok, fun r hr => hroots r (List.mem_cons_of_mem _ hr)⟩

theorem loadCr3 (h : RootsOk s rest roots) (cr3 : Nat) : RootsOk (loadCr3 s cr3) rest roots :=
  h.of_same (Memory.loadCr3 s cr3) (fun _ hinv => hinv) (.inl rfl) fun _ _ => rfl

theorem leaves_mapRange (h : RootsOk s rest roots) (hmem : root ∈ roots)
    (virtStart physStart size : Nat) (writable executable user : Bool) :
    Leaves (RootsOk · rest roots)
      (Memory.mapRangeInRoot s root virtStart physStart size writable executable user) :=
  (h.mapRangeInRoot hmem virtStart physStart size writable executable user).1

theorem pagingMapRange (h : RootsOk s rest roots) (virtStart physStart size : Nat)
    (writable executable : Bool) : Leaves (RootsOk · rest roots)
      (pagingMapRange s virtStart physStart size writable executable) := by
  rw [Memory.pagingMapRange]
  split
  · exact h
  · apply Leaves.andThen
    · exact (h.cons_pml4.leaves_mapRange List.mem_cons_self _ _ _ _ _ _).tail
    · intro s₁ h₁
      split
      · exact h₁.loadCr3 _
      · exact h₁

theorem pagingMapUserRange (h : RootsOk s rest roots)
    (hmem : alignDownPage root pageSize ∈ roots) (virtStart physStart size : Nat)
    (writable executable : Bool) : Leaves (RootsOk · rest roots)
      (pagingMapUserRange s root virtStart physStart size writable executable) := by
  rw [Memory.pagingMapUserRange]
  split
  · exact h
  · apply Leaves.andThen (h.leaves_mapRange hmem _ _ _ _ _ _)
    intro s₁ h₁
    split
    · exact h₁.loadCr3 _
    · exact h₁

theorem pagingInit (h : RootsOk s rest roots) (layout : KernelLayout)
    (bootInfo : Option BootInfo) :
    Leaves (RootsOk · rest roots) (pagingInit layout bootInfo s) := by
  obtain ⟨owned, rank, hok, hroots⟩ := h
  rw [Memory.pagingInit]
  rcases allocPageTable_cases hok.pages with hnone | ⟨c, pages, hfresh, halloc⟩
  · rw [hnone]
    exact ⟨owned, rank, hok.of_same { s with pml4 := 0 } hok.pages (.inr rfl) fun _ _ => rfl, hroots⟩
  · rw [halloc]
    simp only [if_neg hfresh.nonzero]
    have hc := hok.fresh_rank hfresh
    have hzero : (s.withTable c pages).tables c = fun _ => 0 := Function.update_self _ _ _
    have hadded := hok.addRoot hfresh { s.withTable c pages with pml4 := c } rfl
      (fun i => .inl (congrFun hzero i)) (fun t ht => Function.update_of_ne ht _ _) (.inr rfl)
    have hfilling : Filling rest roots c { s.withTable c pages with pml4 := c } := by
      refine ⟨rfl, ?_, c :: owned, _, hadded, Function.update_self _ _ _, ?_⟩
      · intro i u hu
        have hentry : (s.withTable c pages).tables c i = 0 := congrFun hzero i
        have hu : ((s.withTable c pages).tables c i).child = some u := hu
        rw [hentry, Entry.child_zero] at hu
        exact absurd hu (by simp)
      · intro r hr hne
        have hfour := hroots r hr hne
        rw [Function.update_of_ne _, hfour]
        rintro rfl
        omega
    obtain ⟨-, -, owned', rank', hok', -, hroots'⟩ := hfilling.fillKernelRoot layout bootInfo
    exact ⟨owned', rank', hok', hroots'⟩

theorem pagingCreateAddressSpace (h : RootsOk s rest roots) :
    RootsOk (pagingCreateAddressSpace s).2 rest ((pagingCreateAddressSpace s).1 :: roots) := by
  obtain ⟨owned, rank, hok, hroots⟩ := h
  have hnull : RootsOk s rest (0 :: roots) := by
    refine ⟨owned, rank, hok, ?_⟩
    intro r hr hne
    rcases List.mem_cons.1 hr with rfl | hr
    · exact absurd rfl hne
    · exact hroots r hr hne
  rw [Memory.pagingCreateAddressSpace]
  split
  · exact hnull
  · next hpml4 =>
      rcases allocPageTable_cases hok.pages with hnone | ⟨c, pages, hfresh, halloc⟩
      · rw [hnone]
        exact hnull
      · rw [halloc]
        simp only [if_neg hfresh.nonzero]
        have hc := hok.fresh_rank hfresh
        have hkernel : s.pml4 ≠ c := by
          intro heq
          have hfour := hok.root hpml4
          rw [heq] at hfour
          omega
        set s' := (s.withTable c pages).setTable c ((s.withTable c pages).tables
          (s.withTable c pages).pml4) with hs'
        have hshared : s'.tables c = s.tables s.pml4 := by
          simp only [hs', Kernel.setTable, Kernel.withTable]
          rw [Function.update_self, Function.update_of_ne hkernel]
        have hsame : ∀ t, t ≠ c → s'.tables t = s.tables t := by
          intro t ht
          simp only [hs', Kernel.setTable, Kernel.withTable]
          rw [Function.update_of_ne ht, Function.update_of_ne ht]
        refine ⟨c :: owned, _, hok.addRoot hfresh s' rfl
          (fun i => .inr ⟨s.pml4, hok.root hpml4, congrFun hshared i⟩) hsame (.inl rfl), ?_⟩
        intro r hr hne
        rcases List.mem_cons.1 hr with rfl | hr
        · exact Function.update_self _ _ _
        · have hfour := hroots r hr hne
          rw [Function.update_of_ne _, hfour]
          rintro rfl
          omega

end RootsOk

/-- What may happen to the tables: what the kernel does before a process runs, and the calls that
make address spaces and fill them. -/
inductive RootCall
  | boot (call : BootCall)
  | create
  | mapUser (root : Nat) (call : UserMap)

/-- One call. `roots` are the roots that there have been; 0 among them is none. -/
inductive RootStep : (Kernel × List FreePageRange) × List Nat → RootCall →
    (Kernel × List FreePageRange) × List Nat → Prop
  | boot {x y : Kernel × List FreePageRange} (roots : List Nat) (call : BootCall)
      (h : BootStep x call y) : RootStep (x, roots) (.boot call) (y, y.1.pml4 :: roots)
  | create (s : Kernel) (blocks : List FreePageRange) (roots : List Nat) :
      RootStep ((s, blocks), roots) .create (((pagingCreateAddressSpace s).2, blocks),
        (pagingCreateAddressSpace s).1 :: roots)
  | mapUser (s : Kernel) (blocks : List FreePageRange) (roots : List Nat) (root : Nat)
      (call : UserMap) (h : alignDownPage root pageSize ∈ roots) :
      RootStep ((s, blocks), roots) (.mapUser root call) (((pagingMapUserRange s root call.virtStart
        call.physStart call.size call.writable call.executable).2, blocks), roots)

theorem BootStep.rootsOk {x y : Kernel × List FreePageRange} {call : BootCall}
    (hx : RootsOk x.1 x.2 roots) (h : BootStep x call y) : RootsOk y.1 y.2 roots := by
  cases h with
  | alloc s blocks n =>
      obtain ⟨hpages, hbase, htables, hpml4⟩ := Kernel.allocPages_pages (s := s) n
      apply hx.of_same (s.allocPages n).2 _ (.inl hpml4) fun t _ => by rw [htables]
      intro owned hok
      have hinv := (CallStep.alloc s.pages blocks n).invariant_append hok
      rw [← hpages, ← hbase] at hinv
      exact hinv
  | free s blocks b hb =>
      apply hx.of_same (s.freePages b.base b.pageCount) _ (.inl rfl) fun _ _ => rfl
      intro owned hok
      exact (CallStep.free s.pages blocks b hb).invariant_append hok
  | write s blocks tables htables =>
      exact hx.of_same { s with tables := tables } (fun _ hinv => hinv) (.inl rfl) htables
  | init s blocks layout info => exact hx.pagingInit layout info
  | mapRange s blocks virtStart physStart size writable executable =>
      exact hx.pagingMapRange virtStart physStart size writable executable

theorem RootStep.rootsOk {x y : (Kernel × List FreePageRange) × List Nat} {call : RootCall}
    (hx : RootsOk x.1.1 x.1.2 x.2) (h : RootStep x call y) : RootsOk y.1.1 y.1.2 y.2 := by
  cases h with
  | boot roots call h => exact (h.rootsOk hx).cons_pml4
  | create s blocks roots => exact hx.pagingCreateAddressSpace
  | mapUser s blocks roots root call h => exact hx.pagingMapUserRange h _ _ _ _ _

/-- The kernel as it is after any calls that follow a successful `memory_init`. `blocks` are the
blocks of pages that others than `paging.c` have, and `roots` the roots that there have been. -/
def Paged (s : Kernel) (blocks : List FreePageRange) (roots : List Nat) : Prop :=
  ∃ image info s₀ m₀ tables cr3 calls,
    DisjointConventional info.memoryMap.entries ∧
    memoryInit image (some info) s₀ = (true, m₀) ∧
    Runs RootStep ((Kernel.initial m₀ tables cr3, []), []) calls ((s, blocks), roots)

theorem RootsOk.initial {pages : State} (h : Invariant (pages, []))
    (tables : Nat → Fin 512 → Entry) (cr3 : Nat) :
    RootsOk (Kernel.initial pages tables cr3) [] [] := by
  refine ⟨[], fun _ => 0, ?_, fun r hr => absurd hr List.not_mem_nil⟩
  constructor
  · exact h
  · exact fun t ht => absurd rfl ht
  · constructor
    · exact fun t i c ht => absurd ht (by decide)
    · exact fun t u i j c ht => absurd ht (by decide)
  · exact fun t i ht => absurd ht (by decide)
  · exact fun r i u j d k hr => absurd hr (by decide)
  · exact fun hne => absurd rfl hne

theorem Paged.rootsOk (h : Paged s blocks roots) : RootsOk s blocks roots := by
  obtain ⟨image, info, s₀, m₀, tables, cr3, calls, hmap, hinit, hrun⟩ := h
  have hstart := RootsOk.initial (memoryInit_initialised hmap hinit).invariant tables cr3
  exact hrun.invariant (I := fun x => RootsOk x.1.1 x.1.2 x.2) (fun _ _ _ hx h => h.rootsOk hx) hstart

/-- `map_range_in_root` under any root, in whatever state the tables are: where it succeeds each
address of the range leads where it was asked, with the rights that were asked, and whether it
succeeds or not every other page leads where it did. -/
theorem mapRangeInRoot_maps {virtStart physStart size : Nat} (h : Paged s blocks roots)
    (hroot : root ∈ roots) (hmod : virtStart % pageSize = physStart % pageSize)
    (hvirt : virtStart + size ≤ 2 ^ 48 - pageSize) (hphys : physStart + size ≤ 2 ^ 51)
    (writable executable user : Bool) :
    ((mapRangeInRoot s root virtStart physStart size writable executable user).1 = true →
      ∀ i < size,
        translate (mapRangeInRoot s root virtStart physStart size writable executable user).2.tables
          root (virtStart + i) = some ⟨physStart + i, writable, user, executable⟩) ∧
    ∀ addr, ¬ InPages virtStart size addr →
      translate (mapRangeInRoot s root virtStart physStart size writable executable user).2.tables
        root addr = translate s.tables root addr := by
  obtain ⟨-, hkeeps, hmaps⟩ := h.rootsOk.mapRangeInRoot hroot virtStart physStart
    size writable executable user
  exact ⟨hmaps hvirt hphys hmod, hkeeps hvirt⟩

/-- What the kernel does before a process runs is part of these runs. -/
theorem Paged.of_booted (h : Booted s blocks) (hne : s.pml4 ≠ 0) :
    ∃ roots, s.pml4 ∈ roots ∧ Paged s blocks roots := by
  obtain ⟨image, info, s₀, m₀, tables, cr3, calls, hmap, hinit, hrun⟩ := h
  have hlift : ∀ {x y : Kernel × List FreePageRange} {calls : List BootCall},
      Runs BootStep x calls y → ∀ roots, (x.1.pml4 ≠ 0 → x.1.pml4 ∈ roots) →
        ∃ roots', Runs RootStep (x, roots) (calls.map .boot) (y, roots') ∧
          (y.1.pml4 ≠ 0 → y.1.pml4 ∈ roots') := by
    intro x y calls hrun
    induction hrun with
    | nil x => exact fun roots hx => ⟨roots, .nil _, hx⟩
    | @cons x x₁ y call calls hfirst _ ih =>
        intro roots _
        obtain ⟨roots', hrest, hy⟩ := ih (x₁.1.pml4 :: roots) fun _ => List.mem_cons_self
        exact ⟨roots', .cons (.boot roots call hfirst) hrest, hy⟩
  obtain ⟨roots, hrun', hmem⟩ := hlift hrun [] fun hzero => absurd rfl hzero
  exact ⟨roots, hmem hne, image, info, s₀, m₀, tables, cr3, _, hmap, hinit, hrun'⟩

/-- Two pages mapped under the kernel's root in 64 MiB. -/
theorem mapRangeInRoot_maps_started : ∃ s roots, Paged s [] roots ∧ s.pml4 ∈ roots ∧
    (mapRangeInRoot s s.pml4 0x8000000000 0x300000 8192 true false false).1 = true ∧
    ∀ i < 8192, translate (mapRangeInRoot s s.pml4 0x8000000000 0x300000 8192 true false
      false).2.tables s.pml4 (0x8000000000 + i) = some ⟨0x300000 + i, true, false, false⟩ := by
  obtain ⟨s, hstarted, hleft, -⟩ := exists_started
  obtain ⟨roots, hmem, hpaged⟩ := Paged.of_booted hstarted.booted hstarted.root
  have hvirt : 0x8000000000 ≤ (0x8000000000 + 8192) % 2 ^ 64 := by decide
  have hphys : 0x300000 ≤ (0x300000 + 8192) % 2 ^ 64 := by decide
  have hprice := mapRangeInRoot_affords hstarted.booted.ready hstarted.root true false (by decide)
    hvirt hphys
  have hcount : (rangePages 0x8000000000 ((0x8000000000 + 8192) % 2 ^ 64)).length = 2 := by
    decide +kernel
  rw [hcount] at hprice
  have hdone := hprice.succeeds (by omega)
  exact ⟨s, roots, hpaged, hmem, hdone,
    (mapRangeInRoot_maps hpaged hmem (by decide) (by decide) (by decide) true false false).1 hdone⟩

end FunnyOS.Memory
