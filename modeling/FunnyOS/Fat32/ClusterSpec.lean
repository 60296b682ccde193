import FunnyOS.Fat32.Chain

/-!
# Specifications of the chain operations

What the routines of `Cluster.lean` do to the volume when the block device does not fail
and each loop has more fuel than there are clusters. The only error that remains is
`FAT32_NO_SPACE`, which comes with the number of clusters that were free.
-/

namespace FunnyOS.Fat32

open Prog

/-! ## Free clusters -/

/-- The free data clusters. -/
def freeClusters (g : Geometry) (fat : Nat → Nat) : List Nat :=
  (List.range' 2 (g.totalClusters - 2)).filter (fun c => fat c == 0)

section

variable {g : Geometry} {fat fat' : Nat → Nat} {c : Nat} {l l' : List Nat}

theorem mem_freeClusters :
    c ∈ freeClusters g fat ↔ g.isValidDataCluster c = true ∧ fat c = 0 := by
  have h₁ := g.rootCluster_ge
  have h₂ := g.rootCluster_lt
  simp only [freeClusters, List.mem_filter, List.mem_range'_1, beq_iff_eq,
    g.isValidDataCluster_iff]
  constructor
  · rintro ⟨⟨h₃, h₄⟩, h₅⟩
    exact ⟨⟨h₃, by omega⟩, h₅⟩
  · rintro ⟨⟨h₃, h₄⟩, h₅⟩
    exact ⟨⟨h₃, by omega⟩, h₅⟩

variable (g fat) in
theorem findFreeCluster_spec :
    (findFreeCluster g fat = 0 ∧ freeClusters g fat = []) ∨
    (findFreeCluster g fat ≠ 0 ∧ findFreeCluster g fat ∈ freeClusters g fat) := by
  unfold findFreeCluster
  cases hf : (List.range' 2 (g.totalClusters - 2)).find? (fun c => fat c == 0) with
  | none =>
    left
    refine ⟨rfl, ?_⟩
    rw [List.find?_eq_none] at hf
    simpa [freeClusters, List.filter_eq_nil_iff] using hf
  | some c =>
    right
    have hmem : c ∈ freeClusters g fat := by
      have h₁ := List.mem_of_find?_eq_some hf
      have h₂ := List.find?_some hf
      exact List.mem_filter.mpr ⟨h₁, h₂⟩
    have hval := (mem_freeClusters.mp hmem).1
    rw [g.isValidDataCluster_iff] at hval
    exact ⟨by simp only [Option.getD_some]; omega, hmem⟩

theorem freeClusters_nodup : (freeClusters g fat).Nodup :=
  List.Nodup.filter _ List.nodup_range'

/-- Clusters taken into a chain were free. -/
theorem Relinked.mem_free {first : Nat} (h : Relinked g fat fat' l l' first) {x : Nat}
    (hx : x ∈ l') (hx' : x ∉ l) : x ∈ freeClusters g fat := by
  rcases h.chain with ⟨rfl, -⟩ | ⟨-, hc⟩
  · simp at hx
  · exact mem_freeClusters.mpr ⟨hc.valid x hx, h.fresh x hx hx'⟩

end

/-- A chain operation seen on the whole volume: beyond the FAT, at most clusters that were
free have a new content. -/
structure Reallocated (g : Geometry) (v v' : Volume) (old new : List Nat)
    (first : Nat) : Prop where
  links : Relinked g v.fat v'.fat old new first
  data : ∀ c, v.fat c ≠ 0 → v'.data c = v.data c
  mounted : v'.mounted = v.mounted

theorem Reallocated.of_links {g : Geometry} {v : Volume} {fat' : Nat → Nat}
    {old new : List Nat} {first : Nat} (h : Relinked g v.fat fat' old new first) :
    Reallocated g v (v.setFat fat') old new first := ⟨h, fun _ _ => rfl, rfl⟩

/-- After a growth, another step of the same chain. -/
theorem Reallocated.trans {g : Geometry} {v v₁ v₂ : Volume} {l l₁ l₂ : List Nat}
    {c₁ c₂ : Nat} (h₁ : Reallocated g v v₁ l l₁ c₁) (h₂ : Reallocated g v₁ v₂ l₁ l₂ c₂)
    (hsub : ∀ x ∈ l, x ∈ l₁) : Reallocated g v v₂ l l₂ c₂ := by
  refine ⟨h₁.links.trans h₂.links, ?_, h₂.mounted.trans h₁.mounted⟩
  intro c hc
  have hne : v₁.fat c ≠ 0 := by
    by_cases hm : c ∈ l₁
    · rcases h₁.links.chain with ⟨rfl, -⟩ | ⟨-, hch⟩
      · simp at hm
      · exact hch.fat_ne_zero c hm
    · rwa [h₁.links.frame c (fun hl => hm (hsub c hl)) hm]
  rw [h₂.data c hne, h₁.data c hc]

section

variable {env : Env} {s : State} {c : Nat} {l : List Nat}

/-! ## Freeing and cutting -/

theorem freeClusterChainInMemory_skip (hc : inChain c = false) (hfuel : 0 < env.fuel) :
    Sat (freeClusterChainInMemory env c) s (fun _ s' => s' = s) (fun _ _ => False) := by
  obtain ⟨n, hn⟩ : ∃ n, env.fuel = n + 1 := ⟨env.fuel - 1, by omega⟩
  simp only [freeClusterChainInMemory, hn, loop, hc]
  rfl

/-- `free_cluster_chain_in_memory` frees exactly the clusters of the chain. -/
theorem freeClusterChainInMemory_sat (hfuel : env.geometry.totalClusters < env.fuel)
    (h : Chain env.geometry s.fat c l) :
    Sat (freeClusterChainInMemory env c) s
      (fun _ s' => s'.volume env.geometry
        = (s.volume env.geometry).setFat (clearLinks s.fat l))
      (fun _ _ => False) := by
  refine Sat.loop (fun k cl st => ∃ done rest, l = done ++ rest ∧ k = rest.length ∧
      Chain env.geometry s.fat cl rest ∧
      st.volume env.geometry = (s.volume env.geometry).setFat (clearLinks s.fat done))
    ?_ env.fuel l.length c s (Nat.lt_trans h.length_lt hfuel)
    ⟨[], l, rfl, rfl, h, by rw [clearLinks_nil]; rfl⟩
  rintro k cl st ⟨done, rest, rfl, rfl, hch, hst⟩
  have hfat : st.fat = clearLinks s.fat done := congrArg Volume.fat hst
  cases rest with
  | nil =>
    simp only [end_not_inChain hch, Bool.false_eq_true, if_false]
    rw [List.append_nil]
    exact Sat.pure hst
  | cons x rest =>
    obtain ⟨rfl, hx, hch⟩ := chain_cons.mp hch
    have hnot : cl ∉ done := by
      have := h.nodup
      rw [List.nodup_append] at this
      exact fun hd => this.2.2 cl hd cl List.mem_cons_self rfl
    simp only [valid_inChain hx, if_true]
    refine Sat.get_bind (Sat.modify_bind (Sat.pure ?_))
    refine ⟨rest.length, Nat.lt_succ_self _, done ++ [cl], rest, by simp, rfl, ?_, ?_⟩
    · have hnext : fat32NextCluster env.geometry st.fat cl
          = fat32NextCluster env.geometry s.fat cl :=
        fat32NextCluster_congr (by rw [hfat]; exact if_neg hnot)
      rw [hnext]
      exact hch
    · rw [State.volume_withFat, hst, Volume.setFat_setFat]
      congr 1
      rw [fat32SetCluster_of_valid hx, hfat]
      funext y
      by_cases hy : y = cl <;> simp [clearLinks, hy]

/-- `trim_cluster_chain` keeps the first `required` clusters and frees the others. -/
theorem trimClusterChain_sat (hfuel : env.geometry.totalClusters < env.fuel)
    {first required : Nat}
    (h : (l = [] ∧ first = 0) ∨ (l ≠ [] ∧ Chain env.geometry s.fat first l))
    (hreq : required ≤ l.length) :
    Sat (trimClusterChain env first required) s
      (fun r s' => Reallocated env.geometry (s.volume env.geometry) (s'.volume env.geometry)
        l (l.take required) r)
      (fun _ _ => False) := by
  unfold trimClusterChain
  refine Sat.ite (fun h0 => ?_) (fun h0 => ?_)
  · subst h0
    rcases h with ⟨rfl, rfl⟩ | ⟨hl, hch⟩
    · exact Sat.pure (Reallocated.of_links Relinked.refl_nil)
    · have hv := hch.head_valid hl
      rw [Geometry.isValidDataCluster_iff] at hv
      simp only [hv.1, if_true]
      refine Sat.bind (freeClusterChainInMemory_sat hfuel hch) (fun _ _ h => h) ?_
      rintro _ s' hs'
      refine Sat.pure ?_
      rw [hs']
      exact Reallocated.of_links Relinked.clear
  · have hl : l ≠ [] := by
      rintro rfl
      simp only [List.length_nil, Nat.le_zero] at hreq
      exact h0 hreq
    have hch : Chain env.geometry s.fat first l := by
      rcases h with ⟨h, -⟩ | ⟨-, h⟩
      · exact absurd h hl
      · exact h
    have hv := (Geometry.isValidDataCluster_iff _).mp (hch.head_valid hl)
    rw [if_neg (by omega)]
    obtain ⟨n, rfl⟩ : ∃ n, required = n + 1 := ⟨required - 1, by omega⟩
    refine Sat.get_bind ?_
    simp only [Nat.add_sub_cancel, hch.getClusterAtIndex_eq hreq]
    have hx := hch.valid _ (List.getElem_mem hreq)
    simp only [valid_inChain hx, if_true]
    refine Sat.modify_bind ?_
    have hset : fat32SetCluster env.geometry s.fat l[n] endOfChain
        = fun x => if x = l[n] then endOfChain else s.fat x := by
      rw [fat32SetCluster_of_valid hx, endOfChain_mod]
    have hsplit : l.take n ++ l[n] :: l.drop (n + 1) = l := by
      rw [List.getElem_cons_drop, List.take_append_drop]
    -- what lies behind the new last cluster
    have hrest : Chain env.geometry s.fat (fat32NextCluster env.geometry s.fat l[n])
        (l.drop (n + 1)) := by
      have := Linked.suffix (l := l.take n) (by rw [hsplit]; exact hch)
      exact (chain_cons.mp this).2.2
    have hnd : l[n] ∉ l.drop (n + 1) := by
      have hd := hch.nodup
      rw [← hsplit, List.nodup_append] at hd
      exact (List.nodup_cons.mp hd.2.1).1
    have hrest' : Chain env.geometry (fun x => if x = l[n] then endOfChain else s.fat x)
        (fat32NextCluster env.geometry s.fat l[n]) (l.drop (n + 1)) := by
      refine hrest.congr ?_
      intro y hy
      rw [if_neg]
      rintro rfl
      exact hnd hy
    have hfinal : ∀ s' : State, s'.volume env.geometry = (s.volume env.geometry).setFat
        (clearLinks (fun x => if x = l[n] then endOfChain else s.fat x) (l.drop (n + 1))) →
        Reallocated env.geometry (s.volume env.geometry) (s'.volume env.geometry)
          l (l.take (n + 1)) first := by
      intro s' hs'
      rw [hs']
      exact Reallocated.of_links (Relinked.cut hch hreq rfl)
    rw [hset]
    by_cases hin : inChain (fat32NextCluster env.geometry s.fat l[n]) = true
    · simp only [hin, if_true]
      refine Sat.bind (freeClusterChainInMemory_sat hfuel (l := l.drop (n + 1)) hrest')
        (fun _ _ h => h) ?_
      rintro _ s' hs'
      exact Sat.pure (hfinal s' hs')
    · have hdrop : l.drop (n + 1) = [] := by
        cases hd : l.drop (n + 1) with
        | nil => rfl
        | cons y r =>
          rw [hd] at hrest
          obtain ⟨he, hy, -⟩ := chain_cons.mp hrest
          rw [he, valid_inChain hy] at hin
          exact absurd rfl hin
      rw [if_neg hin]
      refine Sat.pure (hfinal _ ?_)
      rw [hdrop, clearLinks_nil, State.volume_withFat]

/-! ## Taking one cluster -/

/-- `zero_cluster` clears the cluster, or the device has failed. -/
theorem zeroCluster_sat (hc : env.geometry.isValidDataCluster c = true) :
    Sat (zeroCluster env c) s
      (fun _ s' => s'.volume env.geometry
        = (s.volume env.geometry).setData env.geometry c (fun _ => 0))
      (fun e s' => e = .ioError ∧ env.Faulty ∧
        s'.volume env.geometry = s.volume env.geometry) := by
  refine Sat.modify_bind ?_
  refine Sat.bind (writeCluster_sat hc) (fun _ _ h => h.elim) ?_
  rintro (_ | _) s' h
  · exact Sat.raise ⟨rfl, h.2, h.1⟩
  · refine Sat.pure ?_
    simp only [if_true] at h
    rw [h, State.volume_clusterBuffer]
    refine Volume.setData_congr ?_
    intro o ho
    exact if_pos ho

/-- The cluster that `find_free_cluster` hands out, linked behind a chain or alone. -/
structure Appended (g : Geometry) (v v' : Volume) (l : List Nat) (first c : Nat) : Prop where
  grown : Reallocated g v v' l (l ++ [c]) first
  free : c ∈ freeClusters g v.fat
  data : v'.data = v.data
  fat : ∃ last ∈ l, v'.fat = fun x => if x = last then c else if x = c then endOfChain else v.fat x

/-- `append_cluster_to_chain` on an existing chain. -/
theorem appendClusterToChain_sat (hfuel : env.geometry.totalClusters < env.fuel) {first : Nat}
    (hl : l ≠ []) (hch : Chain env.geometry s.fat first l) :
    Sat (appendClusterToChain env first) s
      (fun c s' => Appended env.geometry (s.volume env.geometry) (s'.volume env.geometry)
        l first c)
      (fun e s' => e = .noSpace ∧ s'.volume env.geometry = s.volume env.geometry ∧
        freeClusters env.geometry s.fat = []) := by
  refine Sat.get_bind ?_
  simp only
  rcases findFreeCluster_spec env.geometry s.fat with ⟨h0, hnil⟩ | ⟨h0, hmem⟩
  · rw [if_pos h0]
    exact Sat.raise ⟨rfl, rfl, hnil⟩
  · rw [if_neg h0]
    generalize findFreeCluster env.geometry s.fat = new at h0 hmem ⊢
    obtain ⟨hnew, hfree⟩ := mem_freeClusters.mp hmem
    have hnot : new ∉ l := fun hm => hch.fat_ne_zero new hm hfree
    have hfirst := (Geometry.isValidDataCluster_iff _).mp (hch.head_valid hl)
    refine Sat.modify_bind ?_
    rw [if_neg (by omega)]
    refine Sat.get_bind ?_
    simp only [fat32SetCluster_of_valid hnew, endOfChain_mod]
    have hch₁ : Chain env.geometry (fun x => if x = new then endOfChain else s.fat x) first l := by
      refine hch.congr ?_
      intro x hx
      rw [if_neg]
      rintro rfl
      exact hnot hx
    refine Sat.bind (Q := fun last st => st =
        { s with fat := fun x => if x = new then endOfChain else s.fat x } ∧
        ∃ pre, l = pre ++ [last])
      (F := fun _ _ => False) ?_ (fun _ _ h => h.elim) ?_
    · -- the walk to the last cluster: `k` clusters are left behind the current one
      refine Sat.loop (fun k cl st => st =
          { s with fat := fun x => if x = new then endOfChain else s.fat x } ∧
          ∃ pre suf, l = pre ++ cl :: suf ∧ k = suf.length) ?_ env.fuel (l.length - 1) first _
        (Nat.lt_of_le_of_lt (Nat.sub_le _ _) (Nat.lt_trans hch.length_lt hfuel)) ?_
      · rintro k cl st ⟨rfl, pre, suf, rfl, rfl⟩
        have hrest := Linked.suffix hch₁
        obtain ⟨-, -, hrest⟩ := chain_cons.mp hrest
        cases suf with
        | nil =>
          rw [end_not_inChain hrest]
          exact Sat.pure ⟨rfl, pre, rfl⟩
        | cons y suf =>
          obtain ⟨hy, hyv, -⟩ := chain_cons.mp hrest
          rw [hy, valid_inChain hyv]
          exact Sat.pure ⟨suf.length, Nat.lt_succ_self _, rfl, pre ++ [cl], suf, by simp, rfl⟩
      · obtain ⟨y, l', rfl⟩ := List.exists_cons_of_ne_nil hl
        obtain ⟨rfl, -, -⟩ := chain_cons.mp hch
        exact ⟨rfl, [], l', rfl, rfl⟩
    · rintro last st ⟨rfl, pre, rfl⟩
      refine Sat.modify_bind (Sat.pure ?_)
      have hlast : env.geometry.isValidDataCluster last = true := hch.valid last (by simp)
      have hfat : (fat32SetCluster env.geometry (fun x => if x = new then endOfChain else s.fat x)
          last new) = fun x => if x = last then new else if x = new then endOfChain else s.fat x := by
        rw [fat32SetCluster_of_valid hlast, valid_mod hnew]
      exact ⟨Reallocated.of_links (Relinked.append hch hnew hfree hfat), hmem, rfl,
        last, by simp, hfat⟩

/-! ## Allocating a chain -/

/-- The clusters `l` that `allocate_cluster_chain` has linked so far, from `first` to `last`. -/
structure Taken (g : Geometry) (v₀ v : Volume) (l : List Nat) (first last : Nat) : Prop where
  links : Relinked g v₀.fat v.fat [] l first
  only : v = v₀.setFat v.fat
  last : (l = [] ∧ last = 0) ∨ ∃ pre, l = pre ++ [last]

/-- Giving back what was taken restores the volume. -/
theorem Taken.undo {g : Geometry} {v₀ v : Volume} {first last : Nat}
    (h : Taken g v₀ v l first last) : v.setFat (clearLinks v.fat l) = v₀ := by
  have hfat : clearLinks v.fat l = v₀.fat := by
    funext x
    by_cases hx : x ∈ l
    · rw [clearLinks, if_pos hx, h.links.fresh x hx List.not_mem_nil]
    · rw [clearLinks, if_neg hx, h.links.frame x List.not_mem_nil hx]
  rw [hfat, h.only, Volume.setFat_setFat, Volume.setFat_self]

/-- When no cluster is free any more, all that were free have been taken. -/
theorem Taken.exhausted {g : Geometry} {v₀ v : Volume} {first last : Nat}
    (h : Taken g v₀ v l first last) (hnil : freeClusters g v.fat = []) :
    (freeClusters g v₀.fat).length ≤ l.length := by
  refine (List.subperm_of_subset freeClusters_nodup ?_).length_le
  intro x hx
  by_contra hnot
  obtain ⟨hv, h0⟩ := mem_freeClusters.mp hx
  have : x ∈ freeClusters g v.fat :=
    mem_freeClusters.mpr ⟨hv, by rw [h.links.frame x List.not_mem_nil hnot, h0]⟩
  rw [hnil] at this
  exact List.not_mem_nil this

/-- One more cluster. -/
theorem Taken.snoc {g : Geometry} {v₀ v : Volume} {first last new : Nat}
    (h : Taken g v₀ v l first last) (hnew : g.isValidDataCluster new = true)
    (hfree : v.fat new = 0) {fat' : Nat → Nat}
    (hfat : fat' = if last ≠ 0
      then fun x => if x = last then new else if x = new then endOfChain else v.fat x
      else fun x => if x = new then endOfChain else v.fat x) :
    Taken g v₀ (v.setFat fat') (l ++ [new]) (if last ≠ 0 then first else new) new := by
  have hval := (g.isValidDataCluster_iff).mp hnew
  refine ⟨h.links.trans ?_, ?_, .inr ⟨l, rfl⟩⟩
  · rcases h.last with ⟨rfl, rfl⟩ | ⟨pre, rfl⟩
    · subst hfat
      refine ⟨.inr ⟨by simp, chain_cons.mpr ⟨by simp, hnew, ?_⟩⟩, ?_, by simp, ?_⟩
      · simp [fat32NextCluster_of_valid hnew, chain_nil, endOfChain]
      · intro x _ hx
        simp only [List.nil_append, List.mem_singleton] at hx
        simp [hx]
      · intro x hx _
        simp only [List.nil_append, List.mem_singleton] at hx
        rw [hx, hfree]
    · have hch : Chain g v.fat first (pre ++ [last]) := by
        rcases h.links.chain with ⟨hnil, -⟩ | ⟨-, hch⟩
        · simp at hnil
        · exact hch
      have hlast : last ≠ 0 := by
        have := (g.isValidDataCluster_iff).mp (hch.valid last (by simp))
        omega
      rw [if_pos hlast] at hfat ⊢
      exact Relinked.append hch hnew hfree hfat
  · rw [h.only]
    rfl

/-- The linking loop of `allocate_cluster_chain`. -/
theorem allocateLinks_sat (hfuel : env.geometry.totalClusters < env.fuel) {v₀ : Volume} :
    ∀ (count first last : Nat) (l : List Nat) (s : State),
    Taken env.geometry v₀ (s.volume env.geometry) l first last →
    Sat (allocateLinks env count first last) s
      (fun r s' => ∃ l' last', l'.length = l.length + count ∧
        Taken env.geometry v₀ (s'.volume env.geometry) l' r last')
      (fun e s' => e = .noSpace ∧ s'.volume env.geometry = v₀ ∧
        (freeClusters env.geometry v₀.fat).length < l.length + count) := by
  intro count
  induction count with
  | zero =>
    intro first last l s h
    exact Sat.pure ⟨l, last, rfl, h⟩
  | succ count ih =>
    intro first last l s h
    unfold allocateLinks
    refine Sat.get_bind ?_
    simp only
    rcases findFreeCluster_spec env.geometry s.fat with ⟨h0, hnil⟩ | ⟨h0, hmem⟩
    · have hcount := h.exhausted hnil
      rw [if_pos h0]
      rcases h.links.chain with ⟨rfl, rfl⟩ | ⟨hl, hch⟩
      · refine Sat.bind (freeClusterChainInMemory_skip (by decide) (Nat.zero_lt_of_lt hfuel))
          (fun _ _ h => h.elim) ?_
        rintro _ s' rfl
        refine Sat.raise ⟨rfl, ?_, by omega⟩
        have := h.undo
        rw [clearLinks_nil] at this
        exact this
      · refine Sat.bind (freeClusterChainInMemory_sat hfuel hch) (fun _ _ h => h.elim) ?_
        rintro _ s' hs'
        exact Sat.raise ⟨rfl, hs'.trans h.undo, by omega⟩
    · rw [if_neg h0]
      generalize findFreeCluster env.geometry s.fat = new at h0 hmem ⊢
      obtain ⟨hnew, hfree⟩ := mem_freeClusters.mp hmem
      refine Sat.modify_bind ?_
      simp only [fat32SetCluster_of_valid hnew, endOfChain_mod]
      have hstep := h.snoc hnew hfree rfl
      have hlen : l.length + (count + 1) = (l ++ [new]).length + count := by
        rw [List.length_append, List.length_singleton]; omega
      rw [hlen]
      by_cases hlast : last ≠ 0
      · have hlv : env.geometry.isValidDataCluster last = true := by
          rcases h.last with ⟨-, h⟩ | ⟨pre, rfl⟩
          · exact absurd h hlast
          · rcases h.links.chain with ⟨hnil, -⟩ | ⟨-, hch⟩
            · simp at hnil
            · exact hch.valid last (by simp)
        simp only [if_pos hlast] at hstep ⊢
        refine Sat.modify_bind (ih first new (l ++ [new]) _ ?_)
        rw [fat32SetCluster_of_valid hlv, valid_mod hnew]
        exact hstep
      · simp only [if_neg hlast] at hstep ⊢
        exact ih new new (l ++ [new]) _ hstep

/-- The clearing loop of `allocate_cluster_chain`. -/
theorem zeroLinks_sat (hfuel : env.geometry.totalClusters < env.fuel) {first : Nat} :
    ∀ (suf pre : List Nat) (cluster : Nat) (s : State), l = pre ++ suf →
    Chain env.geometry s.fat first l → Chain env.geometry s.fat cluster suf →
    Sat (zeroLinks env first suf.length cluster) s
      (fun _ s' => s'.fat = s.fat ∧ s'.mounted = s.mounted ∧
        ∀ x ∉ l, (s'.volume env.geometry).data x = (s.volume env.geometry).data x)
      (fun e s' => e = .ioError ∧ env.Faulty ∧ s'.fat = clearLinks s.fat l ∧
        s'.mounted = s.mounted ∧
        ∀ x ∉ l, (s'.volume env.geometry).data x = (s.volume env.geometry).data x) := by
  intro suf
  induction suf with
  | nil =>
    intro pre cluster s hl hch hsuf
    exact Sat.pure ⟨rfl, rfl, fun _ _ => rfl⟩
  | cons y suf ih =>
    intro pre cluster s hl hch hsuf
    obtain ⟨rfl, hy, hrest⟩ := chain_cons.mp hsuf
    simp only [List.length_cons, zeroLinks, valid_inChain hy, if_true]
    refine Sat.bind (Sat.attempt (R := fun r (s' : State) => caught
        (fun _ => s'.volume env.geometry
          = (s.volume env.geometry).setData env.geometry cluster (fun _ => 0))
        (fun e : Fat32Result => e = .ioError ∧ env.Faulty ∧
          s'.volume env.geometry = s.volume env.geometry) r)
      (zeroCluster_sat hy) (fun _ _ h => h) (fun _ _ h => h)) (fun _ _ h => h) ?_
    rintro (e | ⟨⟩) s₁ h
    · obtain ⟨rfl, hfault, hv⟩ := h
      have hfat : s₁.fat = s.fat := congrArg Volume.fat hv
      refine Sat.bind (freeClusterChainInMemory_sat hfuel (l := l) (by rw [hfat]; exact hch))
        (fun _ _ h => h.elim) ?_
      rintro _ s₂ h₂
      refine Sat.raise ⟨rfl, hfault, ?_, ?_, ?_⟩
      · rw [← hfat]; exact congrArg Volume.fat h₂
      · exact (congrArg Volume.mounted h₂).trans (congrArg Volume.mounted hv)
      · intro x _
        rw [h₂, hv]; rfl
    · have hfat : s₁.fat = s.fat := congrArg Volume.fat h
      have hmnt : s₁.mounted = s.mounted := congrArg Volume.mounted h
      have hdata : ∀ x ∉ l, (s₁.volume env.geometry).data x = (s.volume env.geometry).data x := by
        intro x hx
        have hne : x ≠ cluster := fun he => hx (by rw [hl, he]; simp)
        rw [h]
        funext o
        simp [Volume.setData, hne]
      refine Sat.get_bind ?_
      simp only [hfat]
      cases suf with
      | nil =>
        rw [if_pos (chain_nil.mp hrest)]
        exact Sat.pure ⟨hfat, hmnt, hdata⟩
      | cons z suf =>
        have hz := hrest.head_valid (List.cons_ne_nil _ _)
        rw [if_neg (valid_not_end hz)]
        refine Sat.mono (ih (pre ++ [cluster]) _ s₁ (by simpa using hl)
          (by rw [hfat]; exact hch) (by rw [hfat]; exact hrest)) ?_ ?_
        · rintro _ s₂ ⟨h₁, h₂, h₃⟩
          exact ⟨h₁.trans hfat, h₂.trans hmnt, fun x hx => (h₃ x hx).trans (hdata x hx)⟩
        · rintro e s₂ ⟨h₀, hfault, h₁, h₂, h₃⟩
          exact ⟨h₀, hfault, by rw [h₁, hfat], h₂.trans hmnt,
            fun x hx => (h₃ x hx).trans (hdata x hx)⟩

/-- `allocate_cluster_chain` makes a new chain of the length asked for. Where it cannot, the
FAT is as before. -/
theorem allocateClusterChain_sat (hfuel : env.geometry.totalClusters < env.fuel)
    (count : Nat) :
    Sat (allocateClusterChain env count) s
      (fun r s' => ∃ l, l.length = count ∧
        Reallocated env.geometry (s.volume env.geometry) (s'.volume env.geometry) [] l r)
      (fun e s' =>
        (e = .noSpace ∧ s'.volume env.geometry = s.volume env.geometry ∧
          (freeClusters env.geometry s.fat).length < count) ∨
        (e = .ioError ∧ env.Faulty ∧
          Reallocated env.geometry (s.volume env.geometry) (s'.volume env.geometry) [] [] 0)) := by
  unfold allocateClusterChain
  refine Sat.ite (fun h0 => ?_) (fun h0 => ?_)
  · subst h0
    exact Sat.pure ⟨[], rfl, Reallocated.of_links Relinked.refl_nil⟩
  · have hstart : Taken env.geometry (s.volume env.geometry) (s.volume env.geometry) [] 0 0 :=
      ⟨Relinked.refl_nil, rfl, .inl ⟨rfl, rfl⟩⟩
    refine Sat.bind (allocateLinks_sat hfuel count 0 0 [] s hstart) ?_ ?_
    · rintro e s' ⟨rfl, hv, hfree⟩
      exact .inl ⟨rfl, hv, by simpa using hfree⟩
    · rintro r s₁ ⟨l, last, hlen, htaken⟩
      have hlen' : l.length = count := by simpa using hlen
      have hch : Chain env.geometry s₁.fat r l := by
        rcases htaken.links.chain with ⟨rfl, -⟩ | ⟨-, hch⟩
        · exact absurd hlen'.symm h0
        · exact hch
      have hused : ∀ x, s.fat x ≠ 0 → x ∉ l := fun x hx hm =>
        hx (htaken.links.fresh x hm List.not_mem_nil)
      have hmnt₁ : s₁.mounted = s.mounted := congrArg Volume.mounted htaken.only
      have hdata₁ : (s₁.volume env.geometry).data = (s.volume env.geometry).data := by
        rw [htaken.only]
        rfl
      rw [← hlen']
      refine Sat.bind (zeroLinks_sat (l := l) hfuel l [] r s₁ rfl hch hch) ?_ ?_
      · rintro e s₂ ⟨rfl, hfault, hfat, hmnt, hdata⟩
        have hundo : clearLinks s₁.fat l = s.fat := congrArg Volume.fat htaken.undo
        refine .inr ⟨rfl, hfault, ⟨?_, ?_, hmnt.trans hmnt₁⟩⟩
        · rw [State.volume_fat, State.volume_fat, hfat, hundo]
          exact Relinked.refl_nil
        · intro x hx
          rw [hdata x (hused x hx), hdata₁]
      · rintro ⟨⟩ s₂ ⟨hfat, hmnt, hdata⟩
        refine Sat.pure ⟨l, rfl, ?_, ?_, hmnt.trans hmnt₁⟩
        · rw [State.volume_fat, State.volume_fat, hfat]
          exact htaken.links
        · intro x hx
          rw [hdata x (hused x hx), hdata₁]

/-! ## Growing a chain -/

theorem Reallocated.chain_of_ne_nil {g : Geometry} {v v' : Volume} {old new : List Nat}
    {first : Nat} (h : Reallocated g v v' old new first) (hne : new ≠ []) :
    Chain g v'.fat first new := by
  rcases h.links.chain with ⟨hnil, -⟩ | ⟨-, hch⟩
  · exact absurd hnil hne
  · exact hch

/-- What a failing device can leave of a growth: the clusters `taken` are linked and
cleared, and behind them stands a link to `c`, which has been set free again. -/
structure GrowthCut (g : Geometry) (v v' : Volume) (l taken : List Nat) (first c : Nat) :
    Prop where
  grown : ∃ v₁, Reallocated g v v₁ l (l ++ taken ++ [c]) first ∧
    v' = v₁.setFat (clearLinks v₁.fat [c])
  fresh : v.fat c = 0

/-- How a growth from the chain `l` by `count` clusters fails. Without space the clusters
`taken` so far stay linked behind an existing chain. -/
def GrowthFailed (env : Env) (v v' : Volume) (l : List Nat) (first count : Nat)
    (e : Fat32Result) : Prop :=
  (e = .noSpace ∧ (freeClusters env.geometry v.fat).length < count ∧
    ∃ taken, (l = [] → taken = []) ∧ Reallocated env.geometry v v' l (l ++ taken) first) ∨
  (e = .ioError ∧ env.Faulty ∧ ∃ taken, (l = [] → taken = []) ∧
    (Reallocated env.geometry v v' l (l ++ taken) first ∨
      ∃ c, GrowthCut env.geometry v v' l taken first c))

/-- The loop of `ensure_cluster_chain_length`. -/
theorem growChain_sat (hfuel : env.geometry.totalClusters < env.fuel) {first : Nat} :
    ∀ (count : Nat) (l : List Nat) (s : State), l ≠ [] → Chain env.geometry s.fat first l →
    Sat (growChain env first count) s
      (fun _ s' => ∃ taken, taken.length = count ∧
        Reallocated env.geometry (s.volume env.geometry) (s'.volume env.geometry)
          l (l ++ taken) first)
      (fun e s' => GrowthFailed env (s.volume env.geometry) (s'.volume env.geometry)
        l first count e) := by
  intro count
  induction count with
  | zero =>
    intro l s hl hch
    refine Sat.pure ⟨[], rfl, ?_⟩
    rw [List.append_nil]
    exact Reallocated.of_links (Relinked.refl hch hl)
  | succ count ih =>
    intro l s hl hch
    unfold growChain
    refine Sat.bind (appendClusterToChain_sat hfuel hl hch) ?_ ?_
    · rintro e s₁ ⟨rfl, hv, hnil⟩
      refine .inl ⟨rfl, ?_, [], fun _ => rfl, ?_⟩
      · rw [State.volume_fat, hnil]
        exact Nat.succ_pos _
      · rw [List.append_nil, hv]
        exact Reallocated.of_links (Relinked.refl hch hl)
    · rintro c s₁ happ
      obtain ⟨hc, hfree⟩ := mem_freeClusters.mp happ.free
      refine Sat.bind (Sat.attempt (R := fun r (s' : State) => caught
          (fun _ => s'.volume env.geometry
            = (s₁.volume env.geometry).setData env.geometry c (fun _ => 0))
          (fun e : Fat32Result => e = .ioError ∧ env.Faulty ∧
            s'.volume env.geometry = s₁.volume env.geometry) r)
        (zeroCluster_sat hc) (fun _ _ h => h) (fun _ _ h => h)) (fun _ _ h => h) ?_
      rintro (e | ⟨⟩) s₂ h
      · obtain ⟨rfl, hfault, hv⟩ := h
        refine Sat.modify_bind (Sat.raise (.inr ⟨rfl, hfault, [], fun _ => rfl, .inr ⟨c, ?_, hfree⟩⟩))
        refine ⟨s₂.volume env.geometry, ?_, ?_⟩
        · rw [List.append_nil, hv]
          exact happ.grown
        · rw [State.volume_withFat, fat32SetCluster_of_valid hc]
          congr 1
          funext x
          simp [clearLinks]
      · have hzero : Reallocated env.geometry (s.volume env.geometry) (s₂.volume env.geometry)
            l (l ++ [c]) first := by
          rw [h]
          refine ⟨happ.grown.links, ?_, happ.grown.mounted⟩
          intro x hx
          have hne : x ≠ c := by
            rintro rfl
            exact hx hfree
          rw [← happ.grown.data x hx]
          funext o
          simp [Volume.setData, hne]
        refine Sat.mono (ih (l ++ [c]) s₂ (by simp) (hzero.chain_of_ne_nil (by simp))) ?_ ?_
        · rintro ⟨⟩ s₃ ⟨taken, hlen, hre⟩
          refine ⟨c :: taken, by rw [List.length_cons, hlen], ?_⟩
          rw [List.append_assoc] at hre
          exact hzero.trans hre (fun x hx => List.mem_append_left _ hx)
        · rintro e s₃ (⟨rfl, hcount, taken, -, hre⟩ | ⟨rfl, hfault, hfail⟩)
          · refine .inl ⟨rfl, ?_, c :: taken, fun hnil => absurd hnil hl, ?_⟩
            · have hsub : (freeClusters env.geometry s.fat).length
                  ≤ (c :: freeClusters env.geometry s₂.fat).length := by
                refine (List.subperm_of_subset freeClusters_nodup ?_).length_le
                intro x hx
                by_cases hxc : x = c
                · rw [hxc]; exact List.mem_cons_self
                · obtain ⟨hv, h0⟩ := mem_freeClusters.mp hx
                  have hold : x ∉ l := fun hm => hch.fat_ne_zero x hm h0
                  refine List.mem_cons_of_mem _ (mem_freeClusters.mpr ⟨hv, ?_⟩)
                  have := hzero.links.frame x hold (by simp [hold, hxc])
                  exact this.trans h0
              simp only [State.volume_fat, List.length_cons] at hsub hcount ⊢
              omega
            · rw [List.append_assoc] at hre
              exact hzero.trans hre (fun x hx => List.mem_append_left _ hx)
          · obtain ⟨taken, -, hre | ⟨d, hcut⟩⟩ := hfail
            · refine .inr ⟨rfl, hfault, c :: taken, fun hnil => absurd hnil hl, .inl ?_⟩
              rw [List.append_assoc] at hre
              exact hzero.trans hre (fun x hx => List.mem_append_left _ hx)
            · refine .inr ⟨rfl, hfault, c :: taken, fun hnil => absurd hnil hl, .inr ⟨d, ?_, ?_⟩⟩
              · obtain ⟨v₁, hre, hv₁⟩ := hcut.grown
                refine ⟨v₁, ?_, hv₁⟩
                have := hzero.trans hre (fun x hx => by simp [hx])
                simpa using this
              · have h0 := hcut.fresh
                have hdc : d ∉ l ++ [c] := fun hm =>
                  (hzero.chain_of_ne_nil (by simp)).fat_ne_zero d hm h0
                rw [← hzero.links.frame d (fun hm => hdc (List.mem_append_left _ hm)) hdc]
                exact h0

/-- What `ensure_cluster_chain_length` is given as the chain of a file: no cluster and 0, or
a chain with its first cluster. -/
def FileChain (g : Geometry) (fat : Nat → Nat) (first : Nat) (l : List Nat) : Prop :=
  (l = [] ∧ first = 0) ∨ (l ≠ [] ∧ Chain g fat first l)

theorem Reallocated.fileChain {g : Geometry} {v v' : Volume} {old new : List Nat}
    {first : Nat} (h : Reallocated g v v' old new first) : FileChain g v'.fat first new :=
  h.links.chain

/-- The chain that `ensure_cluster_chain_length` has made from the chain `l`: the same one with
`taken` behind it or, where no cluster is counted, a new one even if the file has one. -/
structure Ensured (g : Geometry) (v v' : Volume) (l : List Nat) (first current required : Nat)
    (base taken : List Nat) (r : Nat) : Prop where
  length : taken.length = required - current
  origin : base = l ∧ (first ≠ 0 → r = first) ∧ (current = 0 → l = [] ∨ taken = []) ∨
    base = [] ∧ l ≠ [] ∧ current = 0 ∧ 0 < required
  realloc : Reallocated g v v' base (base ++ taken) r
  same : taken = [] → v' = v

/-- `ensure_cluster_chain_length` on a file of which `current` clusters are counted. -/
theorem ensureClusterChainLength_sat (hfuel : env.geometry.totalClusters < env.fuel)
    {first current required : Nat} (h : FileChain env.geometry s.fat first l)
    (hcur : current ≤ l.length) :
    Sat (ensureClusterChainLength env first current required) s
      (fun r s' => ∃ base taken, Ensured env.geometry (s.volume env.geometry)
        (s'.volume env.geometry) l first current required base taken r)
      (fun e s' => ∃ base first', (base = l ∧ first' = first ∨ base = [] ∧ first' = 0) ∧
        GrowthFailed env (s.volume env.geometry) (s'.volume env.geometry)
          base first' (required - current) e) := by
  unfold ensureClusterChainLength
  refine Sat.ite (fun hle => ?_) (fun hle => ?_)
  · refine Sat.pure ⟨l, [], by simp; omega, .inl ⟨rfl, fun _ => rfl, fun _ => .inr rfl⟩, ?_,
      fun _ => rfl⟩
    rw [List.append_nil]
    rcases h with ⟨rfl, rfl⟩ | ⟨hl, hch⟩
    · exact Reallocated.of_links Relinked.refl_nil
    · exact Reallocated.of_links (Relinked.refl hch hl)
  refine Sat.ite (fun h0 => ?_) (fun h0 => ?_)
  · refine Sat.mono (allocateClusterChain_sat hfuel required) ?_ ?_
    · rintro r s' ⟨l', hlen, hre⟩
      refine ⟨[], l', by omega, ?_, hre, ?_⟩
      · rcases h with ⟨rfl, rfl⟩ | ⟨hl, -⟩
        · exact .inl ⟨rfl, fun hne => absurd rfl hne, fun _ => .inl rfl⟩
        · exact .inr ⟨rfl, hl, h0, by omega⟩
      · rintro rfl
        simp only [List.length_nil] at hlen
        omega
    · rintro e s' (⟨rfl, hv, hlt⟩ | ⟨rfl, hfault, hre⟩)
      · refine ⟨[], 0, .inr ⟨rfl, rfl⟩, .inl ⟨rfl, by simpa [h0] using hlt, [], fun _ => rfl, ?_⟩⟩
        rw [hv]
        exact Reallocated.of_links Relinked.refl_nil
      · exact ⟨[], 0, .inr ⟨rfl, rfl⟩, .inr ⟨rfl, hfault, [], fun _ => rfl, .inl hre⟩⟩
  · rcases h with ⟨rfl, rfl⟩ | ⟨hl, hch⟩
    · simp only [List.length_nil] at hcur
      omega
    · refine Sat.bind (growChain_sat hfuel _ l s hl hch)
        (fun e s' he => ⟨l, first, .inl ⟨rfl, rfl⟩, he⟩) ?_
      rintro ⟨⟩ s' ⟨taken, hlen, hre⟩
      refine Sat.pure ⟨l, taken, hlen, .inl ⟨rfl, fun _ => rfl, fun hc => absurd hc h0⟩, hre, ?_⟩
      rintro rfl
      simp only [List.length_nil] at hlen
      omega

end

end FunnyOS.Fat32
