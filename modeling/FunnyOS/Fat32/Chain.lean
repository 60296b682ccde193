import FunnyOS.Fat32.Cluster
import FunnyOS.Fat32.Volume
import FunnyOS.Lib.Linked

/-!
# Cluster chains as lists

`Chain g fat c l`: the chain that starts at `c` in the FAT is the finite list `l` of data
clusters, closed by an end-of-chain value. `clusterChain g fat c` computes the list.
`Relinked` relates the FAT before and after an operation that turns one chain into
another one, taking clusters from the free ones and giving back what it drops.
-/

namespace FunnyOS.Fat32

open Prog

variable {g : Geometry} {fat fat' fat'' : Nat → Nat} {c x : Nat} {l l' : List Nat}

/-- The chain from `c` visits exactly `l` and ends in an end-of-chain value. -/
def Chain (g : Geometry) (fat : Nat → Nat) (c : Nat) (l : List Nat) : Prop :=
  Linked (fat32NextCluster g fat) (fun x => g.isValidDataCluster x = true)
    (fun x => endOfChain ≤ x) c l

/-- The data clusters that the walk from `c` visits, at most `room` of them. -/
def walkClusters (g : Geometry) (fat : Nat → Nat) : Nat → Nat → List Nat
  | 0, _ => []
  | room + 1, c =>
    if g.isValidDataCluster c then c :: walkClusters g fat room (fat32NextCluster g fat c)
    else []

/-- The data clusters of the chain from `c`. -/
def clusterChain (g : Geometry) (fat : Nat → Nat) (c : Nat) : List Nat :=
  walkClusters g fat g.totalClusters c

/-! ## Single links -/

theorem valid_not_end (hx : g.isValidDataCluster x = true) : ¬ endOfChain ≤ x := by
  have := g.totalClusters_lt_endOfChain
  rw [g.isValidDataCluster_iff] at hx
  omega

theorem valid_inChain (hx : g.isValidDataCluster x = true) : inChain x = true := by
  have := valid_not_end hx
  rw [g.isValidDataCluster_iff] at hx
  simp only [inChain, Bool.and_eq_true, decide_eq_true_eq]
  omega

theorem end_not_inChain (hx : endOfChain ≤ x) : inChain x = false := by
  simp only [inChain, Bool.and_eq_false_iff, decide_eq_false_iff_not]
  omega

theorem valid_mod (hx : g.isValidDataCluster x = true) : x % 0x10000000 = x := by
  have := valid_not_end hx
  simp only [endOfChain] at this
  exact Nat.mod_eq_of_lt (by omega)

theorem fat32NextCluster_of_valid (hx : g.isValidDataCluster x = true) :
    fat32NextCluster g fat x = fat x % 0x10000000 := if_pos hx

theorem fat32NextCluster_congr (h : fat' x = fat x) :
    fat32NextCluster g fat' x = fat32NextCluster g fat x := by
  simp only [fat32NextCluster, h]

theorem fat32SetCluster_of_valid (hx : g.isValidDataCluster x = true) (value : Nat) :
    fat32SetCluster g fat x value = fun c => if c = x then value % 0x10000000 else fat c :=
  if_pos hx

theorem endOfChain_mod : endOfChain % 0x10000000 = endOfChain := by decide

/-! ## Chains -/

theorem chain_nil : Chain g fat c [] ↔ endOfChain ≤ c := Iff.rfl

theorem chain_cons : Chain g fat c (x :: l) ↔
    c = x ∧ g.isValidDataCluster x = true ∧ Chain g fat (fat32NextCluster g fat x) l := Iff.rfl

namespace Chain

theorem congr (h : Chain g fat c l) (same : ∀ x ∈ l, fat' x = fat x) : Chain g fat' c l :=
  Linked.congr h (fun x hx => fat32NextCluster_congr (same x hx))

theorem valid (h : Chain g fat c l) : ∀ x ∈ l, g.isValidDataCluster x = true :=
  Linked.all_inside h

theorem unique (h : Chain g fat c l) (h' : Chain g fat c l') : l = l' :=
  Linked.unique (fun _ => valid_not_end) h h'

theorem nodup (h : Chain g fat c l) : l.Nodup := Linked.nodup (fun _ => valid_not_end) h

theorem head_valid (h : Chain g fat c l) (hl : l ≠ []) : g.isValidDataCluster c = true :=
  h.valid c (Linked.mem_self h hl)

theorem ne_nil_of_valid (h : Chain g fat c l) (hc : g.isValidDataCluster c = true) :
    l ≠ [] := by
  rintro rfl
  exact valid_not_end hc h

theorem length_lt (h : Chain g fat c l) : l.length < g.totalClusters := by
  have hsub : (0 :: l) ⊆ List.range g.totalClusters := by
    intro x hx
    have hroot := g.rootCluster_lt
    rcases List.mem_cons.mp hx with rfl | hx
    · simp only [List.mem_range]; omega
    · have := (g.isValidDataCluster_iff).mp (h.valid x hx)
      simpa using this.2
  have hnd : (0 :: l).Nodup := List.nodup_cons.mpr ⟨fun h0 => by
    have := (g.isValidDataCluster_iff).mp (h.valid 0 h0); omega, h.nodup⟩
  have := (List.subperm_of_subset hnd hsub).length_le
  rw [List.length_range, List.length_cons] at this
  omega

/-- No cluster of a chain is free. -/
theorem fat_ne_zero (h : Chain g fat c l) : ∀ x ∈ l, fat x ≠ 0 := by
  induction l generalizing c with
  | nil => simp
  | cons y l ih =>
    obtain ⟨rfl, hy, hl⟩ := chain_cons.mp h
    intro x hx
    rcases List.mem_cons.mp hx with rfl | hx
    · intro h0
      rw [fat32NextCluster_of_valid hy, h0] at hl
      cases l with
      | nil => simp [chain_nil, endOfChain] at hl
      | cons z l =>
        obtain ⟨rfl, hz, -⟩ := chain_cons.mp hl
        simp [Geometry.isValidDataCluster] at hz
    · exact ih hl x hx

theorem walkClusters_eq (h : Chain g fat c l) {room : Nat} (hroom : l.length ≤ room) :
    walkClusters g fat room c = l := by
  induction l generalizing c room with
  | nil =>
    have hc : g.isValidDataCluster c ≠ true := fun hv => valid_not_end hv h
    cases room with
    | zero => rfl
    | succ room => simp only [walkClusters, if_neg hc]
  | cons y l ih =>
    obtain ⟨rfl, hy, hl⟩ := chain_cons.mp h
    cases room with
    | zero => simp at hroom
    | succ room =>
      simp only [walkClusters, if_pos hy]
      rw [ih hl (by simpa using hroom)]

/-- A finite chain is the list that `clusterChain` computes. -/
theorem clusterChain_eq (h : Chain g fat c l) : clusterChain g fat c = l :=
  h.walkClusters_eq (Nat.le_of_lt h.length_lt)

/-- `get_cluster_at_index` finds the `i`-th cluster. -/
theorem getClusterAtIndex_eq (h : Chain g fat c l) {i : Nat} (hi : i < l.length) :
    getClusterAtIndex g fat c i = l[i] := by
  induction l generalizing c i with
  | nil => simp at hi
  | cons y l ih =>
    obtain ⟨rfl, hy, hl⟩ := chain_cons.mp h
    cases i with
    | zero => rfl
    | succ i =>
      simp only [getClusterAtIndex, if_pos (valid_inChain hy), List.getElem_cons_succ]
      exact ih hl (by simpa using hi)

/-- Behind the last cluster `get_cluster_at_index` leaves the chain. -/
theorem getClusterAtIndex_end (h : Chain g fat c l) {i : Nat} (hi : l.length ≤ i) :
    inChain (getClusterAtIndex g fat c i) = false := by
  induction l generalizing c i with
  | nil =>
    have hc := end_not_inChain h
    cases i with
    | zero => exact hc
    | succ i => simp only [getClusterAtIndex, hc, Bool.false_eq_true, if_false]
  | cons y l ih =>
    obtain ⟨rfl, hy, hl⟩ := chain_cons.mp h
    cases i with
    | zero => simp at hi
    | succ i =>
      simp only [getClusterAtIndex, if_pos (valid_inChain hy)]
      exact ih hl (by simpa using hi)

end Chain

/-! ## Turning one chain into another -/

/-- The file or directory that had the chain `old` has the chain `new` starting at `first`
(0 if it is empty); clusters are taken from the free ones, and dropped ones become free. -/
structure Relinked (g : Geometry) (fat fat' : Nat → Nat) (old new : List Nat)
    (first : Nat) : Prop where
  chain : (new = [] ∧ first = 0) ∨ (new ≠ [] ∧ Chain g fat' first new)
  frame : ∀ c, c ∉ old → c ∉ new → fat' c = fat c
  freed : ∀ c ∈ old, c ∉ new → fat' c = 0
  fresh : ∀ c ∈ new, c ∉ old → fat c = 0

theorem Relinked.refl_nil : Relinked g fat fat [] [] 0 where
  chain := .inl ⟨rfl, rfl⟩
  frame _ _ _ := rfl
  freed := by simp
  fresh := by simp

theorem Relinked.refl (h : Chain g fat c l) (hl : l ≠ []) : Relinked g fat fat l l c where
  chain := .inr ⟨hl, h⟩
  frame _ _ _ := rfl
  freed _ h₁ h₂ := absurd h₁ h₂
  fresh _ h₁ h₂ := absurd h₁ h₂

theorem Relinked.trans {l₀ l₁ l₂ : List Nat} {c₁ c₂ : Nat} (h₁ : Relinked g fat fat' l₀ l₁ c₁)
    (h₂ : Relinked g fat' fat'' l₁ l₂ c₂) : Relinked g fat fat'' l₀ l₂ c₂ where
  chain := h₂.chain
  frame x h₀ hx := by
    by_cases hm : x ∈ l₁
    · rw [h₂.freed x hm hx, h₁.fresh x hm h₀]
    · rw [h₂.frame x hm hx, h₁.frame x h₀ hm]
  freed x h₀ hx := by
    by_cases hm : x ∈ l₁
    · exact h₂.freed x hm hx
    · rw [h₂.frame x hm hx, h₁.freed x h₀ hm]
  fresh x hx h₀ := by
    by_cases hm : x ∈ l₁
    · exact h₁.fresh x hm h₀
    · rw [← h₁.frame x h₀ hm, h₂.fresh x hx hm]

/-- A cluster in use elsewhere keeps its link. -/
theorem Relinked.keep {first : Nat} (h : Relinked g fat fat' l l' first) {x : Nat}
    (hx : x ∉ l) (h0 : fat x ≠ 0) : fat' x = fat x :=
  h.frame x hx fun hn => h0 (h.fresh x hn hx)

/-- The FAT with the clusters of a list set free. -/
def clearLinks (fat : Nat → Nat) (l : List Nat) : Nat → Nat := fun c => if c ∈ l then 0 else fat c

theorem clearLinks_nil : clearLinks fat [] = fat := by
  funext c
  simp [clearLinks]

theorem Relinked.clear :
    Relinked g fat (clearLinks fat l) l [] 0 where
  chain := .inl ⟨rfl, rfl⟩
  frame x h₁ _ := if_neg h₁
  freed x h₁ _ := if_pos h₁
  fresh := by simp

/-- Cutting a chain to its first `n + 1` clusters. -/
theorem Relinked.cut {first n : Nat} (h : Chain g fat first l) (hn : n < l.length)
    (hcut : fat' = clearLinks (fun x => if x = l[n] then endOfChain else fat x)
      (l.drop (n + 1))) : Relinked g fat fat' l (l.take (n + 1)) first := by
  have hsplit : l.take n ++ l[n] :: l.drop (n + 1) = l := by
    rw [List.getElem_cons_drop, List.take_append_drop]
  have hnd : (l.take n ++ l[n] :: l.drop (n + 1)).Nodup := by rw [hsplit]; exact h.nodup
  rw [List.nodup_append] at hnd
  obtain ⟨-, hnd₂, hdisj⟩ := hnd
  have htake : l.take (n + 1) = l.take n ++ [l[n]] := by
    rw [List.take_add_one, List.getElem?_eq_getElem hn]; rfl
  have hval := h.valid l[n] (List.getElem_mem hn)
  constructor
  · right
    rw [htake]
    refine ⟨List.append_ne_nil_of_right_ne_nil _ (List.cons_ne_nil _ _), ?_⟩
    refine Linked.cut (by rw [hsplit]; exact h) ?_ ?_
    · intro y hy
      apply fat32NextCluster_congr
      have h₁ : y ∉ l.drop (n + 1) := fun hd => hdisj y hy y (List.mem_cons_of_mem _ hd) rfl
      have h₂ : y ≠ l[n] := fun he => hdisj y hy _ List.mem_cons_self he
      rw [hcut]; simp [clearLinks, h₁, h₂]
    · have h₁ : l[n] ∉ l.drop (n + 1) := (List.nodup_cons.mp hnd₂).1
      rw [fat32NextCluster_of_valid hval, hcut]
      simp [clearLinks, h₁, endOfChain]
  · intro x hx _
    have h₁ : x ∉ l.drop (n + 1) := fun hd => hx (List.mem_of_mem_drop hd)
    have h₂ : x ≠ l[n] := fun he => hx (he ▸ List.getElem_mem hn)
    rw [hcut]; simp [clearLinks, h₁, h₂]
  · intro x hx hnot
    have hmem : x ∈ l.drop (n + 1) := by
      rcases List.mem_append.mp (List.take_append_drop (n + 1) l ▸ hx) with h | h
      · exact absurd h hnot
      · exact h
    rw [hcut]; simp [clearLinks, hmem]
  · intro x hx hnot
    exact absurd (List.mem_of_mem_take hx) hnot

/-- Appending one free cluster to a chain. -/
theorem Relinked.append {first last new : Nat} (h : Chain g fat first (l ++ [last]))
    (hnew : g.isValidDataCluster new = true) (hfree : fat new = 0)
    (hfat : fat' = fun x => if x = last then new else if x = new then endOfChain else fat x) :
    Relinked g fat fat' (l ++ [last]) (l ++ [last] ++ [new]) first := by
  have hnotin : new ∉ l ++ [last] := fun hm => h.fat_ne_zero new hm hfree
  have hlast : g.isValidDataCluster last = true := h.valid last (by simp)
  have hne : new ≠ last := fun he => hnotin (by simp [he])
  constructor
  · right
    refine ⟨by simp, ?_⟩
    have hjoin : Chain g fat' first (l ++ last :: [new]) := by
      refine Linked.join (b := new) h ?_ ?_ ?_
      · intro y hy
        apply fat32NextCluster_congr
        have h₁ : y ≠ last := by
          rintro rfl
          have := h.nodup
          rw [List.nodup_append] at this
          exact this.2.2 y hy y (by simp) rfl
        have h₂ : y ≠ new := fun he => hnotin (by simp [← he, hy])
        rw [hfat]; simp [h₁, h₂]
      · rw [fat32NextCluster_of_valid hlast, hfat]
        simp only [if_true]
        exact valid_mod hnew
      · refine chain_cons.mpr ⟨rfl, hnew, ?_⟩
        rw [fat32NextCluster_of_valid hnew, hfat, chain_nil]
        simp [hne, endOfChain]
    simpa using hjoin
  · intro x hx hx'
    have h₁ : x ≠ last := fun he => hx (by simp [he])
    have h₂ : x ≠ new := fun he => hx' (by simp [he])
    rw [hfat]; simp [h₁, h₂]
  · intro x hx hx'
    exact absurd (List.mem_append_left _ hx) hx'
  · intro x hx hx'
    rcases List.mem_append.mp hx with h | h
    · exact absurd h hx'
    · rw [List.mem_singleton.mp h, hfree]

end FunnyOS.Fat32
