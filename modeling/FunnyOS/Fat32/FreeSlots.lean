import FunnyOS.Fat32.SlotEdit
import FunnyOS.Fat32.Check

/-!
# The slots that `find_free_entry_in_cluster_dir` finds

When it succeeds, the slots that it promises are free and are where `read_directory_entry` and
`write_directory_entry` look for them. They are the first long enough run of free slots, and
nothing has changed; or there was no such run, and one zeroed cluster has been linked behind the
chain.
-/

namespace FunnyOS.Fat32

open Prog

section

variable {es post done : List DirectoryEntry} {e : DirectoryEntry} {start count needed i : Nat}
  {run : FreeRun}

/-- `count` free slots in a row, from the slot `start` on. -/
def FreeSlots (es : List DirectoryEntry) (start count : Nat) : Prop :=
  ∀ k < count, ∃ x, es[start + k]? = some x ∧ x.IsFree

theorem FreeSlots.fits (h : FreeSlots es start count) (hpos : 0 < count) :
    start + count ≤ es.length := by
  obtain ⟨x, hx, -⟩ := h (count - 1) (by omega)
  have := (List.getElem?_eq_some_iff.mp hx).1
  omega

theorem FreeSlots.of_append (h : FreeSlots (es ++ post) start count)
    (hfits : start + count ≤ es.length) : FreeSlots es start count := by
  intro k hk
  have hslot := h k hk
  rwa [List.getElem?_append_left (by omega)] at hslot

theorem FreeRunAt.freeSlots (h : FreeRunAt es start count) : FreeSlots es start count := by
  intro k hk
  have hfits := h.fits
  have hlt : start + k < es.length := by omega
  refine ⟨es[start + k], List.getElem?_eq_getElem hlt, h.free _ ?_⟩
  refine List.mem_iff_getElem?.mpr ⟨k, ?_⟩
  rw [List.getElem?_take, if_pos hk, List.getElem?_drop, List.getElem?_eq_getElem hlt]

/-- A run that ends with a slot that is not free does not exist. -/
theorem FreeSlots.not_used (hfree : ¬ e.IsFree) (hnone : ¬ FreeSlots done i needed)
    (hpos : 0 < needed) : ¬ FreeSlots (done ++ [e]) i needed := by
  intro h
  have hfits := h.fits hpos
  rw [List.length_append, List.length_singleton] at hfits
  by_cases hend : i + needed ≤ done.length
  · exact hnone (h.of_append hend)
  · obtain ⟨x, hx, hxfree⟩ := h (needed - 1) (by omega)
    rw [show i + (needed - 1) = done.length by omega, List.getElem?_append_right (Nat.le_refl _),
      Nat.sub_self, List.getElem?_cons_zero] at hx
    obtain rfl := Option.some.inj hx
    exact hfree hxfree

/-- A run that is still too short holds no long one. -/
theorem FreeSlots.not_open (hrun : FreeRunAt (done ++ [e]) start count)
    (hend : start + count = (done ++ [e]).length) (hshort : count < needed)
    (hnone : ¬ FreeSlots done i needed) : ¬ FreeSlots (done ++ [e]) i needed := by
  intro h
  have hfits := h.fits (by omega)
  rw [List.length_append, List.length_singleton] at hfits hend
  by_cases hold : i + needed ≤ done.length
  · exact hnone (h.of_append hold)
  · -- it would begin before the open run, with the slot that is not free in it
    obtain ⟨x, hx, hxfree⟩ := h (start - 1 - i) (by omega)
    rw [show i + (start - 1 - i) = start - 1 by omega] at hx
    refine hrun.first x ?_ hxfree
    have hle : start ≤ (done ++ [e]).length := by
      rw [List.length_append, List.length_singleton]; omega
    rw [List.getLast?_eq_getElem?, List.length_take, Nat.min_eq_left hle, List.getElem?_take,
      if_pos (by omega)]
    exact hx

variable (es) in
/-- The scan stops at the first long enough run; when it does not stop there is none. -/
theorem scanForFree_first (h : OpenRun done run) (hshort : run.count < needed)
    (hnone : ∀ i, ¬ FreeSlots done i needed) :
    match scanForFree needed es done.length run with
    | .inr start => ∀ i, FreeSlots (done ++ es) i needed → start ≤ i
    | .inl _ => ∀ i, ¬ FreeSlots (done ++ es) i needed := by
  induction es generalizing done run with
  | nil => simpa [scanForFree] using hnone
  | cons e es ih =>
    simp only [scanForFree]
    have hassoc : done ++ e :: es = (done ++ [e]) ++ es := by simp
    have hlen : done.length + 1 = (done ++ [e]).length := by simp
    by_cases hfree : e.name0 = 0 ∨ e.name0 = deletedMark
    · rw [if_pos hfree]
      rcases h.free hfree with ⟨h0, -⟩ | ⟨-, hend, hrun⟩
      · exact absurd h0 (Nat.succ_ne_zero _)
      · simp only at hend hrun
        by_cases hdone : run.count + 1 ≥ needed
        · simp only [if_pos hdone]
          intro i hi
          refine Nat.le_of_not_lt fun hlt => ?_
          exact hnone i (hi.of_append (by omega))
        · simp only [if_neg hdone]
          rw [hassoc, hlen]
          refine ih (h.free hfree) (by simp only; omega) ?_
          exact fun i => FreeSlots.not_open hrun hend (by omega) (hnone i)
    · rw [if_neg hfree, hassoc, hlen]
      refine ih (OpenRun.used hfree) (by simp only; omega) ?_
      exact fun i => FreeSlots.not_used hfree (hnone i) (by omega)

/-- What the search over all slots tells. -/
theorem FreeSearch.first (hpos : 0 < needed) {r : Nat ⊕ Nat} (h : FreeSearch es needed r) :
    match r with
    | .inr start => ∀ i, FreeSlots es i needed → start ≤ i
    | .inl _ => ∀ i, ¬ FreeSlots es i needed := by
  have hempty : ∀ i, ¬ FreeSlots [] i needed := by
    intro i hi
    obtain ⟨x, hx, -⟩ := hi 0 hpos
    simp at hx
  have hspec := scanForFree_first es (show OpenRun [] ⟨0, 0⟩ from .inl ⟨rfl, by simp⟩) hpos hempty
  cases r with
  | inr start =>
    rw [FreeSearch] at h
    rw [List.length_nil, h] at hspec
    exact hspec
  | inl start =>
    obtain ⟨run, hscan, -⟩ := h
    rw [List.length_nil, hscan] at hspec
    exact hspec

end

/-- The slot `index` of the directory at `d` is in the chain `l` and is free; its cluster is the
one that `cluster_for_directory_index` gives. -/
def FreeSlotAt (g : Geometry) (v : Volume) (d : Nat) (l : List Nat) (index : Nat) : Prop :=
  getClusterAtIndex g v.fat d (index / g.entriesPerCluster) ∈ l ∧
    (bufferEntry (v.data (getClusterAtIndex g v.fat d (index / g.entriesPerCluster)))
      (index % g.entriesPerCluster)).IsFree

/-- The cluster `c` linked behind `l` and zeroed; no other link and no other cluster has
changed. -/
structure LinkedBehind (g : Geometry) (v v' : Volume) (l : List Nat) (c : Nat) : Prop where
  free : v.fat c = 0
  fresh : c ∉ l
  links : ∃ last ∈ l, v'.fat = fun x => if x = last then c else if x = c then endOfChain else v.fat x
  zeroed : ∀ o < g.clusterSize, v'.data c o = 0
  others : ∀ x, x ≠ c → v'.data x = v.data x

/-- What `find_free_entry_in_cluster_dir` has done when it gives the slot `start`; `l'` is the
chain of the directory afterwards. -/
structure SlotsFound (g : Geometry) (v v' : Volume) (d : Nat) (l : List Nat) (needed start : Nat)
    (l' : List Nat) : Prop where
  chain : Chain g v'.fat d l'
  slots : ∀ k < needed, FreeSlotAt g v' d l' (start + k)
  change : (v' = v ∧ l' = l ∧ FreeSlots (chainEntries g v l) start needed ∧
      ∀ i, FreeSlots (chainEntries g v l) i needed → start ≤ i) ∨
    ((∀ i, ¬ FreeSlots (chainEntries g v l) i needed) ∧
      ∃ c, l' = l ++ [c] ∧ LinkedBehind g v v' l c)

section

variable {env : Env} {g : Geometry} {v v' : Volume} {s s' : State} {d start needed : Nat}
  {l : List Nat}

/-- The two ways to number the slots agree. -/
theorem FreeSlots.at (hch : Chain g v.fat d l) (h : FreeSlots (chainEntries g v l) start needed) :
    ∀ k < needed, FreeSlotAt g v d l (start + k) := by
  intro k hk
  obtain ⟨x, hx, hfree⟩ := h k hk
  have hlt := (chainEntries_split (List.getElem?_eq_some_iff.mp hx).1).1
  rw [chainEntries_getElem? hlt] at hx
  obtain rfl := Option.some.inj hx
  rw [FreeSlotAt, hch.getClusterAtIndex_eq hlt]
  exact ⟨List.getElem_mem hlt, hfree⟩

theorem RoomFound.found (hch : Chain g v.fat d l) (hpos : 0 < needed) (hmax : needed ≤ maxNameEntries)
    (h : RoomFound g v v' d l needed start) : ∃ l', SlotsFound g v v' d l needed start l' := by
  cases h with
  | inside same search =>
    subst same
    have hslots := (freeRunAt_of_inside search).freeSlots
    exact ⟨l, hch, hslots.at hch, .inl ⟨rfl, rfl, hslots, search.first hpos⟩⟩
  | extended c v₁ search grown cleared =>
    subst cleared
    obtain ⟨hc, hcfree⟩ := mem_freeClusters.mp grown.free
    have hnew : Chain g v₁.fat d (l ++ [c]) :=
      (grown.grown.links.chain.resolve_left (by simp)).2
    have hnot : c ∉ l := fun hm => hch.fat_ne_zero c hm hcfree
    have hdata : ∀ x, x ≠ c → (v₁.setData g c fun _ => 0).data x = v.data x := by
      intro x hx
      rw [← grown.data]
      funext o
      exact if_neg fun h => hx h.1
    have hzero : ∀ o < g.clusterSize, (v₁.setData g c fun _ => 0).data c o = 0 :=
      fun o ho => if_pos ⟨rfl, ho⟩
    -- the slots of the new cluster are free
    have hcleared : ∀ x ∈ chainEntries g (v₁.setData g c fun _ => 0) [c], x.IsFree := by
      intro x hx
      rw [chainEntries_cons, chainEntries_nil, List.append_nil] at hx
      obtain ⟨i, hi, rfl⟩ := List.mem_map.mp hx
      have hi := List.mem_range.mp hi
      have hmul := g.entriesPerCluster_mul
      refine .inl ?_
      exact hzero (32 * i + 0) (by omega)
    have hentries : chainEntries g (v₁.setData g c fun _ => 0) (l ++ [c]) =
        chainEntries g v l ++ chainEntries g (v₁.setData g c fun _ => 0) [c] := by
      rw [chainEntries_append, chainEntries_congr fun x hx => hdata x fun heq => hnot (heq ▸ hx)]
    have hlen : needed ≤ (chainEntries g (v₁.setData g c fun _ => 0) [c]).length := by
      have := g.entriesPerCluster_ge
      rw [chainEntries_length, List.length_singleton, Nat.one_mul]
      simp only [maxNameEntries] at hmax
      omega
    have hrun := freeRunAt_of_extended search hcleared hlen
    rw [← hentries] at hrun
    refine ⟨l ++ [c], hnew, hrun.freeSlots.at hnew, .inr ⟨search.first hpos, c, rfl, ?_⟩⟩
    exact ⟨hcfree, hnot, grown.fat, hzero, hdata⟩

/-- `find_free_entry_in_cluster_dir`, when it succeeds, on a directory with arbitrary slots. -/
theorem findFreeEntryInClusterDir_found (hfuel : env.geometry.totalClusters < env.fuel)
    (hl : l ≠ []) (hch : Chain env.geometry s.fat d l) (hpos : 1 ≤ needed)
    (hmax : needed ≤ maxNameEntries) (h : findFreeEntryInClusterDir env d needed s = .ok start s') :
    ∃ l', SlotsFound env.geometry (s.volume env.geometry) (s'.volume env.geometry) d l needed
      start l' := by
  have hroom := Sat.of_ok (findFreeEntryInClusterDir_sat hfuel hl hch) h
  exact hroom.found hch hpos hmax

/-- A root directory of two clusters, with fourteen files in the first one. -/
def twoClusterState : State := smallState [0, 0, 3, endOfChain] fun c =>
  if c = 2 then (List.range 14).map fun i => letterEntry (.ofNat (0x41 + i)) attrArchive 0 0 else []

/-- The slots found there begin in the first cluster and end in the second. -/
theorem findFreeEntryInClusterDir_found_root : ∃ l',
    SlotsFound smallGeometry (twoClusterState.volume smallGeometry)
      (((findFreeEntryInClusterDir smallEnv 2 11 twoClusterState).finalState
        twoClusterState).volume smallGeometry) 2 [2, 3] 11 14 l' := by
  have hdir : Chain smallGeometry twoClusterState.fat 2 [2, 3] :=
    chain_cons.mpr ⟨rfl, by decide, chain_cons.mpr ⟨by decide +kernel, by decide,
      chain_nil.mpr (by decide +kernel)⟩⟩
  have hcall : findFreeEntryInClusterDir smallEnv 2 11 twoClusterState = .ok 14
      ((findFreeEntryInClusterDir smallEnv 2 11 twoClusterState).finalState twoClusterState) :=
    Prog.eq_ok_of_result (by decide +kernel)
  have hfuel : smallEnv.geometry.totalClusters < smallEnv.fuel := by decide
  exact findFreeEntryInClusterDir_found hfuel (by simp) hdir (by decide) (by decide) hcall

end

end FunnyOS.Fat32
