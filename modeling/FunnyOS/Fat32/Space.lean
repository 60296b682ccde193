import FunnyOS.Fat32.Check
import FunnyOS.Fat32.Tree

/-!
# Clusters that are lost

A volume wastes nothing (`NoWaste`) when every cluster in use lies on the chain of the root or of a
live entry, and every file has exactly the clusters that its size needs. Operations keep this
unless they run out of space half-way (`SpaceSafe`): the clusters that a growing file has got by then
stay linked to it, and those of a new file or directory whose entry finds no room are not given
back.
-/

namespace FunnyOS.Fat32

open Prog

/-! ## Waste -/

/-- No cluster is lost. -/
structure NoWaste (g : Geometry) (v : Volume) : Prop where
  used : ∀ c, g.isValidDataCluster c = true → v.fat c ≠ 0 → ∃ o, OnChain g v c o
  exact : ∀ {d i e}, LiveIn g v d i e → e.isDirectory = false →
    (clusterChain g v.fat e.entryFirstCluster).length = clustersForSize g e.size

section

variable {ok : List DirectoryEntry → Prop} {g : Geometry} {v v' : Volume}
  {D : Nat → Prop} {own : Owner → List Nat} {o : Owner} {c : Nat}

/-- Who owns a cluster has it on his chain. -/
theorem Sound.onChain (h : Sound ok g v D own) (hcov : Covers g v D) (hc : c ∈ own o) :
    OnChain g v c o := by
  rcases o with _ | ⟨d, i⟩ | _
  · rw [← h.cert.root.clusterChain_eq] at hc
    exact .root hc
  · have hlive : ∃ e, D d ∧ liveEntries g v d i = some e := by
      by_contra hn
      have hnil := h.cert.unused (d := d) (i := i) fun hd => by
        cases he : liveEntries g v d i with
        | none => rfl
        | some e => exact absurd ⟨e, hd, he⟩ hn
      rw [hnil] at hc
      cases hc
    obtain ⟨e, hd, he⟩ := hlive
    rw [h.chain_eq hd he] at hc
    exact .slot ⟨hcov d hd, he⟩ hc
  · rw [h.settled] at hc
    cases hc

/-- An account that covers just the reachable directories is tight when nothing is wasted. -/
theorem Sound.tight_iff (h : Sound ok g v D own) (hcov : Covers g v D) :
    Tight g v.fat (liveEntries g v) D own ↔ NoWaste g v := by
  constructor
  · intro ht
    refine ⟨fun c hv h0 => ?_, fun {d i e} he hfile => ?_⟩
    · obtain ⟨o, ho⟩ := ht.full c hv h0
      exact ⟨o, h.onChain hcov ho⟩
    · have hd := h.reachable he.1
      rw [← h.chain_eq hd he.2]
      exact ht.exact hd he.2 hfile
  · intro hn
    refine ⟨fun c hv h0 => ?_, fun {d i e} hd he hfile => ?_⟩
    · obtain ⟨o, ho⟩ := hn.used c hv h0
      exact ⟨o, h.mem_own ho⟩
    · rw [h.chain_eq hd he]
      exact hn.exact ⟨hcov d hd, he⟩ hfile

end

/-! ## Operations that waste nothing -/

/-- The operation does not run out of space half-way; an entry is renamed only in directories that
are in shape. -/
def SpaceSafe (g : Geometry) (v : Volume) : Operation → Prop
  | .writeFile path data append => ∀ cs r parentDir name parentPath,
    ParentOf g v path cs r parentDir name parentPath →
      ¬ WriteShort g v (owners g v) (dirCluster g r) name append data
  | .makeDir path => ∀ cs r parentDir name parentPath,
    ParentOf g v path cs r parentDir name parentPath → ¬ MakeDirShort g v (dirCluster g r) name
  | .remove _ => True
  | .rename oldPath _ => RenameSafe g v oldPath

/-- The invariant of runs that waste nothing. -/
structure Spare (g : Geometry) (v : Volume) (D : Nat → Prop) (own : Owner → List Nat) :
    Prop where
  sound : Sound (Tidy SlotTidy) g v D own
  covers : Covers g v D
  tight : Tight g v.fat (liveEntries g v) D own

section

variable {g : Geometry} {v v' : Volume} {D : Nat → Prop} {own own' : Owner → List Nat}
  {d : Nat} {name : CStr} {append : Bool} {data : List UInt8}

theorem WellFormed.spare (h : WellFormed g v) (hn : NoWaste g v) :
    Spare g v (Reachable g v) (owners g v) :=
  ⟨h.sound, fun _ hx => hx, (h.sound.tight_iff fun _ hx => hx).mpr hn⟩

theorem Spare.noWaste (h : Spare g v D own) : NoWaste g v :=
  (h.sound.tight_iff h.covers).mp h.tight

/-- What the account calls the chain of an entry does not matter. -/
theorem Spare.writeShort (h : Spare g v D own) (hd : D d)
    (hs : WriteShort g v own d name append data) :
    WriteShort g v (owners g v) d name append data := by
  cases hs with
  | growth it found clusters some_free short =>
    have hlive := liveEntries_item (lookup_mem found).1
    refine .growth it found ?_ some_free short
    rw [owners_slot ⟨h.covers d hd, hlive⟩, ← h.sound.chain_eq hd hlive]
    exact clusters
  | slot absent clusters exact start search => exact .slot absent clusters exact start search

theorem Spare.failed {short : Prop} (h : Spare g v D own)
    (hf : Failed (Tidy SlotTidy) g v v' D own own' short) (hshort : ¬ short) : Spare g v' D own' :=
  ⟨hf.untouched.sound, fun x hx => hf.untouched.reachable (fun _ => h.sound.reachable)
    (h.covers x hx), (hf.tight h.tight).resolve_right hshort⟩

end

section

variable {env : Env} {s s' : State} {op : Operation} {ops : List Operation}

/-- An effect that meets the condition wastes nothing. -/
theorem Effect.spare {g : Geometry} {v v' : Volume} {D D' : Nat → Prop}
    {own own' : Owner → List Nat} (he : Effect (Tidy SlotTidy) g v v' D own op D' own')
    (h : Spare g v D own) (hadm : op.Admissible) (hsafe : SpaceSafe g v op) :
    Spare g v' D' own' := by
  have hs := h.sound
  cases he with
  | nothing same => exact same ▸ h
  | writeFailed hp failed =>
    have hd := hs.dir_of_resolve hp.resolved hp.dir
    exact h.failed failed fun hshort => hsafe _ _ _ _ _ hp (h.writeShort hd hshort)
  | replaced hp _ file =>
    have hd := hs.dir_of_resolve hp.resolved hp.dir
    exact ⟨file.sound, fun x hx => file.reachable hs (h.covers x hx), file.tight h.tight⟩
  | created hp _ file =>
    have hd := hs.dir_of_resolve hp.resolved hp.dir
    exact ⟨file.sound, fun x hx => file.toCreated.reachable hs (h.covers x hx),
      file.tight h.tight⟩
  | makeDirFailed hp failed => exact h.failed failed (hsafe _ _ _ _ _ hp)
  | dirCreated hp _ dir =>
    have hd := hs.dir_of_resolve hp.resolved hp.dir
    refine ⟨dir.sound, fun x hx => ?_, dir.tight h.tight⟩
    rcases hx with hx | rfl
    · exact dir.toCreated.reachable hs (h.covers x hx)
    · exact (dir.toCreated.reachable hs (h.covers _ hd)).step dir.toCreated.live dir.dir
  | removed _ _ entry =>
    exact ⟨entry.sound, fun x hx => entry.reachable hs (h.covers x hx.1) hx, entry.tight h.tight⟩
  | @renamed _ _ vm _ _ _ _ _ _ _ _ _ _ entry =>
    obtain ⟨_, _, hp⟩ := entry.old
    obtain ⟨_, hp'⟩ := entry.new
    have hd := hs.dir_of_resolve hp.resolved hp.dir
    have hd' := hs.dir_of_resolve hp'.resolved hp'.dir
    have hcov : Covers g vm D := fun x hx =>
      entry.moved.reachable hs hd hd' (entry.avoiding hs hadm.1 hadm.2) (h.covers x hx)
    have hparent := entry.parent
    split at hparent
    · rename_i hdir
      have hm := hs.subdir hd entry.moved.mem hdir
      exact ⟨hparent.sound, fun x hx => (hparent.reachable_iff entry.moved.sound hm).mpr (hcov x hx),
        hparent.tight (entry.moved.tight h.tight)⟩
    · rw [hparent]
      exact ⟨entry.moved.sound, hcov, entry.moved.tight h.tight⟩

/-- A call with admissible arguments that meets the condition returns. -/
def SpaceSafeStep (env : Env) (s : State) (op : Operation) (s' : State) : Prop :=
  AdmissibleStep env s op s' ∧ SpaceSafe env.geometry (s.volume env.geometry) op

/-- In a run whose calls all meet the condition no cluster is lost, whatever they return. -/
theorem noWaste_of_run (hfuel : env.geometry.totalClusters < env.fuel) (hrel : ¬ env.Faulty)
    (hwf : WellFormed env.geometry (s.volume env.geometry))
    (hn : NoWaste env.geometry (s.volume env.geometry))
    (hrun : Runs (SpaceSafeStep env) s ops s') :
    NoWaste env.geometry (s'.volume env.geometry) := by
  obtain ⟨D, own, h⟩ := hrun.invariant
    (I := fun s => ∃ D own, Spare env.geometry (s.volume env.geometry) D own)
    (by
      rintro s op s' ⟨D, own, h⟩ ⟨hstep, hsafe⟩
      obtain ⟨D', own', heff⟩ := hstep.2.of_sat (Operation.effect_sat_of_safe hfuel hrel h.sound
        hstep.data fun oldPath newPath hop => by
          subst hop
          exact hsafe)
      exact ⟨D', own', heff.spare h hstep.1 hsafe⟩) ⟨_, _, hwf.spare hn⟩
  exact h.noWaste

end

/-! ## Examples of runs -/

/-- The test for volumes that waste nothing. -/
def checkNoWaste (g : Geometry) (v : Volume) (ds : List Nat) : Bool :=
  (List.range g.totalClusters).all (fun c => v.fat c = 0 || !g.isValidDataCluster c ||
    ((ownerList g v ds).flatMap (ownersOf g v ds)).contains c) &&
  ds.all fun d => (dirEntries g v d).all fun e => e.kind ≠ .live || e.isDirectory ||
    (clusterChain g v.fat e.entryFirstCluster).length = clustersForSize g e.size

theorem noWaste_of_check {g : Geometry} {v : Volume} {ds : List Nat}
    (h : checkVolume g v ds = true) (hcov : Covers g v (· ∈ ds))
    (h' : checkNoWaste g v ds = true) : NoWaste g v := by
  obtain ⟨hs, -⟩ := sound_of_check h
  simp only [checkNoWaste, Bool.and_eq_true, List.all_eq_true, Bool.or_eq_true, decide_eq_true_eq,
    Bool.not_eq_true', List.contains_iff_mem] at h'
  refine ⟨fun c hv h0 => ?_, fun {d i e} he hfile => ?_⟩
  · have hlt := (g.isValidDataCluster_iff.mp hv).2
    obtain ⟨o, -, ho⟩ := List.mem_flatMap.mp
      ((h'.1 c (List.mem_range.mpr hlt)).resolve_left (by simp [h0, hv]))
    exact ⟨o, hs.onChain hcov ho⟩
  · obtain ⟨hi, hk⟩ := liveAt_eq_some.mp he.2
    have htest := h'.2 d (hs.reachable he.1) e (List.mem_of_getElem? hi)
    simpa [hk, hfile] using htest

/-- Every volume covers its root. -/
theorem covers_root {g : Geometry} {v : Volume} : Covers g v (· ∈ [g.rootCluster]) := by
  intro d hd
  rw [List.mem_singleton.mp hd]
  exact .root

/-- The path with one component leads to the root directory. -/
theorem ParentOf.of_letter {g : Geometry} {v : Volume} {c : UInt8} {cs : List CStr}
    {r : Option DirectoryEntry} {parentDir : DirectoryRef} {name parentPath : CStr}
    (hp : ParentOf g v [slash, c] cs r parentDir name parentPath) (h : c ≠ slash) :
    dirCluster g r = g.rootCluster ∧ name = [c] := by
  have hsplit : cs ++ [name] = [] ++ [[c]] := by
    rw [← hp.split]
    simp [splitComponents, h]
  obtain ⟨rfl, hname⟩ := List.append_inj' hsplit rfl
  have hroot : r = none := Except.ok.inj hp.resolved.symm
  exact ⟨by rw [hroot]; rfl, (List.cons.inj hname).1⟩

/-- The call that writes 300 bytes to the file `A`. -/
def rewriteA : Operation := .writeFile [slash, 0x41] (List.replicate 300 0) false

/-- A file is rewritten in the cluster that it has, a directory takes the last free cluster, and a
second directory finds no space. -/
theorem noWaste_of_run_makeDir : ∃ s', Runs (SpaceSafeStep smallEnv) almostFullState
      [rewriteA, .makeDir [slash, 0x43], .makeDir [slash, 0x44]] s' ∧
    NoWaste smallGeometry (s'.volume smallGeometry) := by
  have hwrite : SpaceSafeStep smallEnv almostFullState rewriteA
      (afterCall rewriteA almostFullState) := by
    refine ⟨⟨⟨canonicalPath_letter (by decide) (by decide) (by decide), by
      rw [List.length_replicate]; decide⟩, after_of_isOk (by decide +kernel)⟩, ?_⟩
    intro cs r parentDir name parentPath hp hs
    obtain ⟨hroot, rfl⟩ := hp.of_letter (by decide)
    rw [hroot] at hs
    have hsmall : clustersForSize smallEnv.geometry 300 = 1 := by decide
    have hfound : (lookup (dirEntries smallEnv.geometry (almostFullState.volume smallEnv.geometry)
        smallEnv.geometry.rootCluster) [0x41]).isSome = true := by decide +kernel
    cases hs with
    | growth it found clusters some_free short =>
      rw [List.length_replicate, if_neg (by decide), hsmall] at short
      have hpos := List.length_pos_of_ne_nil some_free
      omega
    | slot absent clusters exact start search =>
      rw [absent] at hfound
      cases hfound
  have hmake : SpaceSafeStep smallEnv (afterCall rewriteA almostFullState) (.makeDir [slash, 0x43])
      (afterCall (.makeDir [slash, 0x43]) (afterCall rewriteA almostFullState)) := by
    refine ⟨⟨canonicalPath_letter (by decide) (by decide) (by decide),
      after_of_isOk (by decide +kernel)⟩, ?_⟩
    intro cs r parentDir name parentPath hp hs
    obtain ⟨hroot, rfl⟩ := hp.of_letter (by decide)
    obtain ⟨start, run, hscan, -⟩ := hs.search
    rw [hroot] at hscan
    have hroom : (scanForFree (slotsNeeded (dirEntries smallEnv.geometry
        ((afterCall rewriteA almostFullState).volume smallEnv.geometry)
          smallEnv.geometry.rootCluster) [0x43] none)
        (dirEntries smallEnv.geometry ((afterCall rewriteA almostFullState).volume
          smallEnv.geometry) smallEnv.geometry.rootCluster) 0 ⟨0, 0⟩).isRight = true := by
      decide +kernel
    rw [hscan] at hroom
    cases hroom
  have hfull : SpaceSafeStep smallEnv (afterCall (.makeDir [slash, 0x43])
      (afterCall rewriteA almostFullState)) (.makeDir [slash, 0x44])
      (afterCall (.makeDir [slash, 0x44]) (afterCall (.makeDir [slash, 0x43])
        (afterCall rewriteA almostFullState))) := by
    refine ⟨⟨canonicalPath_letter (by decide) (by decide) (by decide),
      after_of_code (e := .noSpace) (by decide +kernel)⟩, ?_⟩
    intro cs r parentDir name parentPath _ hs
    have hnone : (freeClusters smallGeometry ((afterCall (.makeDir [slash, 0x43])
        (afterCall rewriteA almostFullState)).volume smallGeometry).fat).length = 0 := by
      decide +kernel
    exact absurd (hnone.symm.trans hs.exact) (by decide)
  have hrun := Runs.cons hwrite (.cons hmake (.cons hfull (.nil _)))
  exact ⟨_, hrun, noWaste_of_run (by decide) smallEnv_reliable
    (sound_of_check almostFullState_check).2
    (noWaste_of_check almostFullState_check covers_root (by decide +kernel)) hrun⟩

/-- Where a file would need two more clusters, it keeps the only one there was. -/
theorem not_noWaste_of_run :
    WellFormed smallGeometry (almostFullState.volume smallGeometry) ∧
    NoWaste smallGeometry (almostFullState.volume smallGeometry) ∧
    Runs (AdmissibleStep smallEnv) almostFullState
      [.writeFile [slash, 0x41] (List.replicate 1025 0) false]
      (afterCall (.writeFile [slash, 0x41] (List.replicate 1025 0) false) almostFullState) ∧
    ¬ NoWaste smallGeometry
      ((afterCall (.writeFile [slash, 0x41] (List.replicate 1025 0) false)
        almostFullState).volume smallGeometry) := by
  have hadm : (Operation.writeFile [slash, 0x41] (List.replicate 1025 0) false).Admissible :=
    ⟨canonicalPath_letter (by decide) (by decide) (by decide), by
      rw [List.length_replicate]; decide⟩
  refine ⟨(sound_of_check almostFullState_check).2,
    noWaste_of_check almostFullState_check covers_root (by decide +kernel),
    .cons ⟨hadm, .inr ⟨.noSpace, Prog.eq_error_of_code (by decide +kernel)⟩⟩ (.nil _), fun hn => ?_⟩
  have hexact := hn.exact (d := 2) (i := 0)
    (e := buildShortEntry (0x41 :: List.replicate 10 0x20) attrArchive 3 512)
    ⟨.root, by decide +kernel⟩ (by decide +kernel)
  revert hexact
  decide +kernel

end FunnyOS.Fat32
