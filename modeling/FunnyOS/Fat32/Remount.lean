import FunnyOS.Fat32.Flushed
import FunnyOS.Fat32.Trailing

/-!
# Mounting again

Mounting the partition again, at any moment between two calls, reads the FAT that is on disk. It
lacks of the one in memory only clusters behind the end of files, so that the volume answers as the
one before. This holds for every run whose calls lose no clusters and take no slot for another one
(`SparingStep`), and so for every run from a volume whose directories are in shape.
-/

namespace FunnyOS.Fat32

open Prog

/-! ## Calls -/

/-- The clusters of the data can be counted, and where a directory is moved its slot 1 is no
entry. -/
def Operation.Spares (g : Geometry) (v : Volume) : Operation → Prop
  | .writeFile path data append => data.length < 2 ^ 32 ∧ CountsClusters g v path data append
  | .rename oldPath newPath => SparesEntries g v oldPath newPath
  | _ => True

/-- Such a call returns. -/
def SparingStep (env : Env) (s : State) (op : Operation) (s' : State) : Prop :=
  op.Spares env.geometry (s.volume env.geometry) ∧ After env s op s'

/-- The invariant of runs: the device holds `fat`, which trails the FAT in memory. -/
structure Recoverable (g : Geometry) (boot : Nat → UInt8) (s : State) (D : Nat → Prop)
    (own : Owner → List Nat) (fat : Nat → Nat) : Prop where
  sound : Sound Searchable g (s.volume g) D own
  behind : Behind g boot fat s
  trails : Trails Searchable g (s.volume g) D fat
  storable : Storable g fat

section

variable {env : Env} {before s s' : State} {op : Operation} {boot : Nat → UInt8} {D : Nat → Prop}
  {own : Owner → List Nat} {fat : Nat → Nat} {e : Fat32Result} {lba : Nat}

theorem Synced.recoverable {g : Geometry} (h : Synced g boot s)
    (hs : Sound Searchable g (s.volume g) D own) : Recoverable g boot s D own s.fat :=
  ⟨hs, h.behind, Trails.refl hs, h.intact.storable⟩

/-- A call that fails leaves every entry. -/
theorem untouched_of_error (hfuel : env.geometry.totalClusters < env.fuel) (hrel : ¬ env.Faulty)
    (h : Sound Searchable env.geometry (s.volume env.geometry) D own)
    (hspares : op.Spares env.geometry (s.volume env.geometry))
    (hcall : op.call env s = .error e s') : ∃ own', Untouched Searchable env.geometry
      (s.volume env.geometry) (s'.volume env.geometry) D own own' := by
  have hsame : s'.volume env.geometry = s.volume env.geometry → ∃ own', Untouched Searchable
      env.geometry (s.volume env.geometry) (s'.volume env.geometry) D own own' := by
    intro hv
    rw [hv]
    exact ⟨own, Untouched.refl h⟩
  cases op with
  | writeFile path data append =>
    rcases Nat.lt_or_ge (2 ^ 31) data.length with hlarge | hsmall
    · exact (fat32WriteFile_large_left hfuel hrel rfl h hlarge hspares.1 hspares.2).of_error hcall
    · rcases (fat32WriteFile_sat hfuel hrel rfl h hsmall).of_error hcall with
        hv | ⟨cs, r, parentDir, name, parentPath, own', -, hf⟩
      · exact hsame hv
      · exact ⟨own', hf.untouched⟩
  | makeDir path =>
    rcases (fat32MakeDir_sat hfuel hrel rfl h).of_error hcall with
      hv | ⟨cs, r, parentDir, name, parentPath, -, hf⟩
    · exact hsame hv
    · exact ⟨own, hf.untouched⟩
  | remove path => exact hsame ((fat32Remove_sat hfuel hrel rfl h).of_error hcall)
  | rename oldPath newPath => exact hsame ((fat32Rename_sat hfuel hrel rfl h).of_error hcall)

/-- A call that fails. -/
theorem Recoverable.error (hfuel : env.geometry.totalClusters < env.fuel)
    (hrel : ¬ env.Faulty) (h : Recoverable env.geometry boot s D own fat)
    (hspares : op.Spares env.geometry (s.volume env.geometry))
    (hcall : op.call env s = .error e s') :
    ∃ own' fat', Recoverable env.geometry boot s' D own' fat' := by
  have hreturns : Synced env.geometry boot s' ∨ Behind env.geometry boot fat s' := by
    cases op with
    | writeFile path data append => exact (fat32WriteFile_returns hrel h.behind).of_error hcall
    | makeDir path => exact (fat32MakeDir_returns hrel h.behind).of_error hcall
    | remove path => exact (fat32Remove_returns hrel h.behind).of_error hcall
    | rename oldPath newPath =>
      exact ((fat32Rename_returns hrel h.behind).of_error hcall).symm.imp id fun hb => hb.1
  obtain ⟨own', hu⟩ := untouched_of_error hfuel hrel h.sound hspares hcall
  rcases hreturns with hsynced | hbehind
  · exact ⟨own', _, hsynced.recoverable hu.sound⟩
  · exact ⟨own', fat, hu.sound, hbehind, h.trails.keep h.sound hu, h.storable⟩

/-- What is left by a rename that succeeds. -/
theorem left_of_rename {oldPath newPath : CStr} (hfuel : env.geometry.totalClusters < env.fuel)
    (hrel : ¬ env.Faulty) (h : Sound Searchable env.geometry (s.volume env.geometry) D own)
    (hspares : SparesEntries env.geometry (s.volume env.geometry) oldPath newPath)
    (hcall : fat32Rename env oldPath newPath s = .ok () s') :
    Left env.geometry (s.volume env.geometry) (s'.volume env.geometry) D := by
  rcases (fat32Rename_sat hfuel hrel rfl h).of_ok hcall with
    ⟨-, hv⟩ | ⟨vm, cs, cs', r, r', name, name', parentPath', it, hdone⟩
  · rw [hv]
    exact ⟨D, own, h, fun _ _ ht => ht⟩
  · exact hdone.left h hspares

/-- A call that succeeds and is no rename leaves a sound volume. -/
theorem sound_of_ok (hfuel : env.geometry.totalClusters < env.fuel) (hrel : ¬ env.Faulty)
    (h : Sound Searchable env.geometry (s.volume env.geometry) D own)
    (hspares : op.Spares env.geometry (s.volume env.geometry))
    (hop : ∀ oldPath newPath, op ≠ .rename oldPath newPath)
    (hcall : op.call env s = .ok () s') :
    ∃ D' own', Sound Searchable env.geometry (s'.volume env.geometry) D' own' := by
  by_cases hlarge : ∃ path data append, op = .writeFile path data append ∧ 2 ^ 31 < data.length
  · obtain ⟨path, data, append, rfl, hlarge⟩ := hlarge
    exact ((fat32WriteFile_large_left hfuel hrel rfl h hlarge hspares.1 hspares.2).of_ok hcall).elim
  · obtain ⟨D', own', heff⟩ := (Operation.effect_sat hfuel hrel h (fun path data append heq =>
      Nat.le_of_not_lt fun hlt => hlarge ⟨path, data, append, heq, hlt⟩) hop).of_ok hcall
    exact ⟨D', own', heff.sound h⟩

/-- Every call keeps the invariant. -/
theorem Recoverable.step (hfuel : env.geometry.totalClusters < env.fuel) (hrel : ¬ env.Faulty)
    (h : Recoverable env.geometry boot s D own fat) (hstep : SparingStep env s op s') :
    ∃ D' own' fat', Recoverable env.geometry boot s' D' own' fat' := by
  obtain ⟨hspares, hcall | ⟨e, hcall⟩⟩ := hstep
  · have hsynced : Synced env.geometry boot s' → (∀ oldPath newPath, op ≠ .rename oldPath newPath) →
        ∃ D' own' fat', Recoverable env.geometry boot s' D' own' fat' := by
      intro hs' hop
      obtain ⟨D', own', hsound⟩ := sound_of_ok hfuel hrel h.sound hspares hop hcall
      exact ⟨D', own', _, hs'.recoverable hsound⟩
    cases op with
    | writeFile path data append =>
      exact hsynced ((fat32WriteFile_returns hrel h.behind).of_ok hcall) (by simp)
    | makeDir path => exact hsynced ((fat32MakeDir_returns hrel h.behind).of_ok hcall) (by simp)
    | remove path => exact hsynced ((fat32Remove_returns hrel h.behind).of_ok hcall) (by simp)
    | rename oldPath newPath =>
      obtain ⟨D', own', hs', htrails⟩ := left_of_rename hfuel hrel h.sound hspares hcall
      rcases (fat32Rename_returns hrel h.behind).of_ok hcall with ⟨hbehind, hfat⟩ | hsynced
      · exact ⟨D', own', fat, hs', hbehind, htrails hfat fat h.trails, h.storable⟩
      · exact ⟨D', own', _, hsynced.recoverable hs'⟩
  · obtain ⟨own', fat', hrec⟩ := h.error hfuel hrel hspares hcall
    exact ⟨D, own', fat', hrec⟩

/-- Where the directories are in shape, every call spares the entries. -/
theorem Kept.spares (h : Kept (Tidy SlotTidy) env.geometry (s.volume env.geometry) D own)
    (hstep : AdmissibleStep env s op s') : SparingStep env s op s' := by
  obtain ⟨⟨hcan, hafter⟩, hcount⟩ := hstep.counted
  refine ⟨?_, hafter⟩
  cases op with
  | writeFile path data append => exact ⟨hcan.2, hcount⟩
  | makeDir path => trivial
  | remove path => trivial
  | rename oldPath newPath => exact ((h.renameSafe oldPath).spares h.sound).1

/-! ## Mounting -/

/-- A FAT on disk that is the same as far as the disk reaches. -/
theorem OnDisk.congr {g : Geometry} {fat fat' : Nat → Nat} (h : OnDisk g fat s)
    (hdisk : s'.disk = s.disk) (hfat : ∀ c < g.sectorsPerFat * 128, fat' c = fat c) :
    OnDisk g fat' s' := by
  intro k hk o ho
  rw [hdisk, h k hk o ho]
  have hlt : (k * sectorSize + o) / 4 < g.sectorsPerFat * 128 := by
    simp only [sectorSize] at ho ⊢
    omega
  simp only [fatBytes, hfat _ hlt]

/-- Mounting brings back the volume with the FAT that is on disk. -/
theorem Recoverable.mount {g : Geometry} {fails : Nat → Bool} (hrel : ∀ t, fails t = false)
    (hboot : bootGeometry g.partitionLba boot = some g) (h : Recoverable g boot s D own fat) :
    ∃ s', fat32Mount fails g.partitionLba sectorSize s = .ok (some g) s' ∧
      s'.volume g = (s.volume g).setFat fat ∧ ∃ own', Recoverable g boot s' D own' fat := by
  have hsector : bootGeometry g.partitionLba (bootSector s g.partitionLba) = some g := by
    rw [← hboot]
    refine bootGeometry_congr fun o ho => ?_
    rw [bootSector, Nat.div_eq_of_lt ho, Nat.mod_eq_of_lt ho, Nat.add_zero]
    exact h.behind.intact.boot o ho
  obtain ⟨s', hrun, hdisk, hmounted, hfat⟩ := fat32Mount_run hrel hsector
  have hfat' : s'.fat = fat := by
    rw [hfat]
    funext c
    split
    · next hc => exact h.behind.onDisk.fatEntry_eq (h.storable.fits c) hc
    · next hc => exact (h.storable.beyond c (Nat.le_of_not_lt hc)).symm
  have hv : s'.volume g = (s.volume g).setFat fat := by
    have hmnt : s'.mounted = s.mounted := hmounted.trans h.sound.mounted.symm
    simp only [State.volume, Volume.setFat, hdisk, hfat', hmnt]
  have hsynced : Synced g boot s' := by
    refine ⟨⟨fun o ho => ?_, hfat'.symm ▸ h.storable⟩, ?_⟩
    · rw [hdisk]
      exact h.behind.intact.boot o ho
    · exact h.behind.onDisk.congr hdisk fun c _ => by rw [hfat']
  obtain ⟨own', hs'⟩ := h.trails.sound
  rw [← hv] at hs'
  exact ⟨s', hrun, hv, own', hfat' ▸ hsynced.recoverable hs'⟩

theorem Env.reliable (hrel : ¬ env.Faulty) (t : Nat) : env.fails t = false :=
  Bool.eq_false_iff.mpr fun h => hrel ⟨t, h⟩

theorem SameAnswers.symm {path : CStr} (h : SameAnswers env s s' path) :
    SameAnswers env s' s path :=
  ⟨h.stat.symm, fun callback context => (h.list callback context).symm,
    fun callback context => (h.read callback context).symm⟩

/-- Nobody can tell from the answers that the partition has been mounted again. -/
theorem Recoverable.remounted (hfuel : env.geometry.totalClusters < env.fuel)
    (hrel : ¬ env.Faulty) (hboot : bootGeometry env.geometry.partitionLba boot = some env.geometry)
    (h : Recoverable env.geometry boot s D own fat) : ∃ s',
    fat32Mount env.fails env.geometry.partitionLba sectorSize s = .ok (some env.geometry) s' ∧
      ∀ path, SameAnswers env s s' path := by
  obtain ⟨s', hagain, hv, -⟩ := h.mount (Env.reliable hrel) hboot
  obtain ⟨own₀, hs₀, hu⟩ := h.trails.untouched h.sound
  rw [← hv] at hs₀ hu
  exact ⟨s', hagain, fun path => (hu.sameAnswers hfuel hrel hs₀).symm⟩

/-- Where `fat32_mount` has succeeded, the FAT on disk is the one in memory. -/
theorem synced_of_mount {g : Geometry} {fails : Nat → Bool} (hlba : lba < 2 ^ 32)
    (hrel : ∀ t, fails t = false) (h : fat32Mount fails lba sectorSize s = .ok (some g) s') :
    g.partitionLba = lba ∧ bootGeometry lba (s'.disk lba) = some g ∧ Synced g (s'.disk lba) s' := by
  have hboot : bootGeometry lba (bootSector s lba) = some g := by
    cases hb : bootGeometry lba (bootSector s lba) with
    | none =>
      simp only [fat32Mount, ne_eq, not_true_eq_false, if_false] at h
      have hread : blockReadSectors fails lba 1 s = .ok (some (bootSector s lba))
          { s with transfers := s.transfers + 1, requests := (lba, 1) :: s.requests } := by
        simp only [blockReadSectors, hrel, Bool.false_eq_true, if_false]
        rfl
      rw [bind_of_ok hread] at h
      simp only [hb] at h
      cases h
    | some g' =>
      obtain ⟨s₁, hrun, -⟩ := fat32Mount_run hrel hb
      rw [h] at hrun
      cases hrun
      rfl
  obtain ⟨s₁, hrun, hdisk, -, hfat⟩ := fat32Mount_run hrel hboot
  rw [h] at hrun
  cases hrun
  have hpart : g.partitionLba = lba := by
    rw [(bootGeometry_widths hboot).2.2]
    exact Nat.mod_eq_of_lt hlba
  refine ⟨hpart, ?_, ⟨fun o _ => by rw [hpart], fun c => ?_, fun c hc => ?_⟩, ?_⟩
  · rw [← hboot]
    refine bootGeometry_congr fun o ho => ?_
    rw [hdisk, bootSector, Nat.div_eq_of_lt ho, Nat.mod_eq_of_lt ho, Nat.add_zero]
  · rw [hfat]
    simp only
    split
    · exact fatEntry_lt
    · decide
  · rw [hfat]
    exact if_neg (by omega)
  · refine onDisk_fatCopy.congr hdisk fun c hc => ?_
    rw [hfat]
    exact if_pos hc

/-- A partition that has been mounted with a well-formed volume. -/
theorem recoverable_of_mount (hrel : ¬ env.Faulty) (hlba : lba < 2 ^ 32)
    (hmount : fat32Mount env.fails lba sectorSize before = .ok (some env.geometry) s)
    (hwf : WellFormed env.geometry (s.volume env.geometry)) :
    env.geometry.partitionLba = lba ∧ ∃ boot, bootGeometry lba boot = some env.geometry ∧
      Recoverable env.geometry boot s (Reachable env.geometry (s.volume env.geometry))
        (owners env.geometry (s.volume env.geometry)) s.fat := by
  obtain ⟨hpart, hboot, hsynced⟩ := synced_of_mount hlba (Env.reliable hrel) hmount
  exact ⟨hpart, _, hboot, hsynced.recoverable hwf.searchable⟩

/-- After any such calls, with whatever results, mounting the partition again succeeds and changes
no answer. -/
theorem remounted_of_run {ops : List Operation} (hfuel : env.geometry.totalClusters < env.fuel)
    (hrel : ¬ env.Faulty) (hlba : lba < 2 ^ 32)
    (hmount : fat32Mount env.fails lba sectorSize before = .ok (some env.geometry) s)
    (hwf : WellFormed env.geometry (s.volume env.geometry))
    (hrun : Runs (SparingStep env) s ops s') :
    ∃ s'', fat32Mount env.fails lba sectorSize s' = .ok (some env.geometry) s'' ∧
      ∀ path, SameAnswers env s' s'' path := by
  obtain ⟨hpart, boot, hboot, hrec⟩ := recoverable_of_mount hrel hlba hmount hwf
  rw [← hpart] at hboot ⊢
  obtain ⟨D, own, fat, h⟩ := hrun.invariant
    (I := fun s => ∃ D own fat, Recoverable env.geometry boot s D own fat) (by
      rintro s op s' ⟨D, own, fat, h⟩ hstep
      exact h.step hfuel hrel hstep) ⟨_, _, _, hrec⟩
  exact h.remounted hfuel hrel hboot

/-- The boot sector of the small volume and an empty root directory, before it is mounted. -/
def unmountedState : State where
  mounted := false
  fat := fun _ => 0
  clusterBuffer := fun _ => 0
  disk := fun l o =>
    if l = 0 then
      ([(12, 2), (13, 1), (14, 1), (16, 1), (19, 6), (36, 1), (44, 2)].lookup o).getD 0
    else if l = 1 then fatBytes (fun c => [0, 0, endOfChain].getD c 0) o
    else 0
  transfers := 0

/-- The small volume, mounted. -/
def mountedState : State := (fat32Mount smallEnv.fails 0 sectorSize unmountedState).finalState
  unmountedState

theorem mountedState_mount :
    fat32Mount smallEnv.fails 0 sectorSize unmountedState = .ok (some smallGeometry) mountedState :=
  rfl

theorem mountedState_check :
    checkVolume smallGeometry (mountedState.volume smallGeometry) [2] = true ∧
      checkRegular smallGeometry (mountedState.volume smallGeometry) [2] = true := by
  decide +kernel

/-- A file is created that leaves three clusters free, and made larger by more than these. What has
been linked is not flushed when the file is moved. -/
def growAndMove : List Operation := [.makeDir (joinPath [[0x41]]),
  .writeFile (joinPath [[0x46]]) (List.replicate 10 0x58) false,
  .writeFile (joinPath [[0x46]]) (List.replicate 1100 0x58) true,
  .rename (joinPath [[0x46]]) (joinPath [[0x41], [0x46]])]

theorem remounted_of_run_grow : ∃ s', Runs (SparingStep smallEnv) mountedState growAndMove s' ∧
    ∃ s'', fat32Mount smallEnv.fails 0 sectorSize s' = .ok (some smallGeometry) s'' ∧
      SameAnswers smallEnv s' s'' (joinPath [[0x41], [0x46]]) := by
  have hwf := (sound_of_check mountedState_check.1).2
  have hshape := (regular_of_check mountedState_check.1 mountedState_check.2).shaped
  have hadm : ∀ op ∈ growAndMove, op.Admissible := by
    simp only [growAndMove, List.forall_mem_cons]
    exact ⟨canonicalPath_join (by decide +kernel), ⟨canonicalPath_join (by decide +kernel),
      List.length_replicate.trans_le (by decide)⟩,
      ⟨canonicalPath_join (by decide +kernel), List.length_replicate.trans_le (by decide)⟩,
      ⟨canonicalPath_join (by decide +kernel), canonicalPath_join (by decide +kernel)⟩, by simp⟩
  have hrun : Runs (AdmissibleStep smallEnv) mountedState growAndMove _ :=
    runs_stateAfter hadm (by decide +kernel)
  have hsparing : Runs (SparingStep smallEnv) mountedState growAndMove _ := hrun.mono_of_invariant
    (I := fun s => ∃ D own,
      Kept (Tidy SlotTidy) smallEnv.geometry (s.volume smallEnv.geometry) D own)
    (by
      rintro s op s' ⟨D, own, hk⟩ hstep
      obtain ⟨D', own', -, hk'⟩ := hk.step (by decide) smallEnv_reliable hstep
      exact ⟨D', own', hk'⟩)
    (by
      rintro s op s' ⟨D, own, hk⟩ hstep
      exact hk.spares hstep) ⟨_, _, hwf.sound, hshape⟩
  obtain ⟨s'', hagain, hsame⟩ := remounted_of_run (by decide) smallEnv_reliable (by decide)
    mountedState_mount hwf hsparing
  exact ⟨_, hsparing, s'', hagain, hsame _⟩

/-! ### Calls that do not spare the entries -/

/-- A volume of five data clusters. -/
def widerGeometry : Geometry :=
  { smallGeometry with
    totalClusters := 7
    totalSectors := 7
    totalSectors_lt := by decide
    nonData_lt := by decide
    totalClusters_eq := by decide
    totalClusters_le := by decide
    rootCluster_lt := by decide }

def widerEnv : Env := ⟨widerGeometry, fun _ => false, 8⟩

deriving instance DecidableEq for Geometry

/-- The full directory `/P` with the directory `D`, whose slot 1 is the file `X`, and the file `/F`,
before the partition is mounted. -/
def fullState : State where
  mounted := false
  fat := fun _ => 0
  clusterBuffer := fun _ => 0
  disk := fun l o =>
    if l = 0 then
      ([(12, 2), (13, 1), (14, 1), (16, 1), (19, 7), (36, 1), (44, 2)].lookup o).getD 0
    else if l = 1 then
      fatBytes (fun c => ([0, 0] ++ List.replicate 4 endOfChain).getD c 0) o
    else
      let slots :=
        if l = 2 then [letterEntry 0x50 attrDirectory 3 0, letterEntry 0x46 attrArchive 0 0]
        else if l = 3 then List.replicate 15 (letterEntry 0x41 attrArchive 0 0)
          ++ [letterEntry 0x44 attrDirectory 4 0]
        else if l = 4 then [letterEntry 0x41 attrArchive 0 0, letterEntry 0x58 attrArchive 5 10]
        else []
      (slots.getD (o / 32) .zero).byte ⟨o % 32, offset_lt o⟩
  transfers := 0

/-- The same volume, mounted. -/
def fullMountedState : State :=
  (fat32Mount widerEnv.fails 0 sectorSize fullState).finalState fullState

theorem fullMountedState_check :
    checkVolume widerGeometry (fullMountedState.volume widerGeometry) [2, 3, 4] = true := by
  decide +kernel

/-- The rename of `D` gives `X` the cluster of `/P`. So a write that runs out of space links a
cluster to `/P` that the disk does not know of, and `/F` is moved into it. -/
def moveIntoUnknown : List Operation :=
  [.rename (joinPath [[0x50], [0x44]]) (joinPath [[0x50], [0x45]]),
    .writeFile (joinPath [[0x50], [0x45], [0x58]]) (List.replicate 1500 0) true,
    .rename (joinPath [[0x46]]) (joinPath [[0x50], [0x46]])]

/-- The directory `/A` and the file `/F` are made. -/
def makeDirAndFile : List Operation := [.makeDir (joinPath [[0x41]]),
  .writeFile (joinPath [[0x46]]) (List.replicate 10 0x58) false]

/-- The directory `/B` is made, filled up by a write to `/F`, and made longer by another one that
runs out of space. Then `/A` is moved into it. -/
def fillAndMove : List Operation := [.makeDir (joinPath [[0x42]]),
  .writeFile (joinPath [[0x46]]) (List.replicate 512 0x41) false,
  .writeFile (joinPath [[0x46]]) (List.replicate 1024 0) true,
  .rename (joinPath [[0x41]]) (joinPath [[0x42], [0x41]])]

/-- The calls of which the first frees the cluster of `/F` under its entry, so that `/B` gets it. -/
def shareAndMove : List Operation := makeDirAndFile ++
  .writeFile (joinPath [[0x46]]) (List.replicate (2 ^ 32 - 1) 0) false :: fillAndMove

/-- The volume after the first three of them. -/
def freedState : State :=
  (writeWrapped smallEnv (joinPath [[0x46]])
    (stateAfter smallEnv makeDirAndFile mountedState)).finalState
    (stateAfter smallEnv makeDirAndFile mountedState)

/-- What has been moved is not there after the partition has been mounted again: once where a
directory has been moved whose slot 1 is an entry, once where the count of clusters has wrapped. -/
theorem not_remounted_of_run :
    (∃ s' s'', fat32Mount widerEnv.fails 0 sectorSize fullState
        = .ok (some widerGeometry) fullMountedState ∧
      WellFormed widerGeometry (fullMountedState.volume widerGeometry) ∧
      Runs (CanonicalStep widerEnv) fullMountedState moveIntoUnknown s' ∧
      fat32Mount widerEnv.fails 0 sectorSize s' = .ok (some widerGeometry) s'' ∧
      ¬ SameAnswers widerEnv s' s'' (joinPath [[0x50], [0x46]])) ∧
    (∃ s' s'', fat32Mount smallEnv.fails 0 sectorSize unmountedState
        = .ok (some smallGeometry) mountedState ∧
      WellFormed smallGeometry (mountedState.volume smallGeometry) ∧
      Runs (CanonicalStep smallEnv) mountedState shareAndMove s' ∧
      fat32Mount smallEnv.fails 0 sectorSize s' = .ok (some smallGeometry) s'' ∧
      ¬ SameAnswers smallEnv s' s'' (joinPath [[0x42], [0x41]])) := by
  constructor
  · have hwf : WellFormed widerGeometry (fullMountedState.volume widerGeometry) :=
      (sound_of_check fullMountedState_check).2
    refine ⟨stateAfter widerEnv moveIntoUnknown fullMountedState, _,
      Prog.eq_ok_of_result (by decide +kernel), hwf, runs_stateAfter ?_ (by decide +kernel),
      Prog.eq_ok_of_result (d := fullState) (by decide +kernel), fun h => ?_⟩
    · simp only [moveIntoUnknown, List.forall_mem_cons]
      exact ⟨⟨canonicalPath_join (by decide +kernel), canonicalPath_join (by decide +kernel)⟩,
        ⟨canonicalPath_join (by decide +kernel), List.length_replicate.trans_lt (by decide)⟩,
        ⟨canonicalPath_join (by decide +kernel), canonicalPath_join (by decide +kernel)⟩, by simp⟩
    · have hstat := h.stat
      revert hstat
      decide +kernel
  · have hpath : CanonicalPath (joinPath [[0x46]]) := canonicalPath_join (by decide +kernel)
    have hmake : Runs (CanonicalStep smallEnv) mountedState makeDirAndFile
        (stateAfter smallEnv makeDirAndFile mountedState) := by
      refine runs_stateAfter ?_ (by decide +kernel)
      simp only [makeDirAndFile, List.forall_mem_cons]
      exact ⟨canonicalPath_join (by decide +kernel), ⟨hpath, by decide⟩, by simp⟩
    have hwrapped := canonicalStep_wrapped (s := stateAfter smallEnv makeDirAndFile mountedState)
      hpath (by decide +kernel)
    have hfill : Runs (CanonicalStep smallEnv) freedState fillAndMove
        (stateAfter smallEnv fillAndMove freedState) := by
      refine runs_stateAfter ?_ (by decide +kernel)
      simp only [fillAndMove, List.forall_mem_cons]
      exact ⟨canonicalPath_join (by decide +kernel),
        ⟨hpath, List.length_replicate.trans_lt (by decide)⟩,
        ⟨hpath, List.length_replicate.trans_lt (by decide)⟩,
        ⟨canonicalPath_join (by decide +kernel), canonicalPath_join (by decide +kernel)⟩, by simp⟩
    refine ⟨stateAfter smallEnv fillAndMove freedState, _, mountedState_mount,
      (sound_of_check mountedState_check.1).2, hmake.trans (.cons hwrapped hfill),
      Prog.eq_ok_of_result (d := unmountedState) (by decide +kernel), fun h => ?_⟩
    have hstat := h.stat
    revert hstat
    decide +kernel

/-! ## Sessions -/

/-- A call, or mounting the partition anew. -/
inductive Session where
  | call (op : Operation)
  | mount

/-- A call returns; or the partition is mounted, with the same geometry. -/
def Session.Step (env : Env) (s : State) : Session → State → Prop
  | .call op, s' => AdmissibleStep env s op s'
  | .mount, s' => fat32Mount env.fails env.geometry.partitionLba sectorSize s
      = .ok (some env.geometry) s'

/-- With the FAT that is on disk the directories are in the same shape. -/
theorem Trails.kept {ok : List DirectoryEntry → Prop} {g : Geometry} {v : Volume}
    {D D' : Nat → Prop} {own' : Owner → List Nat} (h : Trails Searchable g v D fat)
    (hk : Kept ok g v D' own') : ∃ own'', Kept ok g (v.setFat fat) (Reachable g v) own'' := by
  have hr := h.restrict
  obtain ⟨own₀, hs₀⟩ := hr.sound
  have hD : ∀ d, Reachable g v d → D' d := fun d hd => hk.sound.reachable hd
  refine ⟨own₀, ⟨⟨hs₀.mounted, hs₀.cert, fun hd => ?_⟩, hs₀.settled⟩, ?_⟩
  · rw [hr.entries hd]
    exact hk.sound.tidy (hD _ hd)
  · refine hk.shaped.keep hD fun d hd => ?_
    rw [hr.entries hd]
    exact KeepsShape.refl

/-- Calls and mounts keep the invariant, and the shape of the directories. -/
theorem Recoverable.session {act : Session} (hfuel : env.geometry.totalClusters < env.fuel)
    (hrel : ¬ env.Faulty) (hboot : bootGeometry env.geometry.partitionLba boot = some env.geometry)
    (h : Recoverable env.geometry boot s D own fat)
    (hk : ∃ D' own', Kept (Tidy SlotTidy) env.geometry (s.volume env.geometry) D' own')
    (hstep : Session.Step env s act s') :
    (∃ D own fat, Recoverable env.geometry boot s' D own fat) ∧
      ∃ D' own', Kept (Tidy SlotTidy) env.geometry (s'.volume env.geometry) D' own' := by
  obtain ⟨D', own', hk⟩ := hk
  cases act with
  | call op =>
    obtain ⟨D₁, own₁, -, hk₁⟩ := hk.step hfuel hrel hstep
    exact ⟨h.step hfuel hrel (hk.spares hstep), D₁, own₁, hk₁⟩
  | mount =>
    obtain ⟨s₁, hrun, hv, own₁, h₁⟩ := h.mount (Env.reliable hrel) hboot
    have hsame := hrun.symm.trans hstep
    cases hsame
    obtain ⟨own₂, hk₂⟩ := h.trails.kept hk
    exact ⟨⟨D, own₁, fat, h₁⟩, _, own₂, hv ▸ hk₂⟩

/-- After any calls and mounts, mounting the partition once more succeeds, and nobody can tell from
the answers that it has happened. -/
theorem sameAnswers_of_remount {acts : List Session}
    (hfuel : env.geometry.totalClusters < env.fuel) (hrel : ¬ env.Faulty) (hlba : lba < 2 ^ 32)
    (hmount : fat32Mount env.fails lba sectorSize before = .ok (some env.geometry) s)
    (hwf : WellFormed env.geometry (s.volume env.geometry))
    (hshape : Shaped env.geometry (s.volume env.geometry)
      (Reachable env.geometry (s.volume env.geometry)))
    (hrun : Runs (Session.Step env) s acts s') :
    ∃ s'', fat32Mount env.fails lba sectorSize s' = .ok (some env.geometry) s'' ∧
      ∀ path, SameAnswers env s' s'' path := by
  obtain ⟨hpart, boot, hboot, hrec⟩ := recoverable_of_mount hrel hlba hmount hwf
  rw [← hpart] at hboot ⊢
  obtain ⟨⟨D, own, fat, h⟩, -⟩ := hrun.invariant
    (I := fun s => (∃ D own fat, Recoverable env.geometry boot s D own fat) ∧
      ∃ D' own', Kept (Tidy SlotTidy) env.geometry (s.volume env.geometry) D' own')
    (by
      rintro s act s' ⟨⟨D, own, fat, h⟩, hk⟩ hstep
      exact h.session hfuel hrel hboot hk hstep) ⟨⟨_, _, _, hrec⟩, _, _, hwf.sound, hshape⟩
  exact h.remounted hfuel hrel hboot

/-- A directory is made, and the partition mounted twice. -/
theorem sameAnswers_of_remount_makeDir : ∃ s', Runs (Session.Step smallEnv) mountedState
      [.call (.makeDir [slash, 0x41]), .mount] s' ∧
    ∃ s'', fat32Mount smallEnv.fails 0 sectorSize s' = .ok (some smallGeometry) s'' ∧
      SameAnswers smallEnv s' s'' [slash, 0x41] := by
  have hcall : Session.Step smallEnv mountedState (.call (.makeDir [slash, 0x41]))
      (afterCall (.makeDir [slash, 0x41]) mountedState) :=
    ⟨canonicalPath_letter (by decide) (by decide) (by decide),
      .inl (Prog.eq_ok_of_isOk (by decide +kernel))⟩
  have hwf := (sound_of_check mountedState_check.1).2
  have hshape := (regular_of_check mountedState_check.1 mountedState_check.2).shaped
  obtain ⟨s₁, hmount, -⟩ := sameAnswers_of_remount (by decide) smallEnv_reliable (by decide)
    mountedState_mount hwf hshape (.cons hcall (.nil _))
  have hruns : Runs (Session.Step smallEnv) mountedState [.call (.makeDir [slash, 0x41]), .mount]
      s₁ := .cons hcall (.cons hmount (.nil _))
  obtain ⟨s'', hagain, hsame⟩ := sameAnswers_of_remount (by decide) smallEnv_reliable (by decide)
    mountedState_mount hwf hshape hruns
  exact ⟨s₁, hruns, s'', hagain, hsame _⟩

end

end FunnyOS.Fat32
