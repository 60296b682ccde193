import FunnyOS.Fat32.Moves
import FunnyOS.Fat32.Removal

/-!
# The paths that a call keeps

A path that leads to a directory leads to it after every call, except after one that removes or
moves what stands on the path.
-/

namespace FunnyOS.Fat32

open Prog

/-- The path whose entry the call takes away. -/
def Operation.takesAway : Operation → Option CStr
  | .remove path => some path
  | .rename oldPath _ => some oldPath
  | _ => none

section

variable {g : Geometry} {v vm v' : Volume} {D D' : Nat → Prop} {own own' : Owner → List Nat}
  {cs cs' a : List CStr} {name name' path oldPath newPath parentPath parentPath' : CStr}
  {r r' r₁ : Option DirectoryEntry} {parentDir : DirectoryRef} {it it' : Item} {op : Operation}

/-! ## Names that do not stand on the path -/

/-- No directory lies behind a name that is not there. -/
theorem ParentOf.not_prefix_absent (hp : ParentOf g v path cs r parentDir name parentPath)
    (habsent : lookup (dirEntries g v (dirCluster g r)) name = none)
    (ha : resolve g v a = .ok r₁) : ¬ (cs ++ [name]) <+: a := by
  intro hpre
  have hnone : resolve g v (cs ++ [name]) = .error .notFound := by
    simp only [resolve_snoc, hp.resolved, hp.dir, hp.valid, habsent]
    rfl
  by_cases heq : a = cs ++ [name]
  · rw [heq, hnone] at ha
    cases ha
  · obtain ⟨c, rest, rfl⟩ := exists_below hpre heq
    rw [resolve_below_error hnone] at ha
    cases ha

/-- No directory lies at or behind a file. -/
theorem ParentOf.not_prefix_file (hp : ParentOf g v path cs r parentDir name parentPath)
    (hfound : lookup (dirEntries g v (dirCluster g r)) name = some it)
    (hfile : it.entry.isDirectory = false) (ha : resolve g v a = .ok r₁)
    (hd : isDir r₁ = true) : ¬ (cs ++ [name]) <+: a := by
  intro hpre
  have hself : resolve g v (cs ++ [name]) = .ok (some it.entry) := by
    simp only [resolve_snoc, hp.resolved, hp.dir, hp.valid, hfound]
    rfl
  have hnot : isDir (some it.entry) = false := hfile
  by_cases heq : a = cs ++ [name]
  · rw [heq, hself] at ha
    cases ha
    rw [hnot] at hd
    cases hd
  · obtain ⟨c, rest, rfl⟩ := exists_below hpre heq
    rw [resolve_below_file hself hfile] at ha
    cases ha

/-- The components of a canonical path are in capitals. -/
theorem ParentOf.upper (hp : ParentOf g v path cs r parentDir name parentPath)
    (hpath : CanonicalPath path) : ∀ c ∈ cs ++ [name], c.map kToupper = c := by
  obtain ⟨components, hcomp⟩ := hpath
  rw [← hp.split, hcomp.splitComponents_eq]
  exact fun c hc => (hcomp.components c hc).upper

/-! ## Calls that succeed -/

/-- A new entry stands on no path that leads to a directory. -/
theorem Created.resolve_dir
    (h : Created (Tidy SlotTidy) g v v' D D' own own' (dirCluster g r) name it)
    (hs : Sound (Tidy SlotTidy) g v D own) (hp : ParentOf g v path cs r parentDir name parentPath)
    (hpath : CanonicalPath path)
    (habsent : lookup (dirEntries g v (dirCluster g r)) name = none)
    (hup : ∀ c ∈ a, c.map kToupper = c) (ha : resolve g v a = .ok r₁) :
    resolve g v' a = .ok r₁ := by
  have hupper := hp.upper hpath
  have hd := hs.dir_of_resolve hp.resolved hp.dir
  rw [(h.frame hs hd (hupper name (by simp))).resolve_eq hs hup, ha]
  exact hs.avoids hp.resolved hp.dir (fun c hc => hupper c (by simp [hc])) hup
    (hp.not_prefix_absent habsent ha)

theorem FileReplaced.resolve_dir {append : Bool} {data : List UInt8} {new : List Nat}
    {e' : DirectoryEntry}
    (h : FileReplaced (Tidy SlotTidy) g v v' D own (dirCluster g r) it append data new e')
    (hs : Sound (Tidy SlotTidy) g v D own) (hp : ParentOf g v path cs r parentDir name parentPath)
    (hpath : CanonicalPath path)
    (hfound : lookup (dirEntries g v (dirCluster g r)) name = some it)
    (hup : ∀ c ∈ a, c.map kToupper = c) (ha : resolve g v a = .ok r₁) (hd : isDir r₁ = true) :
    resolve g v' a = .ok r₁ := by
  have hupper := hp.upper hpath
  have hdir := hs.dir_of_resolve hp.resolved hp.dir
  rw [(h.frame hs hdir (lookup_mem hfound).2 (hupper name (by simp))).resolve_eq hs hup, ha]
  exact hs.avoids hp.resolved hp.dir (fun c hc => hupper c (by simp [hc])) hup
    (hp.not_prefix_file hfound h.file ha hd)

theorem Removed.resolve_dir (h : Removed (Tidy SlotTidy) g v v' D own (dirCluster g r) it)
    (hs : Sound (Tidy SlotTidy) g v D own) (hp : ParentOf g v path cs r parentDir name parentPath)
    (hpath : CanonicalPath path)
    (hfound : lookup (dirEntries g v (dirCluster g r)) name = some it)
    (hup : ∀ c ∈ a, c.map kToupper = c) (hnot : ¬ (cs ++ [name]) <+: a) :
    resolve g v' a = resolve g v a := by
  refine h.resolve_eq hs ?_ hp.resolved hp.dir (lookup_mem hfound).2 (hp.upper hpath) hup hnot
  simp only [resolve_snoc, hp.resolved, hp.dir, hp.valid, hfound]
  rfl

/-- The new name stands on no path, since it was not there. -/
theorem Renamed.resolve_dir (h : Renamed (Tidy SlotTidy) g v vm v' D own own' oldPath newPath cs
    cs' r r' name name' parentPath' it it') (hs : Sound (Tidy SlotTidy) g v D own)
    (hold : CanonicalPath oldPath) (hnew : CanonicalPath newPath)
    (hup : ∀ c ∈ a, c.map kToupper = c) (ha : resolve g v a = .ok r₁)
    (hnot : ¬ (cs ++ [name]) <+: a) : resolve g v' a = .ok r₁ := by
  obtain ⟨parentDir, parentPath, hp⟩ := h.old
  obtain ⟨parentDir', hp'⟩ := h.new
  have hupper := hp.upper hold
  have hupper' := hp'.upper hnew
  have hframe := h.moved.frame (lookup_mem h.found).2 (hupper name (by simp))
    (hupper' name' (by simp))
  rw [h.resolve_eq, hframe.resolve_eq hs hup, ha]
  intro b n rest r₂ hsplit hr₂ hd₂ hchanged
  rcases hchanged with hc | hc
  · exact hs.not_through hp.resolved hp.dir (fun c hc => hupper c (by simp [hc])) hup hnot hsplit
      hr₂ hd₂ hc
  · exact hs.not_through hp'.resolved hp'.dir (fun c hc => hupper' c (by simp [hc])) hup
      (hp'.not_prefix_absent h.absent ha) hsplit hr₂ hd₂ hc

/-- Whatever a call has done, a path leads to its directory as before, unless the call has taken
away what stands on the path. -/
theorem Effect.resolve_dir (h : Effect (Tidy SlotTidy) g v v' D own op D' own')
    (hs : Sound (Tidy SlotTidy) g v D own) (hadm : op.Admissible)
    (hup : ∀ c ∈ a, c.map kToupper = c) (ha : resolve g v a = .ok r₁) (hd : isDir r₁ = true)
    (hspare : ∀ path, op.takesAway = some path → ¬ splitComponents path <+: a) :
    resolve g v' a = .ok r₁ := by
  cases h with
  | nothing same => rw [same, ha]
  | writeFailed _ failed => rw [failed.untouched.resolve_eq hs, ha]
  | replaced parent found file => exact file.resolve_dir hs parent hadm.1 found hup ha hd
  | created parent absent file =>
    exact file.toCreated.resolve_dir hs parent hadm.1 absent hup ha
  | makeDirFailed _ failed => rw [failed.untouched.resolve_eq hs, ha]
  | dirCreated parent absent dir => exact dir.toCreated.resolve_dir hs parent hadm absent hup ha
  | removed parent found entry =>
    rw [entry.resolve_dir hs parent hadm found hup (parent.split ▸ hspare _ rfl), ha]
  | renamed entry =>
    obtain ⟨parentDir, parentPath, hp⟩ := entry.old
    exact entry.resolve_dir hs hadm.1 hadm.2 hup ha (hp.split ▸ hspare _ rfl)

end

/-! ## Steps -/

section

variable {env : Env} {s s' : State} {op : Operation} {D : Nat → Prop} {own : Owner → List Nat}
  {a : List CStr} {r₁ : Option DirectoryEntry}

/-- Where a call that takes an entry away fails, it leaves the volume. -/
theorem Kept.takes_nothing {path : CStr} {e : Fat32Result}
    (hfuel : env.geometry.totalClusters < env.fuel) (hrel : ¬ env.Faulty)
    (hk : Kept (Tidy SlotTidy) env.geometry (s.volume env.geometry) D own)
    (htakes : op.takesAway = some path) (hcall : op.call env s = .error e s') :
    s'.volume env.geometry = s.volume env.geometry := by
  cases op with
  | remove path => exact (fat32Remove_sat hfuel hrel rfl hk.sound).of_error hcall
  | rename oldPath newPath =>
    exact (fat32Rename_sat hfuel hrel rfl hk.sound).of_error hcall
  | _ => cases htakes

/-- A path leads to its directory after every call that does not take away what stands on the
path. -/
theorem Kept.resolve_dir (hfuel : env.geometry.totalClusters < env.fuel) (hrel : ¬ env.Faulty)
    (hk : Kept (Tidy SlotTidy) env.geometry (s.volume env.geometry) D own)
    (hstep : AdmissibleStep env s op s') (hup : ∀ c ∈ a, c.map kToupper = c)
    (ha : resolve env.geometry (s.volume env.geometry) a = .ok r₁) (hd : isDir r₁ = true)
    (hspare : ∀ path, op.takesAway = some path → (op.call env s).isOk = true →
      ¬ splitComponents path <+: a) :
    resolve env.geometry (s'.volume env.geometry) a = .ok r₁ := by
  obtain ⟨D', own', heff, -⟩ := hk.step hfuel hrel hstep
  rcases hstep.2 with hcall | ⟨e, hcall⟩
  · refine heff.resolve_dir hk.sound hstep.1 hup ha hd fun path htakes => ?_
    exact hspare path htakes (by rw [hcall]; rfl)
  · cases htakes : op.takesAway with
    | some path => rw [hk.takes_nothing hfuel hrel htakes hcall, ha]
    | none =>
      refine heff.resolve_dir hk.sound hstep.1 hup ha hd fun path hsome => ?_
      rw [htakes] at hsome
      cases hsome

end

end FunnyOS.Fat32
