import FunnyOS.Fat32.MakeDir
import FunnyOS.Fat32.Rename
import FunnyOS.Fat32.WellFormed
import FunnyOS.Fat32.WriteFile
import FunnyOS.Lib.Run

/-!
# Runs of operations

The operations that change the volume, and what each of them keeps. `Regular` volumes have, beyond
being well formed, what the driver itself always produces: long names that it can decode, a special
slot 1 in every directory but the root, and no deleted slot that could be counted as part of a name.
-/

namespace FunnyOS.Fat32

open Prog

/-! ## Calls -/

/-- A call of an operation that changes the volume. -/
inductive Operation where
  | writeFile (path : CStr) (data : List UInt8) (append : Bool)
  | makeDir (path : CStr)
  | remove (path : CStr)
  | rename (oldPath newPath : CStr)

/-- The call. -/
def Operation.call (env : Env) : Operation → Driver Unit
  | .writeFile path data append => fat32WriteFile env path data append
  | .makeDir path => fat32MakeDir env path
  | .remove path => fat32Remove env path
  | .rename oldPath newPath => fat32Rename env oldPath newPath

/-- A path that `path_normalize` produces. -/
def CanonicalPath (path : CStr) : Prop := ∃ components, Canonical path components

/-- Canonical paths, and data of at most `2 ^ 31` bytes. -/
def Operation.Admissible : Operation → Prop
  | .writeFile path data _ => CanonicalPath path ∧ data.length ≤ 2 ^ 31
  | .makeDir path => CanonicalPath path
  | .remove path => CanonicalPath path
  | .rename oldPath newPath => CanonicalPath oldPath ∧ CanonicalPath newPath

/-- The call returns, with whatever result, in state `s'`. -/
def After (env : Env) (s : State) (op : Operation) (s' : State) : Prop :=
  op.call env s = .ok () s' ∨ ∃ e, op.call env s = .error e s'

/-- A call with admissible arguments returns. -/
def AdmissibleStep (env : Env) (s : State) (op : Operation) (s' : State) : Prop :=
  op.Admissible ∧ After env s op s'

/-! ## Regular volumes -/

/-- Slot 1 of the directory is special: it holds `..`. -/
def HasParentSlot (es : List DirectoryEntry) : Prop := ∃ e, es[1]? = some e ∧ e.kind = .special

/-- The directories of `D` are snug, and all but the root have a special slot 1. -/
def Shaped (g : Geometry) (v : Volume) (D : Nat → Prop) : Prop :=
  ∀ d, D d → Snug (dirEntries g v d) ∧ (d ≠ g.rootCluster → HasParentSlot (dirEntries g v d))

/-- What the driver itself always produces. -/
structure Regular (g : Geometry) (v : Volume) : Prop where
  decodable : ∀ d, Reachable g v d → Decodable (dirEntries g v d)
  shaped : Shaped g v (Reachable g v)

section

variable {ok : List DirectoryEntry → Prop} {g : Geometry} {v v' : Volume}
  {D D' : Nat → Prop} {own own' : Owner → List Nat} {d : Nat} {it : Item} {name : CStr}
  {append : Bool} {data : List UInt8} {new : List Nat} {e' : DirectoryEntry}

theorem HasParentSlot.keep {es es' : List DirectoryEntry} (h : HasParentSlot es)
    (hk : KeepsShape es es') : HasParentSlot es' := by
  obtain ⟨e, he, hs⟩ := h
  exact ⟨e, hk.special he hs, hs⟩

theorem Shaped.keep (h : Shaped g v D) (hD : ∀ d, D' d → D d)
    (hk : ∀ d, D' d → KeepsShape (dirEntries g v d) (dirEntries g v' d)) : Shaped g v' D' := by
  intro d hd
  obtain ⟨hs, hp⟩ := h d (hD d hd)
  exact ⟨(hk d hd).snug hs, fun hne => (hp hne).keep (hk d hd)⟩

theorem FileReplaced.keepsShape (h : FileReplaced ok g v v' D own d it append data new e')
    {x : Nat} (hx : D x) : KeepsShape (dirEntries g v x) (dirEntries g v' x) :=
  h.others.keepsShape_put (h.slots ▸ keepsShape_set h.mem h.same) hx

theorem Created.keepsShape (h : Created ok g v v' D D' own own' d name it) {x : Nat} (hx : D x) :
    KeepsShape (dirEntries g v x) (dirEntries g v' x) := by
  obtain ⟨_, _, _, hslots⟩ := h.slots
  exact h.others.keepsShape_put hslots.keepsShape hx

theorem Removed.keepsShape (h : Removed ok g v v' D own d it) {x : Nat}
    (hx : without D it.entry x) : KeepsShape (dirEntries g v x) (dirEntries g v' x) :=
  h.others.keepsShape_put (h.slots ▸ keepsShape_deleteSpan h.mem) hx

/-- A new directory is snug and has its slot `..`. -/
theorem newDirEntries_shaped {c parent : Nat} :
    Snug (newDirEntries g c parent) ∧ HasParentSlot (newDirEntries g c parent) := by
  refine ⟨fun i a b _ hb hk => ?_, _, rfl, special_dots.1⟩
  have hmem := List.mem_of_getElem? hb
  simp only [newDirEntries, List.mem_cons, List.mem_replicate] at hmem
  rcases hmem with rfl | rfl | ⟨-, rfl⟩
  · rw [special_dot.1] at hk; cases hk
  · rw [special_dots.1] at hk; cases hk
  · rw [DirectoryEntry.kind_endMark rfl] at hk; cases hk

theorem DirCreated.shaped {parent : Nat}
    (h : DirCreated ok g v v' D own own' d parent name it) (hs : Shaped g v D) :
    Shaped g v' (fun d' => D d' ∨ d' = it.entry.entryFirstCluster) := by
  intro x hx
  rcases hx with hx | rfl
  · obtain ⟨hsnug, hp⟩ := hs x hx
    have hk := h.keepsShape hx
    exact ⟨hk.snug hsnug, fun hne => (hp hne).keep hk⟩
  · rw [h.entries]
    exact ⟨newDirEntries_shaped.1, fun _ => newDirEntries_shaped.2⟩

theorem ParentWritten.shaped {m parent : Nat} (h : ParentWritten g v v' D m parent)
    (hp : HasParentSlot (dirEntries g v m)) (hs : Shaped g v D) : Shaped g v' D := by
  intro x hx
  by_cases hxm : x = m
  · obtain ⟨e, he, hk⟩ := hp
    have hsame : SameName e (e.entrySetFirstCluster parent) := sameName_setFirstCluster
    have hlt := (List.getElem?_eq_some_iff.mp he).1
    rw [hxm, h.entries, withParent_eq he]
    refine ⟨Snug.set (hs m (hxm ▸ hx)).1 he hsame, fun _ => ⟨_, ?_, hsame.kind_eq.trans hk⟩⟩
    rw [List.getElem?_set_self hlt]
  · exact (hs.keep (fun _ h => h.1)
      fun d hd => h.others.keepsShape hd) x ⟨hx, hxm⟩

end

/-! ## What every call keeps -/

section

variable {ok : List DirectoryEntry → Prop} {env : Env} {s s' : State} {op : Operation}

/-- The invariant of runs: an account with directories in shape. -/
structure Kept (ok : List DirectoryEntry → Prop) (g : Geometry) (v : Volume)
    (D : Nat → Prop) (own : Owner → List Nat) : Prop where
  sound : Sound ok g v D own
  shaped : Shaped g v D

theorem Kept.renameSafe {g : Geometry} {v : Volume} {D : Nat → Prop} {own : Owner → List Nat}
    (h : Kept ok g v D own) (oldPath : CStr) : RenameSafe g v oldPath := by
  intro cs r parentDir name parentPath it hp hfound
  have hd := h.sound.dir_of_resolve hp.resolved hp.dir
  have hit := (lookup_mem hfound).1
  refine ⟨(h.shaped _ hd).1, fun hdir => ?_⟩
  exact (h.shaped _ (h.sound.subdir hd hit hdir)).2
    (h.sound.cert.entry_ne_root hd (liveEntries_item hit))

/-- What a call can have done to the volume `v`, whose account it turns into that of `D'` and
`own'`. -/
inductive Effect (ok : List DirectoryEntry → Prop) (g : Geometry) (v v' : Volume)
    (D : Nat → Prop) (own : Owner → List Nat) :
    Operation → (Nat → Prop) → (Owner → List Nat) → Prop
  | nothing {op : Operation} (same : v' = v) : Effect ok g v v' D own op D own
  | writeFailed {path data append cs r parentDir name parentPath own'}
      (parent : ParentOf g v path cs r parentDir name parentPath)
      (failed : WriteFailed ok g v v' D own own' (dirCluster g r) name append data) :
      Effect ok g v v' D own (.writeFile path data append) D own'
  | replaced {path data append cs r parentDir name parentPath it new e'}
      (parent : ParentOf g v path cs r parentDir name parentPath)
      (found : lookup (dirEntries g v (dirCluster g r)) name = some it)
      (file : FileReplaced ok g v v' D own (dirCluster g r) it append data new e') :
      Effect ok g v v' D own (.writeFile path data append) D
        (Function.update own (.slot (dirCluster g r) it.index) new)
  | created {path data append cs r parentDir name parentPath own' it}
      (parent : ParentOf g v path cs r parentDir name parentPath)
      (absent : lookup (dirEntries g v (dirCluster g r)) name = none)
      (file : FileCreated ok g v v' D own own' (dirCluster g r) name it data) :
      Effect ok g v v' D own (.writeFile path data append) D own'
  | makeDirFailed {path cs r parentDir name parentPath}
      (parent : ParentOf g v path cs r parentDir name parentPath)
      (failed : Failed ok g v v' D own own (MakeDirShort g v (dirCluster g r) name)) :
      Effect ok g v v' D own (.makeDir path) D own
  | dirCreated {path cs r parentDir name parentPath own' it}
      (parent : ParentOf g v path cs r parentDir name parentPath)
      (absent : lookup (dirEntries g v (dirCluster g r)) name = none)
      (dir : DirCreated ok g v v' D own own' (dirCluster g r)
        (if r.isNone then 0 else dirCluster g r) name it) :
      Effect ok g v v' D own (.makeDir path) (fun d' => D d' ∨ d' = it.entry.entryFirstCluster) own'
  | removed {path cs r parentDir name parentPath it}
      (parent : ParentOf g v path cs r parentDir name parentPath)
      (found : lookup (dirEntries g v (dirCluster g r)) name = some it)
      (entry : Removed ok g v v' D own (dirCluster g r) it) :
      Effect ok g v v' D own (.remove path) (without D it.entry)
        (Function.update own (.slot (dirCluster g r) it.index) [])
  | renamed {oldPath newPath vm own' cs cs' r r' name name' parentPath' it it'}
      (entry : Renamed ok g v vm v' D own own' oldPath newPath cs cs' r r' name name' parentPath'
        it it') : Effect ok g v v' D own (.rename oldPath newPath) D own'

/-- Whatever it returns, a call that does not rename has one of these effects. -/
theorem Operation.effect_sat [DirRules ok] (hfuel : env.geometry.totalClusters < env.fuel)
    (hrel : ¬ env.Faulty) {D : Nat → Prop} {own : Owner → List Nat}
    (h : Sound ok env.geometry (s.volume env.geometry) D own)
    (hdata : ∀ path data append, op = .writeFile path data append → data.length ≤ 2 ^ 31)
    (hop : ∀ oldPath newPath, op ≠ .rename oldPath newPath) :
    Sat (op.call env) s
      (fun _ s' => ∃ D' own', Effect ok env.geometry (s.volume env.geometry)
        (s'.volume env.geometry) D own op D' own')
      (fun _ s' => ∃ D' own', Effect ok env.geometry (s.volume env.geometry)
        (s'.volume env.geometry) D own op D' own') := by
  cases op with
  | writeFile path data append =>
    refine Sat.mono (fat32WriteFile_sat hfuel hrel rfl h (hdata path data append rfl)) ?_ ?_
    · rintro ⟨⟩ s' ⟨cs, r, parentDir, name, parentPath, hp, hw⟩
      cases hw with
      | replaced it new e' hfound hfile => exact ⟨D, _, .replaced hp hfound hfile⟩
      | created own' it habsent hfile => exact ⟨D, own', .created hp habsent hfile⟩
    · rintro e s' (hv | ⟨cs, r, parentDir, name, parentPath, own', hp, hf⟩)
      · exact ⟨D, own, .nothing hv⟩
      · exact ⟨D, own', .writeFailed hp hf⟩
  | makeDir path =>
    refine Sat.mono (fat32MakeDir_sat hfuel hrel rfl h) ?_ ?_
    · rintro ⟨⟩ s' ⟨cs, r, parentDir, name, parentPath, own', it, hp, habsent, hdir⟩
      exact ⟨_, own', .dirCreated hp habsent hdir⟩
    · rintro e s' (hv | ⟨cs, r, parentDir, name, parentPath, hp, hf⟩)
      · exact ⟨D, own, .nothing hv⟩
      · exact ⟨D, own, .makeDirFailed hp hf⟩
  | remove path =>
    refine Sat.mono (fat32Remove_sat hfuel hrel rfl h) ?_ (fun _ s' hv => ⟨D, own, .nothing hv⟩)
    rintro ⟨⟩ s' ⟨cs, r, parentDir, name, parentPath, it, hp, hfound, hrem⟩
    exact ⟨_, _, .removed hp hfound hrem⟩
  | rename oldPath newPath => exact absurd rfl (hop oldPath newPath)

/-- A call that renames has one of them where the directories are in shape. -/
theorem Operation.effect_sat_of_safe [TidyRules ok] (hfuel : env.geometry.totalClusters < env.fuel)
    (hrel : ¬ env.Faulty) {D : Nat → Prop} {own : Owner → List Nat}
    (h : Sound ok env.geometry (s.volume env.geometry) D own)
    (hdata : ∀ path data append, op = .writeFile path data append → data.length ≤ 2 ^ 31)
    (hsafe : ∀ oldPath newPath, op = .rename oldPath newPath →
      RenameSafe env.geometry (s.volume env.geometry) oldPath) :
    Sat (op.call env) s
      (fun _ s' => ∃ D' own', Effect ok env.geometry (s.volume env.geometry)
        (s'.volume env.geometry) D own op D' own')
      (fun _ s' => ∃ D' own', Effect ok env.geometry (s.volume env.geometry)
        (s'.volume env.geometry) D own op D' own') := by
  cases op with
  | writeFile path data append => exact Operation.effect_sat hfuel hrel h hdata (by simp)
  | makeDir path => exact Operation.effect_sat hfuel hrel h hdata (by simp)
  | remove path => exact Operation.effect_sat hfuel hrel h hdata (by simp)
  | rename oldPath newPath =>
    refine Sat.mono (fat32Rename_sat_of_safe hfuel hrel rfl h (hsafe oldPath newPath rfl)) ?_
      (fun _ s' hv => ⟨D, own, .nothing hv⟩)
    rintro ⟨⟩ s' (⟨-, hv⟩ | ⟨vm, own', cs, cs', r, r', name, name', pp', it, it', hren⟩)
    · exact ⟨D, own, .nothing hv⟩
    · exact ⟨D, own', .renamed hren⟩

end

section

variable {ok : List DirectoryEntry → Prop} {op : Operation}

/-- Whatever a call has done, the clusters are accounted for after it. -/
theorem Effect.sound {g : Geometry} {v v' : Volume} {D D' : Nat → Prop}
    {own own' : Owner → List Nat} (h : Effect ok g v v' D own op D' own')
    (hs : Sound ok g v D own) : Sound ok g v' D' own' := by
  cases h with
  | nothing same => exact same ▸ hs
  | writeFailed _ failed => exact failed.untouched.sound
  | replaced _ _ file => exact file.sound
  | created _ _ file => exact file.sound
  | makeDirFailed _ failed => exact failed.untouched.sound
  | dirCreated _ _ dir => exact dir.sound
  | removed _ _ entry => exact entry.sound
  | renamed entry => exact entry.sound

/-- The directories are in shape after it, too. -/
theorem Effect.kept {g : Geometry} {v v' : Volume} {D D' : Nat → Prop}
    {own own' : Owner → List Nat} (h : Effect ok g v v' D own op D' own')
    (hk : Kept ok g v D own) : Kept ok g v' D' own' := by
  refine ⟨h.sound hk.sound, ?_⟩
  have hs := hk.shaped
  cases h with
  | nothing same => exact same ▸ hs
  | writeFailed _ failed =>
    exact hs.keep (fun _ h => h) fun d hd => failed.untouched.dirs.keepsShape hd
  | replaced _ _ file => exact hs.keep (fun _ h => h) fun d hd => file.keepsShape hd
  | created _ _ file => exact hs.keep (fun _ h => h) fun d hd => file.toCreated.keepsShape hd
  | makeDirFailed _ failed =>
    exact hs.keep (fun _ h => h) fun d hd => failed.untouched.dirs.keepsShape hd
  | dirCreated _ _ dir => exact dir.shaped hs
  | removed _ _ entry => exact hs.keep (fun _ hd => hd.1) fun d hd => entry.keepsShape hd
  | @renamed _ _ vm _ _ _ _ _ _ _ _ _ _ entry =>
    have hm : Shaped g vm D := hs.keep (fun _ h => h) fun d hd => entry.moved.shape d hd
    obtain ⟨hd, -, hit⟩ := entry.mem hk.sound
    have hparent := entry.parent
    split at hparent
    · next hdir =>
        have hslot := (hm _ (hk.sound.subdir hd hit hdir)).2
          (hk.sound.cert.entry_ne_root hd (liveEntries_item hit))
        exact hparent.shaped hslot hm
    · rw [hparent]
      exact hm

end

/-! ## Runs -/

section

variable {ok : List DirectoryEntry → Prop} [TidyRules ok] {env : Env} {s s' : State}
  {op : Operation} {ops : List Operation}

/-- What holds of every way a call can return. -/
theorem After.of_sat {P : State → Prop} (h : After env s op s')
    (hs : Sat (op.call env) s (fun _ => P) (fun _ => P)) : P s' := by
  unfold Sat at hs
  rcases h with h | ⟨e, h⟩ <;> rw [h] at hs <;> exact hs

theorem AdmissibleStep.data (h : AdmissibleStep env s op s') : ∀ path data append,
    op = .writeFile path data append → data.length ≤ 2 ^ 31 := by
  rintro path data append rfl
  exact h.1.2

/-- Whatever it returns, a call has an effect that keeps the invariant. -/
theorem Kept.step (hfuel : env.geometry.totalClusters < env.fuel) (hrel : ¬ env.Faulty)
    {D : Nat → Prop} {own : Owner → List Nat}
    (hk : Kept ok env.geometry (s.volume env.geometry) D own) (h : AdmissibleStep env s op s') :
    ∃ D' own', Effect ok env.geometry (s.volume env.geometry) (s'.volume env.geometry) D own op
        D' own' ∧ Kept ok env.geometry (s'.volume env.geometry) D' own' := by
  obtain ⟨D', own', heff⟩ := h.2.of_sat (Operation.effect_sat_of_safe hfuel hrel hk.sound h.data
    fun oldPath _ _ => hk.renameSafe oldPath)
  exact ⟨D', own', heff, heff.kept hk⟩

theorem WellFormed.kept {g : Geometry} {v : Volume} (h : WellFormed g v) (hr : Regular g v) :
    Kept (Tidy SlotStrict) g v (Reachable g v) (owners g v) :=
  ⟨h.sound_strict hr.decodable, hr.shaped⟩

theorem Kept.wellFormed {g : Geometry} {v : Volume} {D : Nat → Prop} {own : Owner → List Nat}
    (h : Kept (Tidy SlotStrict) g v D own) : WellFormed g v ∧ Regular g v := by
  obtain ⟨hwf, hdec⟩ := h.sound.wellFormed_of_strict
  exact ⟨hwf, hdec, fun d hd => h.shaped d (h.sound.reachable hd)⟩

/-- Runs lead from regular well-formed volumes to such volumes. -/
theorem regular_of_run (hfuel : env.geometry.totalClusters < env.fuel) (hrel : ¬ env.Faulty)
    (h : Runs (AdmissibleStep env) s ops s')
    (hwf : WellFormed env.geometry (s.volume env.geometry))
    (hreg : Regular env.geometry (s.volume env.geometry)) :
    WellFormed env.geometry (s'.volume env.geometry) ∧
      Regular env.geometry (s'.volume env.geometry) := by
  obtain ⟨D, own, hk⟩ := h.invariant
    (I := fun s => ∃ D own, Kept (Tidy SlotStrict) env.geometry (s.volume env.geometry) D own) (by
      rintro s op s' ⟨D, own, hk⟩ hstep
      obtain ⟨D', own', -, hk'⟩ := hk.step hfuel hrel hstep
      exact ⟨D', own', hk'⟩) ⟨_, _, hwf.kept hreg⟩
  exact hk.wellFormed

end

end FunnyOS.Fat32
