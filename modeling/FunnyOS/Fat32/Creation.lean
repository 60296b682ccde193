import FunnyOS.Fat32.Frame

/-!
# Creating files and directories

A successful call of `fat32_make_dir` or `fat32_write_file` on a path that did not resolve adds one
entry to the listing of one directory; a new directory is empty, and every other directory is listed
as before.
-/

namespace FunnyOS.Fat32

open Prog

/-- The call may create an entry at the path, of a certain kind and size. -/
inductive Creates : Operation → CStr → Bool → Nat → Prop
  | writeFile (path : CStr) (data : List UInt8) (append : Bool) :
      Creates (.writeFile path data append) path false data.length
  | makeDir (path : CStr) : Creates (.makeDir path) path true 0

section

variable {ok : List DirectoryEntry → Prop} [TidyRules ok] {g : Geometry} {v v' : Volume}
  {D D' : Nat → Prop} {own own' : Owner → List Nat} {cs other : List CStr} {path name : CStr}
  {r : Option DirectoryEntry} {it : Item} {env : Env} {s s' : State} {op : Operation}
  {kind : Bool} {size : Nat}

/-- The directory that an entry is created in gets one more item. -/
theorem Created.listing_parent
    (h : Created ok g v v' D D' own own' (dirCluster g r) name it) (hs : Sound ok g v D own)
    (hcs : ∀ c ∈ cs, CanonicalComponent c) (hname : name.map kToupper = name)
    (hr : resolve g v cs = .ok r) (hd : isDir r = true) :
    ∃ a b, listing g v (joinPath cs) = .ok (a ++ b) ∧
      listing g v' (joinPath cs) = .ok (a ++ it.info :: b) := by
  have hup : ∀ c ∈ cs, c.map kToupper = c := fun c hc => (hcs c hc).upper
  have hr' : resolve g v' cs = .ok r := by
    rw [← hr]
    apply (h.frame hs (hs.dir_of_resolve hr hd) hname).resolve_eq hs hup
    apply hs.avoids hr hd hup hup
    exact fun hpre => by simpa using hpre.length_le
  obtain ⟨a, b, hab, hab'⟩ := h.added hs (hs.dir_of_resolve hr hd)
  refine ⟨a.map Item.info, b.map Item.info, ?_, ?_⟩
  · simp only [listing, joinPath_components hcs, hr, hd, if_true, hab, List.map_append]
  · simp only [listing, joinPath_components hcs, hr', hd, if_true, hab', List.map_append,
      List.map_cons]

/-- Other directories are listed as before. -/
theorem Created.listing_other
    (h : Created ok g v v' D D' own own' (dirCluster g r) name it) (hs : Sound ok g v D own)
    (hcs : ∀ c ∈ cs, CanonicalComponent c) (hname : name.map kToupper = name)
    (hr : resolve g v cs = .ok r) (hd : isDir r = true)
    (hp : Canonical path other) (hne : other ≠ cs) (hnot : ¬ (cs ++ [name]) <+: other) :
    listing g v' path = listing g v path := by
  have hup : ∀ c ∈ cs, c.map kToupper = c := fun c hc => (hcs c hc).upper
  have hup' : ∀ c ∈ other, c.map kToupper = c := fun c hc => (hp.components c hc).upper
  apply (h.frame hs (hs.dir_of_resolve hr hd) hname).listing_eq hs hp (hs.avoids hr hd hup hup' hnot)
  rintro r' hr' hd' n ⟨heq, -⟩
  exact hne (hs.resolve_unique hup' hup hr' hr hd' hd heq)

/-- A new directory is found and empty. -/
theorem DirCreated.listing_self {parent : Nat}
    (h : DirCreated ok g v v' D own own' (dirCluster g r) parent name it) (hs : Sound ok g v D own)
    (hcs : ∀ c ∈ cs ++ [name], CanonicalComponent c) (hvalid : validateLongName name = true)
    (hr : resolve g v cs = .ok r) (hd : isDir r = true)
    (habsent : lookup (dirEntries g v (dirCluster g r)) name = none) :
    listing g v' (joinPath (cs ++ [name])) = .ok [] := by
  have hup : ∀ c ∈ cs, c.map kToupper = c := fun c hc => (hcs c (by simp [hc])).upper
  have hdir := hs.dir_of_resolve hr hd
  have hr' : resolve g v' cs = .ok r := by
    rw [← hr]
    apply (h.frame hs hdir (hcs name (by simp)).upper).resolve_eq hs hup
    apply hs.avoids hr hd hup hup
    exact fun hpre => by simpa using hpre.length_le
  have hself : resolve g v' (cs ++ [name]) = .ok (some it.entry) := by
    simp only [resolve_snoc, hr', hd, hvalid, lookup_added_self (h.added hs hdir) habsent h.named]
    rfl
  have hnew : isDir (some it.entry) = true := h.dir
  simp only [listing, joinPath_components hcs, hself, hnew, if_true, dirCluster, h.entries,
    itemsOf_newDirEntries, List.map_nil]

/-- What a successful call on a path that did not resolve has done. -/
theorem created_of_call (hfuel : env.geometry.totalClusters < env.fuel) (hrel : ¬ env.Faulty)
    (hs : Sound ok env.geometry (s.volume env.geometry) D own)
    (hpath : Canonical path (cs ++ [name])) (hop : Creates op path kind size)
    (habsent : ∀ e, resolve env.geometry (s.volume env.geometry) (cs ++ [name]) ≠ .ok e)
    (hcall : op.call env s = .ok () s') :
    ∃ r D' own' it, resolve env.geometry (s.volume env.geometry) cs = .ok r ∧ isDir r = true ∧
      Created ok env.geometry (s.volume env.geometry) (s'.volume env.geometry) D D' own own'
        (dirCluster env.geometry r) name it ∧
      it.entry.isDirectory = kind ∧ it.entry.size = size ∧
      (kind = true → listing env.geometry (s'.volume env.geometry) path = .ok []) := by
  have hsplit := hpath.splitComponents_eq
  cases hop with
  | writeFile _ data append =>
    rcases Nat.lt_or_ge (2 ^ 31) data.length with hbig | hdata
    · exact ((fat32WriteFile_large hfuel hrel hs hbig).of_ok hcall).elim
    obtain ⟨cs₀, r, parentDir, name₀, parentPath, hp, hw⟩ :=
      (fat32WriteFile_sat hfuel hrel rfl hs hdata).of_ok hcall
    obtain ⟨rfl, rfl⟩ : cs = cs₀ ∧ name = name₀ := by
      simpa using hsplit.symm.trans hp.split
    cases hw with
    | replaced it new e' hfound hfile =>
      refine absurd ?_ (habsent (some it.entry))
      simp only [resolve_snoc, hp.resolved, hp.dir, hp.valid, hfound]
      rfl
    | created own' it _ hfile =>
      exact ⟨r, D, own', it, hp.resolved, hp.dir, hfile.toCreated, hfile.file, hfile.size,
        fun h => by cases h⟩
  | makeDir _ =>
    obtain ⟨cs₀, r, parentDir, name₀, parentPath, own', it, hp, hnone, hdir⟩ :=
      (fat32MakeDir_sat hfuel hrel rfl hs).of_ok hcall
    obtain ⟨rfl, rfl⟩ : cs = cs₀ ∧ name = name₀ := by
      simpa using hsplit.symm.trans hp.split
    refine ⟨r, _, own', it, hp.resolved, hp.dir, hdir.toCreated, hdir.dir, hdir.size, fun _ => ?_⟩
    rw [hpath.text]
    exact hdir.listing_self hs hpath.components hp.valid hp.resolved hp.dir hnone

/-- A successful call of `fat32_make_dir` or `fat32_write_file` on a canonical path that did not
resolve adds one entry, of the kind and size asked for, to the listing of the parent directory. A
new directory lists nothing, and other directories list what they have listed before. -/
theorem fat32ListDir_of_create (hfuel : env.geometry.totalClusters < env.fuel)
    (hrel : ¬ env.Faulty) (hwf : WellFormed env.geometry (s.volume env.geometry))
    (hpath : Canonical path (cs ++ [name])) (hop : Creates op path kind size)
    (habsent : ∃ e, (fat32Stat env path s).result = some (.error e))
    (hcall : op.call env s = .ok () s') :
    (∃ a b info,
      (fat32ListDir env (joinPath cs) collect [] s).result = some (.ok (a ++ b)) ∧
      (fat32ListDir env (joinPath cs) collect [] s').result = some (.ok (a ++ info :: b)) ∧
      nameEqualsIgnoreCase info.name name = true ∧ info.isDir = kind ∧ info.size = size) ∧
    (kind = true → (fat32ListDir env path collect [] s').result = some (.ok [])) ∧
    ∀ other cs', Canonical other cs' → cs' ≠ cs → ¬ (cs ++ [name]) <+: cs' →
      ∀ {κ : Type} (callback : κ → Fat32NodeInfo → κ × Bool) (context : κ),
        (fat32ListDir env other callback context s').result
          = (fat32ListDir env other callback context s).result := by
  have hs := hwf.sound
  have hcs : ∀ c ∈ cs, CanonicalComponent c := fun c hc => hpath.components c (by simp [hc])
  have hname : name.map kToupper = name := (hpath.components name (by simp)).upper
  have hnone : ∀ e, resolve env.geometry (s.volume env.geometry) (cs ++ [name]) ≠ .ok e := by
    intro e hr
    obtain ⟨code, hcode⟩ := habsent
    rw [fat32Stat_canonical hfuel hrel hwf hpath, hr] at hcode
    cases e <;> cases hcode
  obtain ⟨r, D', own', it, hr, hd, hc, hkind, hsize, hempty⟩ :=
    created_of_call hfuel hrel hs hpath hop hnone hcall
  have hs' := hc.sound
  refine ⟨?_, fun hk => ?_, fun other cs' hother hne hnot κ callback context => ?_⟩
  · obtain ⟨a, b, hbefore, hafter⟩ := hc.listing_parent hs hcs hname hr hd
    refine ⟨a, b, it.info, ?_, ?_, hc.named, hkind, hsize⟩
    · rw [fat32ListDir_result hfuel hrel hs, hbefore, listAnswer, report_collect, List.nil_append]
    · rw [fat32ListDir_result hfuel hrel hs', hafter, listAnswer, report_collect, List.nil_append]
  · rw [fat32ListDir_result hfuel hrel hs', hempty hk]
    rfl
  · rw [fat32ListDir_result hfuel hrel hs', fat32ListDir_result hfuel hrel hs,
      hc.listing_other hs hcs hname hr hd hother hne hnot]

/-- A directory made beside two files. -/
theorem fat32ListDir_of_create_makeDir :
    (∃ a b info,
      (fat32ListDir smallEnv [slash] collect [] almostFullState).result = some (.ok (a ++ b)) ∧
      (fat32ListDir smallEnv [slash] collect [] (afterCall (.makeDir [slash, 0x43])
        almostFullState)).result = some (.ok (a ++ info :: b)) ∧
      nameEqualsIgnoreCase info.name [0x43] = true ∧ info.isDir = true ∧ info.size = 0) ∧
    (fat32ListDir smallEnv [slash, 0x43] collect [] (afterCall (.makeDir [slash, 0x43])
      almostFullState)).result = some (.ok []) := by
  have hpath : Canonical [slash, 0x43] ([] ++ [[0x43]]) :=
    canonical_letter (by decide) (by decide) (by decide)
  have hcall : (Operation.makeDir [slash, 0x43]).call smallEnv almostFullState
      = .ok () (afterCall (.makeDir [slash, 0x43]) almostFullState) :=
    Prog.eq_ok_of_isOk (by decide +kernel)
  have h := fat32ListDir_of_create (by decide) smallEnv_reliable
    (sound_of_check almostFullState_check).2 hpath (.makeDir [slash, 0x43])
    ⟨.notFound, by decide +kernel⟩ hcall
  exact ⟨h.1, h.2.1 rfl⟩

end

end FunnyOS.Fat32
