import FunnyOS.Fat32.Failure
import FunnyOS.Fat32.KeptPaths
import FunnyOS.Lib.FileTree

/-!
# The volume as a file tree

`fileTree g v` is the tree that the volume `v` stands for. A call that succeeds does to it what its
request says, and a call that fails does nothing to it; so every run of the driver is a run of the
file tree.
-/

namespace FunnyOS.Fat32

open Prog

/-- The tree of a volume: at a canonical path, what the path resolves to. The content of a file is
`none` where its chain is too short for its size. -/
def fileTree (g : Geometry) (v : Volume) : FileTree CStr (Option (List UInt8)) := fun cs =>
  if ∀ c ∈ cs, CanonicalComponent c then
    match resolve g v cs with
    | .error _ => none
    | .ok r => some (if isDir r then .dir else .file (contents g v (joinPath cs)).toOption)
  else none

/-- The request that a call makes. -/
def Operation.request : Operation → FileRequest CStr (List UInt8 × Bool)
  | .writeFile path data append => .write (splitComponents path) (data, append)
  | .makeDir path => .makeDir (splitComponents path)
  | .remove path => .remove (splitComponents path)
  | .rename oldPath newPath => .rename (splitComponents oldPath) (splitComponents newPath)

/-- What writing makes of the old content. Nothing is said about data that is appended to a file
that cannot be read. -/
inductive Writes : List UInt8 × Bool → Option (Option (List UInt8)) → Option (List UInt8) → Prop
  | create {data : List UInt8} {append : Bool} : Writes (data, append) none (some data)
  | overwrite {data : List UInt8} {old : Option (List UInt8)} :
      Writes (data, false) (some old) (some data)
  | append {data bytes : List UInt8} : Writes (data, true) (some (some bytes)) (some (bytes ++ data))
  | unreadable {data : List UInt8} {new : Option (List UInt8)} : Writes (data, true) (some none) new

/-- A call with admissible arguments returns, and whether it succeeds. -/
def Answered (env : Env) (s : State) (call : Operation × Bool) (s' : State) : Prop :=
  call.1.Admissible ∧
    if call.2 then call.1.call env s = .ok () s' else ∃ e, call.1.call env s = .error e s'

/-- The requests of the calls that succeed. -/
def granted (calls : List (Operation × Bool)) : List (FileRequest CStr (List UInt8 × Bool)) :=
  (calls.filter Prod.snd).map fun call => call.1.request

/-! ## Nodes -/

section

variable {g : Geometry} {v v' : Volume} {a b cs : List CStr} {r : Option DirectoryEntry}
  {e : DirectoryEntry} {code : Fat32Result} {node : Option (FileNode (Option (List UInt8)))}

theorem fileTree_canonical (h : fileTree g v cs ≠ none) : ∀ c ∈ cs, CanonicalComponent c := by
  by_contra hcs
  exact h (if_neg hcs)

theorem fileTree_error (hr : resolve g v cs = .error code) : fileTree g v cs = none := by
  unfold fileTree
  rw [hr]
  exact ite_self _

theorem fileTree_dir (hcs : ∀ c ∈ cs, CanonicalComponent c) (hr : resolve g v cs = .ok r)
    (hd : isDir r = true) : fileTree g v cs = some .dir := by
  unfold fileTree
  rw [if_pos hcs, hr]
  simp only [hd, if_true]

theorem fileTree_file (hcs : ∀ c ∈ cs, CanonicalComponent c) (hr : resolve g v cs = .ok (some e))
    (hfile : e.isDirectory = false) :
    fileTree g v cs = some (.file (fileContent g v e).toOption) := by
  have hd : isDir (some e) = false := hfile
  unfold fileTree
  rw [if_pos hcs, hr, contents, joinPath_components hcs, hr]
  simp only [hd, hfile, Bool.false_eq_true, if_false]

/-- What the node at a path says about its resolution. -/
theorem resolve_of_fileTree {node : FileNode (Option (List UInt8))}
    (h : fileTree g v cs = some node) : ∃ r, resolve g v cs = .ok r ∧
      (isDir r = true ↔ node = .dir) := by
  have hcs := fileTree_canonical (h ▸ Option.some_ne_none node)
  rcases hr : resolve g v cs with code | r
  · rw [fileTree_error hr] at h
    cases h
  · refine ⟨r, rfl, ?_⟩
    by_cases hd : isDir r = true
    · rw [fileTree_dir hcs hr hd] at h
      cases h
      simp [hd]
    · unfold fileTree at h
      rw [if_pos hcs, hr] at h
      simp only [hd, Bool.false_eq_true, if_false] at h
      cases h
      simp [hd]

theorem fileTree_congr (hb : ∀ c ∈ b, CanonicalComponent c) (ha : ∀ c ∈ a, CanonicalComponent c)
    (hr : resolve g v' b = resolve g v a)
    (hcontents : contents g v' (joinPath b) = contents g v (joinPath a)) :
    fileTree g v' b = fileTree g v a := by
  unfold fileTree
  rw [if_pos hb, if_pos ha, hr, hcontents]

/-- Trees that agree at canonical paths are equal. -/
theorem fileTree_ext {t : FileTree CStr (Option (List UInt8))}
    (ht : ∀ a, (¬ ∀ c ∈ a, CanonicalComponent c) → t a = none)
    (h : ∀ a, (∀ c ∈ a, CanonicalComponent c) → fileTree g v a = t a) : fileTree g v = t := by
  funext a
  by_cases ha : ∀ c ∈ a, CanonicalComponent c
  · exact h a ha
  · rw [ht a ha, fileTree, if_neg ha]

theorem fileTree_eq_put (hcs : ∀ c ∈ cs, CanonicalComponent c) (hself : fileTree g v' cs = node)
    (hother : ∀ a, (∀ c ∈ a, CanonicalComponent c) → a ≠ cs → fileTree g v' a = fileTree g v a) :
    fileTree g v' = (fileTree g v).put cs node := by
  refine fileTree_ext (fun a ha => ?_) fun a ha => ?_
  · rw [FileTree.put_other (by rintro rfl; exact ha hcs), fileTree, if_neg ha]
  · by_cases heq : a = cs
    · rw [heq, FileTree.put_self, hself]
    · rw [FileTree.put_other heq, hother a ha heq]

/-- The tree of a volume is rooted. -/
theorem fileTree_rooted : (fileTree g v).Rooted where
  root := fileTree_dir (by simp) resolve_nil isDir_none
  parent p n hn := by
    obtain ⟨node, hnode⟩ := Option.ne_none_iff_exists'.mp hn
    have hcs := fileTree_canonical hn
    obtain ⟨r, hr, -⟩ := resolve_of_fileTree hnode
    obtain ⟨r', it, hr', hd, -⟩ := resolve_snoc_ok hr
    exact fileTree_dir (fun c hc => hcs c (by simp [hc])) hr' hd

end

/-! ## Calls -/

section

variable {g : Geometry} {v vm v' : Volume} {D D' : Nat → Prop} {own own' : Owner → List Nat}
  {cs cs' a : List CStr} {name name' path oldPath newPath parentPath parentPath' : CStr}
  {r r' : Option DirectoryEntry} {parentDir : DirectoryRef} {it it' : Item} {append : Bool}
  {data : List UInt8} {new : List Nat} {e' : DirectoryEntry}

theorem ParentOf.canonical (hp : ParentOf g v path cs r parentDir name parentPath)
    (hpath : CanonicalPath path) : Canonical path (cs ++ [name]) := by
  obtain ⟨components, hcomp⟩ := hpath
  obtain rfl := hcomp.splitComponents_eq.symm.trans hp.split
  exact hcomp

theorem ParentOf.tree_parent (hp : ParentOf g v path cs r parentDir name parentPath)
    (hpath : CanonicalPath path) : fileTree g v cs = some .dir :=
  fileTree_dir (fun c hc => (hp.canonical hpath).components c (by simp [hc])) hp.resolved hp.dir

theorem ParentOf.resolve_absent (hp : ParentOf g v path cs r parentDir name parentPath)
    (habsent : lookup (dirEntries g v (dirCluster g r)) name = none) :
    resolve g v (cs ++ [name]) = .error .notFound := by
  simp only [resolve_snoc, hp.resolved, hp.dir, hp.valid, habsent]
  rfl

theorem ParentOf.resolve_found (hp : ParentOf g v path cs r parentDir name parentPath)
    (hfound : lookup (dirEntries g v (dirCluster g r)) name = some it) :
    resolve g v (cs ++ [name]) = .ok (some it.entry) := by
  simp only [resolve_snoc, hp.resolved, hp.dir, hp.valid, hfound]
  rfl

/-- A new entry changes no path but its own. -/
theorem Created.tree (h : Created (Tidy SlotTidy) g v v' D D' own own' (dirCluster g r) name it)
    (hs : Sound (Tidy SlotTidy) g v D own) (hp : ParentOf g v path cs r parentDir name parentPath)
    (hpath : CanonicalPath path)
    (habsent : lookup (dirEntries g v (dirCluster g r)) name = none)
    (hbelow : it.entry.isDirectory = true → itemsOf (dirEntries g v' it.entry.entryFirstCluster)
      = []) : resolve g v' (cs ++ [name]) = .ok (some it.entry) ∧
    ∀ a, (∀ c ∈ a, CanonicalComponent c) → a ≠ cs ++ [name] →
      fileTree g v' a = fileTree g v a := by
  have hcanon := hp.canonical hpath
  have hup : ∀ c ∈ cs ++ [name], c.map kToupper = c := fun c hc => (hcanon.components c hc).upper
  have hparent : ∀ c ∈ cs, c.map kToupper = c := fun c hc => hup c (by simp [hc])
  have hD := hs.dir_of_resolve hp.resolved hp.dir
  have hframe := h.frame hs hD (hup name (by simp))
  have hself : resolve g v' (cs ++ [name]) = .ok (some it.entry) := by
    simp only [resolve_snoc, hframe.resolve_parent hs hcanon hp, hp.dir, hp.valid,
      lookup_added_self (h.added hs hD) habsent h.named]
    rfl
  refine ⟨hself, fun a ha hne => ?_⟩
  by_cases hpre : (cs ++ [name]) <+: a
  · -- nothing lies below a new entry
    obtain ⟨c, rest, rfl⟩ := exists_below hpre hne
    have hnone : fileTree g v' (cs ++ [name] ++ [c]) = none := by
      by_cases hdir : it.entry.isDirectory = true
      · have hd : isDir (some it.entry) = true := hdir
        have hr : resolve g v' (cs ++ [name] ++ [c])
            = .error (if validateLongName c = false then .invalidName else .notFound) := by
          simp only [resolve_snoc (a := cs ++ [name]), hself, hd, dirCluster, lookup, hbelow hdir,
            List.find?_nil, Bool.true_eq_false, if_false]
          split <;> rfl
        exact fileTree_error hr
      · exact fileTree_error (resolve_below_file hself (Bool.eq_false_iff.mpr hdir))
    have hrest := fileTree_rooted.absent_below (r := rest) hnone
    rw [List.append_assoc (cs ++ [name]), List.singleton_append] at hrest
    rw [hrest, fileTree_error (resolve_below_error (hp.resolve_absent habsent))]
  · have haup : ∀ c ∈ a, c.map kToupper = c := fun c hc => (ha c hc).upper
    have havoids := hs.avoids hp.resolved hp.dir hparent haup hpre
    refine fileTree_congr ha ha (hframe.resolve_eq hs haup havoids)
      (hframe.contents_eq hs ⟨rfl, ha⟩ havoids ?_)
    intro b m r' it' _ hrb hdb hfound' hfile c hc hX
    exact hs.file_apart (hs.dir_of_resolve hrb hdb) (lookup_mem hfound').1 hfile hD hc hX

theorem FileCreated.tree_step
    (h : FileCreated (Tidy SlotTidy) g v v' D own own' (dirCluster g r) name it data)
    (hs : Sound (Tidy SlotTidy) g v D own) (hp : ParentOf g v path cs r parentDir name parentPath)
    (hpath : CanonicalPath path)
    (habsent : lookup (dirEntries g v (dirCluster g r)) name = none) :
    FileTree.Step Writes (fileTree g v) (.write (cs ++ [name]) (data, append)) (fileTree g v') := by
  have hcs := (hp.canonical hpath).components
  obtain ⟨hself, hother⟩ := h.toCreated.tree hs hp hpath habsent
    fun hdir => by rw [h.file] at hdir; cases hdir
  have hD := hs.dir_of_resolve hp.resolved hp.dir
  have hchain := h.sound.chain_eq hD h.toCreated.live
  have hbytes : fileContent g v' it.entry = .ok data := by
    rw [fileContent, ← hchain, if_pos h.content.1, h.content.2]
  rw [fileTree_eq_put hcs (fileTree_file hcs hself h.file) hother, hbytes]
  exact .create (hp.tree_parent hpath) (fileTree_error (hp.resolve_absent habsent)) .create

theorem DirCreated.tree_step {parent : Nat}
    (h : DirCreated (Tidy SlotTidy) g v v' D own own' (dirCluster g r) parent name it)
    (hs : Sound (Tidy SlotTidy) g v D own) (hp : ParentOf g v path cs r parentDir name parentPath)
    (hpath : CanonicalPath path)
    (habsent : lookup (dirEntries g v (dirCluster g r)) name = none) :
    FileTree.Step Writes (fileTree g v) (.makeDir (cs ++ [name])) (fileTree g v') := by
  have hcs := (hp.canonical hpath).components
  obtain ⟨hself, hother⟩ := h.toCreated.tree hs hp hpath habsent
    fun _ => by rw [h.entries, itemsOf_newDirEntries]
  rw [fileTree_eq_put hcs (fileTree_dir hcs hself h.dir) hother]
  exact .makeDir (hp.tree_parent hpath) (fileTree_error (hp.resolve_absent habsent))

/-- A file that is written changes its own content and no other. -/
theorem FileReplaced.tree_other
    (h : FileReplaced (Tidy SlotTidy) g v v' D own (dirCluster g r) it append data new e')
    (hs : Sound (Tidy SlotTidy) g v D own) (hp : ParentOf g v path cs r parentDir name parentPath)
    (hpath : CanonicalPath path)
    (hfound : lookup (dirEntries g v (dirCluster g r)) name = some it)
    (ha : ∀ c ∈ a, CanonicalComponent c) (hne : a ≠ cs ++ [name]) :
    fileTree g v' a = fileTree g v a := by
  have hcanon := hp.canonical hpath
  have hup : ∀ c ∈ cs ++ [name], c.map kToupper = c := fun c hc => (hcanon.components c hc).upper
  have hparent : ∀ c ∈ cs, c.map kToupper = c := fun c hc => hup c (by simp [hc])
  have haup : ∀ c ∈ a, c.map kToupper = c := fun c hc => (ha c hc).upper
  have hD := hs.dir_of_resolve hp.resolved hp.dir
  obtain ⟨hit, hnamed⟩ := lookup_mem hfound
  have hframe := h.frame hs hD hnamed (hup name (by simp))
  by_cases hpre : (cs ++ [name]) <+: a
  · obtain ⟨c, rest, rfl⟩ := exists_below hpre hne
    have hself' : resolve g v' (cs ++ [name]) = .ok (some e') := by
      simp only [resolve_snoc, hframe.resolve_parent hs hcanon hp, hp.dir, hp.valid,
        lookup_replaced_self (h.replaced hs hD) rfl hfound]
      rfl
    rw [fileTree_error (resolve_below_file (hp.resolve_found hfound) h.file),
      fileTree_error (resolve_below_file hself' ((isDirectory_of_sameName h.same).trans h.file))]
  · have havoids := hs.avoids hp.resolved hp.dir hparent haup hpre
    refine fileTree_congr ha ha (hframe.resolve_eq hs haup havoids)
      (hframe.contents_eq hs ⟨rfl, ha⟩ havoids ?_)
    intro b m r' it' hab hrb hdb hfound' hfile c hc hX
    have hx := hs.dir_of_resolve hrb hdb
    obtain ⟨hit', hn'⟩ := lookup_mem hfound'
    rcases hX with hmem | hmem
    · -- the file that is written has another path
      refine hs.entries_apart ?_ hc hmem
      rintro ⟨hdd, hidx⟩
      have hb := hs.resolve_unique (fun c hc => haup c (by simp [hab, hc])) hparent hrb hp.resolved
        hdb hp.dir hdd
      rw [hdd] at hit'
      obtain rfl := item_eq_of_index hit' hit hidx
      have hm := eq_of_nameEquals hn' hnamed (haup m (by simp [hab])) (hup name (by simp))
      exact hne (by rw [hab, hb, hm])
    · exact hs.file_apart hx hit' hfile hD hc hmem

theorem FileReplaced.tree_step
    (h : FileReplaced (Tidy SlotTidy) g v v' D own (dirCluster g r) it append data new e')
    (hs : Sound (Tidy SlotTidy) g v D own) (hp : ParentOf g v path cs r parentDir name parentPath)
    (hpath : CanonicalPath path)
    (hfound : lookup (dirEntries g v (dirCluster g r)) name = some it) :
    FileTree.Step Writes (fileTree g v) (.write (cs ++ [name]) (data, append)) (fileTree g v') := by
  have hcanon := hp.canonical hpath
  have hcs := hcanon.components
  have hD := hs.dir_of_resolve hp.resolved hp.dir
  obtain ⟨hit, hnamed⟩ := lookup_mem hfound
  have hframe := h.frame hs hD hnamed (hcs name (by simp)).upper
  have hfile' : e'.isDirectory = false := (isDirectory_of_sameName h.same).trans h.file
  have hself' : resolve g v' (cs ++ [name]) = .ok (some e') := by
    simp only [resolve_snoc, hframe.resolve_parent hs hcanon hp, hp.dir, hp.valid,
      lookup_replaced_self (h.replaced hs hD) rfl hfound]
    rfl
  have hmem : { it with entry := e' } ∈ itemsOf (dirEntries g v' (dirCluster g r)) := by
    obtain ⟨x, y, -, hxy⟩ := h.replaced hs hD
    rw [hxy]
    simp
  have hchain := h.sound.chain_eq hD (liveEntries_item hmem)
  rw [Function.update_self] at hchain
  have hold := hs.chain_eq hD (liveEntries_item hit)
  rw [fileTree_eq_put hcs (fileTree_file hcs hself' hfile')
    fun a ha hne => h.tree_other hs hp hpath hfound ha hne]
  refine .replace (fileTree_file hcs (hp.resolve_found hfound) h.file) ?_
  cases append with
  | false =>
    obtain ⟨hsize, hcontent⟩ := h.content fun h => by cases h
    have hbytes : fileContent g v' e' = .ok data := by
      rw [fileContent, ← hchain, if_pos hsize, hcontent]
      rfl
    rw [hbytes]
    exact .overwrite
  | true =>
    by_cases hfits : it.entry.size ≤ (own (.slot (dirCluster g r) it.index)).length * g.clusterSize
    · obtain ⟨hsize, hcontent⟩ := h.content fun _ => hfits
      rw [fileContent, ← hold, if_pos hfits, fileContent, ← hchain, if_pos hsize, hcontent]
      exact .append
    · rw [fileContent, ← hold, if_neg hfits]
      exact .unreadable

theorem Removed.tree_step (h : Removed (Tidy SlotTidy) g v v' D own (dirCluster g r) it)
    (hs : Sound (Tidy SlotTidy) g v D own) (hp : ParentOf g v path cs r parentDir name parentPath)
    (hpath : CanonicalPath path)
    (hfound : lookup (dirEntries g v (dirCluster g r)) name = some it)
    (huniq : UniqueNames (dirEntries g v (dirCluster g r))) :
    FileTree.Step Writes (fileTree g v) (.remove (cs ++ [name])) (fileTree g v') := by
  have hcanon := hp.canonical hpath
  have hup : ∀ c ∈ cs ++ [name], c.map kToupper = c := fun c hc => (hcanon.components c hc).upper
  have hparent : ∀ c ∈ cs, c.map kToupper = c := fun c hc => hup c (by simp [hc])
  have hself := hp.resolve_found hfound
  have hnamed := (lookup_mem hfound).2
  have hresolve : ∀ b : List CStr, (∀ c ∈ b, c.map kToupper = c) → ¬ (cs ++ [name]) <+: b →
      resolve g v' b = resolve g v b := fun b hb hnot =>
    h.resolve_eq hs hself hp.resolved hp.dir hnamed hup hb hnot
  have hgone : resolve g v' (cs ++ [name]) = .error .notFound := by
    have hcs := hresolve cs hparent fun hpre => by simpa using hpre.length_le
    simp only [resolve_snoc, hcs, hp.resolved, hp.dir, hp.valid,
      lookup_removed_self (h.removed hs) huniq hnamed]
    rfl
  have hbelow : ∀ c rest, fileTree g v (cs ++ [name] ++ c :: rest) = none := by
    intro c rest
    rcases hr : resolve g v (cs ++ [name] ++ c :: rest) with code | x
    · exact fileTree_error hr
    · exact absurd hr (h.below hself x)
  rw [fileTree_eq_put hcanon.components (fileTree_error hgone) fun a ha hne => ?_]
  · refine .remove ?_ fun m => hbelow m []
    by_cases hdir : it.entry.isDirectory = true
    · rw [fileTree_dir hcanon.components hself hdir]
      simp
    · rw [fileTree_file hcanon.components hself (Bool.eq_false_iff.mpr hdir)]
      simp
  · by_cases hpre : (cs ++ [name]) <+: a
    · obtain ⟨c, rest, rfl⟩ := exists_below hpre hne
      rw [hbelow, fileTree_error (resolve_below_error hgone)]
    · exact fileTree_congr ha ha (hresolve a (fun c hc => (ha c hc).upper) hpre)
        (h.contents_eq hs hself hp.resolved hp.dir hnamed hup ⟨rfl, ha⟩ hpre)

theorem Renamed.tree_step (h : Renamed (Tidy SlotTidy) g v vm v' D own own' oldPath newPath cs cs'
    r r' name name' parentPath' it it') (hs : Sound (Tidy SlotTidy) g v D own)
    (hold : CanonicalPath oldPath) (hnew : CanonicalPath newPath) (huniq : UniqueNames (dirEntries g v (dirCluster g r))) :
    FileTree.Step Writes (fileTree g v) (.rename (cs ++ [name]) (cs' ++ [name']))
      (fileTree g v') := by
  obtain ⟨parentDir, parentPath, hp⟩ := h.old
  obtain ⟨parentDir', hp'⟩ := h.new
  have hcanon := hp.canonical hold
  have hcanon' := hp'.canonical hnew
  have hpaths := h.paths hs hcanon hcanon' huniq
  have hmid : ∀ a, (∀ c ∈ a, CanonicalComponent c) → fileTree g v' a = fileTree g vm a :=
    fun a ha => fileTree_congr ha ha h.resolve_eq (h.contents_eq hs)
  have hmove : fileTree g v' = (fileTree g v).move (cs ++ [name]) (cs' ++ [name']) := by
    refine fileTree_ext (fun a ha => ?_) fun a ha => ?_
    · -- other paths are canonical neither before nor after
      rw [FileTree.move]
      split
      · next hpre =>
        obtain ⟨q, rfl⟩ := hpre
        rw [List.drop_left, fileTree, if_neg]
        intro hq
        refine ha fun c hc => ?_
        rcases List.mem_append.mp hc with hc | hc
        · exact hcanon'.components c hc
        · exact hq c (List.mem_append_right _ hc)
      · split
        · rfl
        · rw [fileTree, if_neg ha]
    · rw [hmid a ha]
      by_cases hpre' : (cs' ++ [name']) <+: a
      · obtain ⟨q, rfl⟩ := hpre'
        have hq : ∀ c ∈ q, CanonicalComponent c := fun c hc => ha c (List.mem_append_right _ hc)
        have ha' : ∀ c ∈ cs ++ [name] ++ q, CanonicalComponent c := fun c hc =>
          (List.mem_append.mp hc).elim (hcanon.components c) (hq c)
        rw [FileTree.move_new]
        unfold fileTree
        rw [if_pos ha, if_pos ha', hpaths.contents_below hq]
        rcases hpaths.below hq with ⟨code, hr, hr'⟩ | ⟨r₁, r₂, hr, hr', hdir, -⟩
        · rw [hr, hr']
        · rw [hr, hr']
          simp only [hdir]
      · by_cases hpre : (cs ++ [name]) <+: a
        · rw [FileTree.move, if_neg hpre', if_pos hpre]
          by_cases heq : a = cs ++ [name]
          · rw [heq, fileTree_error hpaths.gone]
          · obtain ⟨c, rest, rfl⟩ := exists_below hpre heq
            rw [fileTree_error (resolve_below_error hpaths.gone)]
        · rw [FileTree.move_other hpre hpre']
          have haup : ∀ c ∈ a, c.map kToupper = c := fun c hc => (ha c hc).upper
          exact fileTree_congr ha ha
            (hpaths.frame.resolve_eq hs haup (hpaths.avoids haup hpre hpre'))
            (hpaths.others ⟨rfl, ha⟩ hpre hpre').2.1
  rw [hmove]
  refine .rename ?_ (hp'.tree_parent hnew)
    (fileTree_error (hp'.resolve_absent h.absent)) hpaths.outside
  by_cases hdir : it.entry.isDirectory = true
  · rw [fileTree_dir hcanon.components hpaths.self hdir]
    simp
  · rw [fileTree_file hcanon.components hpaths.self (Bool.eq_false_iff.mpr hdir)]
    simp

/-- What nobody notices changes nothing in the tree. -/
theorem Untouched.tree_eq (hs : Sound (Tidy SlotTidy) g v D own)
    (h : Untouched (Tidy SlotTidy) g v v' D own own') : fileTree g v' = fileTree g v := by
  funext a
  by_cases ha : ∀ c ∈ a, CanonicalComponent c
  · refine fileTree_congr ha ha (h.resolve_eq hs) ?_
    rw [contents, contents, joinPath_components ha, h.resolve_eq hs]
    rcases hr : resolve g v a with code | _ | e
    · rfl
    · rfl
    · by_cases hd : e.isDirectory = true
      · simp only [hd, if_true]
      · simp only [hd, if_false, Bool.false_eq_true]
        exact h.fileContent_eq hs hr (Bool.eq_false_iff.mpr hd)
  · rw [fileTree, fileTree, if_neg ha, if_neg ha]

end

/-! ## Runs -/

section

variable {env : Env} {s s' : State} {op : Operation} {D : Nat → Prop} {own : Owner → List Nat}
  {calls : List (Operation × Bool)} {e : Fat32Result}

theorem UniquelyNamed.unique {g : Geometry} {v : Volume} {d : Nat} (h : UniquelyNamed g v D)
    (hd : D d) : UniqueNames (dirEntries g v d) := (h d hd).imp Item.Apart.names

/-- A call that succeeds is a step of the tree. -/
theorem Kept.tree_of_ok (hfuel : env.geometry.totalClusters < env.fuel) (hrel : ¬ env.Faulty)
    (hk : Kept (Tidy SlotTidy) env.geometry (s.volume env.geometry) D own)
    (hnames : UniquelyNamed env.geometry (s.volume env.geometry) D) (hadm : op.Admissible)
    (hcall : op.call env s = .ok () s') :
    FileTree.Step Writes (fileTree env.geometry (s.volume env.geometry)) op.request
      (fileTree env.geometry (s'.volume env.geometry)) := by
  have hs := hk.sound
  cases op with
  | writeFile path data append =>
    obtain ⟨cs, r, parentDir, name, parentPath, hp, hw⟩ :=
      (fat32WriteFile_sat hfuel hrel rfl hs hadm.2).of_ok hcall
    rw [Operation.request, hp.split]
    cases hw with
    | replaced it new e' hfound hfile => exact hfile.tree_step hs hp hadm.1 hfound
    | created own' it habsent hfile => exact hfile.tree_step hs hp hadm.1 habsent
  | makeDir path =>
    obtain ⟨cs, r, parentDir, name, parentPath, own', it, hp, habsent, hdir⟩ :=
      (fat32MakeDir_sat hfuel hrel rfl hs).of_ok hcall
    rw [Operation.request, hp.split]
    exact hdir.tree_step hs hp hadm habsent
  | remove path =>
    obtain ⟨cs, r, parentDir, name, parentPath, it, hp, hfound, hrem⟩ :=
      (fat32Remove_sat hfuel hrel rfl hs).of_ok hcall
    rw [Operation.request, hp.split]
    exact hrem.tree_step hs hp hadm hfound (hnames.unique (hs.dir_of_resolve hp.resolved hp.dir))
  | rename oldPath newPath =>
    rcases (fat32Rename_sat_of_safe hfuel hrel rfl hs (hk.renameSafe oldPath)).of_ok hcall with
      ⟨rfl, hv⟩ | ⟨vm, own', cs, cs', r, r', name, name', parentPath', it, it', hr⟩
    · rw [hv]
      exact .renameSame
    · obtain ⟨parentDir, parentPath, hp⟩ := hr.old
      obtain ⟨parentDir', hp'⟩ := hr.new
      rw [Operation.request, hp.split, hp'.split]
      exact hr.tree_step hs hadm.1 hadm.2 (hnames.unique (hs.dir_of_resolve hp.resolved hp.dir))

/-- A call that fails leaves the tree. -/
theorem Kept.tree_of_error (hfuel : env.geometry.totalClusters < env.fuel) (hrel : ¬ env.Faulty)
    (hk : Kept (Tidy SlotTidy) env.geometry (s.volume env.geometry) D own) (hadm : op.Admissible)
    (hcall : op.call env s = .error e s') : fileTree env.geometry (s'.volume env.geometry)
      = fileTree env.geometry (s.volume env.geometry) := by
  have hs := hk.sound
  cases op with
  | writeFile path data append =>
    rcases (fat32WriteFile_sat hfuel hrel rfl hs hadm.2).of_error hcall with
      hv | ⟨cs, r, parentDir, name, parentPath, own', -, hf⟩
    · rw [hv]
    · exact hf.untouched.tree_eq hs
  | makeDir path =>
    rcases (fat32MakeDir_sat hfuel hrel rfl hs).of_error hcall with
      hv | ⟨cs, r, parentDir, name, parentPath, -, hf⟩
    · rw [hv]
    · exact hf.untouched.tree_eq hs
  | remove path => rw [(fat32Remove_sat hfuel hrel rfl hs).of_error hcall]
  | rename oldPath newPath =>
    rw [(fat32Rename_sat hfuel hrel rfl hs).of_error hcall]

theorem Answered.step {call : Operation × Bool} (h : Answered env s call s') :
    AdmissibleStep env s call.1 s' := by
  obtain ⟨hadm, hcall⟩ := h
  split at hcall
  · exact ⟨hadm, .inl hcall⟩
  · exact ⟨hadm, .inr hcall⟩

/-- The volume is kept, and its names differ. -/
def TreeKept (env : Env) (s : State) : Prop :=
  ∃ D own, Kept (Tidy SlotTidy) env.geometry (s.volume env.geometry) D own ∧
    UniquelyNamed env.geometry (s.volume env.geometry) D

theorem TreeKept.step (hfuel : env.geometry.totalClusters < env.fuel) (hrel : ¬ env.Faulty)
    (h : TreeKept env s) (hstep : AdmissibleStep env s op s') : TreeKept env s' := by
  obtain ⟨D, own, hk, hnames⟩ := h
  obtain ⟨D', own', heff, hk'⟩ := hk.step hfuel hrel hstep
  exact ⟨D', own', hk', heff.uniquelyNamed hk.sound hnames⟩

/-- What a run of calls has done to the tree. -/
theorem TreeKept.run (hfuel : env.geometry.totalClusters < env.fuel) (hrel : ¬ env.Faulty)
    (hrun : Runs (Answered env) s calls s') (h : TreeKept env s) : TreeKept env s' ∧
      Runs (FileTree.Step Writes) (fileTree env.geometry (s.volume env.geometry)) (granted calls)
        (fileTree env.geometry (s'.volume env.geometry)) := by
  induction hrun with
  | nil s => exact ⟨h, .nil _⟩
  | @cons s s₁ s' call calls first rest ih =>
    obtain ⟨hkept, hruns⟩ := ih (h.step hfuel hrel first.step)
    obtain ⟨D, own, hk, hnames⟩ := h
    refine ⟨hkept, ?_⟩
    obtain ⟨op, succeeds⟩ := call
    obtain ⟨hadm, hcall⟩ := first
    cases succeeds with
    | true => exact .cons (hk.tree_of_ok hfuel hrel hnames hadm hcall) hruns
    | false =>
      obtain ⟨e, hcall⟩ := hcall
      rw [hk.tree_of_error hfuel hrel hadm hcall] at hruns
      exact hruns

end

end FunnyOS.Fat32
