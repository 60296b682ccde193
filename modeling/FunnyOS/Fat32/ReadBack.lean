import FunnyOS.Fat32.Creation
import FunnyOS.Fat32.Tree

/-!
# Reading what was written

After a successful call of `fat32_write_file` the file holds the data, behind what it held before
where the data is appended. Other paths are answered as before; only below a file that the call
has created the code of the error is another one.
-/

namespace FunnyOS.Fat32

open Prog

/-- The callback that puts the chunks together. -/
def gather (bytes chunk : List UInt8) : List UInt8 × Bool := (bytes ++ chunk, true)

/-- What a write to the path leaves in front of the data. -/
inductive OldContent (env : Env) (s : State) (path : CStr) : Bool → List UInt8 → Prop
  | overwrite : OldContent env s path false []
  | append (old : List UInt8)
      (read : (fat32ReadFile env path gather [] s).result = some (.ok old)) :
      OldContent env s path true old
  | absent (stat : (fat32Stat env path s).result = some (.error .notFound)) :
      OldContent env s path true []

/-- `fat32_stat` and `fat32_read_file` answer for a path as they did before. -/
def SameFile (env : Env) (s s' : State) (path : CStr) : Prop :=
  (fat32Stat env path s').result = (fat32Stat env path s).result ∧
    ∀ {κ : Type} (callback : κ → List UInt8 → κ × Bool) (context : κ),
      (fat32ReadFile env path callback context s').result
        = (fat32ReadFile env path callback context s).result

/-- `fat32_stat` and `fat32_read_file` answer for a path with an error. -/
def FileError (env : Env) (s : State) (path : CStr) (code : Fat32Result) : Prop :=
  (fat32Stat env path s).result = some (.error code) ∧
    ∀ {κ : Type} (callback : κ → List UInt8 → κ × Bool) (context : κ),
      (fat32ReadFile env path callback context s).result = some (.error code)

theorem feed_gather (bytes : List UInt8) (chunks : List (List UInt8)) :
    feed gather bytes chunks = some (bytes ++ chunks.flatten) := by
  induction chunks generalizing bytes with
  | nil => simp [feed]
  | cons chunk chunks ih => simp [feed, gather, ih]

section

variable {ok : List DirectoryEntry → Prop} [DirRules ok] {g : Geometry} {v v' : Volume}
  {D D' : Nat → Prop} {own own' : Owner → List Nat} {env : Env} {s s' : State}
  {path name n : CStr} {cs a b : List CStr} {it it' : Item} {es es' : List DirectoryEntry}
  {r : Option DirectoryEntry} {append : Bool} {data bytes : List UInt8} {e : DirectoryEntry}
  {code : Fat32Result} {changed : Nat → CStr → Prop} {X : Nat → Prop}

theorem readAnswer_gather (h : (fat32ReadFile env path gather [] s).result
    = some (readAnswer env.geometry gather [] (.ok bytes))) :
    (fat32ReadFile env path gather [] s).result = some (.ok bytes) := by
  rw [h, readAnswer, feed_gather, List.nil_append, pieces_flatten]

omit [DirRules ok] in
/-- An entry that is replaced by one of the same name is found where the old one was. -/
theorem lookup_replaced_self (h : ItemReplaced es es' it it') (hname : it'.name = it.name)
    (hfound : lookup es n = some it) : lookup es' n = some it' := by
  obtain ⟨a, b, hab, hab'⟩ := h
  have hn : nameEqualsIgnoreCase it.name n = true := (lookup_mem hfound).2
  have hpair : ((itemsOf es).map Item.index).Nodup :=
    List.pairwise_map.mpr (dirItems_pairwise.imp fun h => Nat.ne_of_lt h)
  rw [hab, List.map_append, List.map_cons, List.nodup_append] at hpair
  have ha : a.find? (fun x => nameEqualsIgnoreCase x.name n) = none := by
    rw [lookup, hab, List.find?_append, List.find?_cons, hn] at hfound
    rcases hx : a.find? (fun x => nameEqualsIgnoreCase x.name n) with _ | x
    · exact hx
    · rw [hx] at hfound
      obtain rfl := Option.some.inj hfound
      exact absurd rfl (hpair.2.2 _ (List.mem_map_of_mem (List.mem_of_find?_eq_some hx)) _
        List.mem_cons_self)
  have hn' : nameEqualsIgnoreCase it'.name n = true := by rw [hname]; exact hn
  rw [lookup, hab', List.find?_append, ha, Option.none_or, List.find?_cons, hn']

/-- What the operations answer for a file. -/
theorem file_answers (hfuel : env.geometry.totalClusters < env.fuel) (hrel : ¬ env.Faulty)
    (hs : Sound ok env.geometry (s.volume env.geometry) D own)
    (hpath : Canonical path (cs ++ [name])) (hvalid : validateLongName name = true)
    (hr : resolve env.geometry (s.volume env.geometry) (cs ++ [name]) = .ok (some e))
    (hfile : e.isDirectory = false)
    (hcontent : fileContent env.geometry (s.volume env.geometry) e = .ok bytes) :
    (fat32ReadFile env path gather [] s).result = some (.ok bytes) ∧
      ∃ info, (fat32Stat env path s).result = some (.ok info) ∧ info.isDir = false ∧
        info.size = e.size := by
  constructor
  · apply readAnswer_gather
    rw [fat32ReadFile_result hfuel hrel hs, contents, hpath.splitComponents_eq, hr]
    simp only [hfile, Bool.false_eq_true, if_false, hcontent]
  · rw [fat32Stat_result hfuel hrel hs, statAt, hpath.splitComponents_eq, hr]
    have hshort : (lastComponentText path path).length < nameCapacity := by
      rw [hpath.lastComponentText_eq]
      exact (validateLongName_length hvalid).2
    simp only [if_neg (not_le.2 hshort)]
    exact ⟨_, rfl, hfile, rfl⟩

/-- A path that does not resolve is answered with the error by both operations. -/
theorem fileError_of_resolve (hfuel : env.geometry.totalClusters < env.fuel)
    (hrel : ¬ env.Faulty) (hs : Sound ok env.geometry (s.volume env.geometry) D own)
    (hpath : Canonical path cs)
    (hr : resolve env.geometry (s.volume env.geometry) cs = .error code) :
    FileError env s path code := by
  constructor
  · rw [fat32Stat_result hfuel hrel hs, statAt, hpath.splitComponents_eq, hr]
  · intro κ callback context
    rw [fat32ReadFile_result hfuel hrel hs, contents, hpath.splitComponents_eq, hr, readAnswer]

/-- Both operations answer as before where the path resolves as before to a file that keeps its
clusters. -/
theorem Frame.sameFile (hf : Frame env.geometry (s.volume env.geometry) (s'.volume env.geometry) D
    changed X) (hfuel : env.geometry.totalClusters < env.fuel) (hrel : ¬ env.Faulty)
    (hs : Sound ok env.geometry (s.volume env.geometry) D own)
    (hs' : Sound ok env.geometry (s'.volume env.geometry) D' own')
    (hpath : Canonical path cs) (hcs : Avoids env.geometry (s.volume env.geometry) changed cs)
    (hfile : ∀ a n r it, cs = a ++ [n] →
      resolve env.geometry (s.volume env.geometry) a = .ok r → isDir r = true →
      lookup (dirEntries env.geometry (s.volume env.geometry) (dirCluster env.geometry r)) n
        = some it → it.entry.isDirectory = false →
      ∀ c ∈ own (.slot (dirCluster env.geometry r) it.index), ¬ X c) :
    SameFile env s s' path := by
  constructor
  · rw [fat32Stat_result hfuel hrel hs', fat32Stat_result hfuel hrel hs,
      hf.statAt_eq hs hpath hcs]
  · intro κ callback context
    rw [fat32ReadFile_result hfuel hrel hs', fat32ReadFile_result hfuel hrel hs,
      hf.contents_eq hs hpath hcs hfile]

/-- Below a file nothing resolves. -/
theorem resolve_below_file {c : CStr} {rest : List CStr} (hr : resolve g v a = .ok (some e))
    (hfile : e.isDirectory = false) :
    resolve g v (a ++ c :: rest) = .error .notADirectory := by
  have happ := resolveFrom_append (g := g) (v := v) (a := a) (b := c :: rest) isDir_none (by simp)
  have hd : isDir (some e) = false := hfile
  rw [← resolve, ← resolve, hr] at happ
  simpa [hd] using happ

/-- Below a path that does not resolve nothing does. -/
theorem resolve_below_error {c : CStr} {rest : List CStr} (hr : resolve g v a = .error code) :
    resolve g v (a ++ c :: rest) = .error code := by
  have happ := resolveFrom_append (g := g) (v := v) (a := a) (b := c :: rest) isDir_none (by simp)
  rw [← resolve, ← resolve, hr] at happ
  exact happ

end

/-! ## The operation -/

section

variable {g : Geometry} {v : Volume} {env : Env} {s s' : State} {path name : CStr} {cs : List CStr}
  {append : Bool} {data : List UInt8} {e : DirectoryEntry} {r : Option DirectoryEntry} {it : Item}

/-- The old content of a file that exists. -/
theorem OldContent.of_file (hfuel : env.geometry.totalClusters < env.fuel) (hrel : ¬ env.Faulty)
    (hwf : WellFormed env.geometry (s.volume env.geometry))
    (hpath : Canonical path cs)
    (hr : resolve env.geometry (s.volume env.geometry) cs = .ok (some e))
    (hfile : e.isDirectory = false) {old : List UInt8} (h : OldContent env s path append old) :
    old = [] ∧ append = false ∨ append = true ∧
      fileContent env.geometry (s.volume env.geometry) e = .ok old := by
  cases h with
  | overwrite => exact .inl ⟨rfl, rfl⟩
  | append old hread =>
    right
    refine ⟨rfl, ?_⟩
    rw [fat32ReadFile_result hfuel hrel hwf.sound, contents, hpath.splitComponents_eq, hr] at hread
    simp only [hfile, Bool.false_eq_true, if_false] at hread
    rcases hc : fileContent env.geometry (s.volume env.geometry) e with code | bytes
    · rw [hc] at hread
      cases hread
    · rw [hc, readAnswer, feed_gather, List.nil_append, pieces_flatten] at hread
      cases hread
      rfl
  | absent hstat =>
    rw [fat32Stat_canonical hfuel hrel hwf hpath, hr] at hstat
    cases hstat

/-- The file at the path holds the data behind its old content. Every other canonical path is
answered as before, but below a file that did not exist the code is `FAT32_NOT_A_DIRECTORY`. -/
structure ReadsBack (env : Env) (s s' : State) (path : CStr) (cs : List CStr) (append : Bool)
    (data : List UInt8) : Prop where
  content : ∀ old, OldContent env s path append old →
    (fat32ReadFile env path gather [] s').result = some (.ok (old ++ data)) ∧
    ∃ info, (fat32Stat env path s').result = some (.ok info) ∧ info.isDir = false ∧
      info.size = (old ++ data).length
  others : ∀ other cs', Canonical other cs' → cs' ≠ cs → SameFile env s s' other ∨
    cs <+: cs' ∧ FileError env s path .notFound ∧ FileError env s other .notFound ∧
      FileError env s' other .notADirectory

/-- The parent directory of a file is found where it was. -/
theorem Frame.resolve_parent {v' : Volume} {D : Nat → Prop} {own : Owner → List Nat}
    {X : Nat → Prop} {parentDir : DirectoryRef} {parentPath : CStr}
    (hf : Frame g v v' D (fun x n => x = dirCluster g r ∧ n = name) X)
    (hs : Sound (Tidy SlotTidy) g v D own) (hpath : Canonical path (cs ++ [name]))
    (hp : ParentOf g v path cs r parentDir name parentPath) : resolve g v' cs = .ok r := by
  have hup : ∀ c ∈ cs, c.map kToupper = c := fun c hc => (hpath.components c (by simp [hc])).upper
  rw [← hp.resolved]
  apply hf.resolve_eq hs hup
  apply hs.avoids hp.resolved hp.dir hup hup
  exact fun hpre => by simpa using hpre.length_le

/-- A path below another one leads on by at least one component. -/
theorem exists_below {cs' : List CStr} (h : cs <+: cs') (hne : cs' ≠ cs) :
    ∃ c rest, cs' = cs ++ c :: rest := by
  obtain ⟨rest, rfl⟩ := h
  obtain ⟨c, rest', rfl⟩ := List.exists_cons_of_ne_nil
    (fun hnil => hne (by rw [hnil, List.append_nil]) : rest ≠ [])
  exact ⟨c, rest', rfl⟩

/-- A file that existed is read back. -/
theorem readsBack_of_replaced {parentDir : DirectoryRef} {parentPath : CStr} {new : List Nat}
    {e' : DirectoryEntry} (hfuel : env.geometry.totalClusters < env.fuel) (hrel : ¬ env.Faulty)
    (hwf : WellFormed env.geometry (s.volume env.geometry))
    (hpath : Canonical path (cs ++ [name]))
    (hp : ParentOf env.geometry (s.volume env.geometry) path cs r parentDir name parentPath)
    (hfound : lookup (dirEntries env.geometry (s.volume env.geometry) (dirCluster env.geometry r))
      name = some it)
    (h : FileReplaced (Tidy SlotTidy) env.geometry (s.volume env.geometry) (s'.volume env.geometry)
      (Reachable env.geometry (s.volume env.geometry))
      (owners env.geometry (s.volume env.geometry)) (dirCluster env.geometry r) it append data new
      e') : ReadsBack env s s' path (cs ++ [name]) append data := by
  have hs := hwf.sound
  have hup : ∀ c ∈ cs ++ [name], c.map kToupper = c := fun c hc => (hpath.components c hc).upper
  have hparent : ∀ c ∈ cs, c.map kToupper = c := fun c hc => hup c (by simp [hc])
  have hname : name.map kToupper = name := hup name (by simp)
  have hD := hs.dir_of_resolve hp.resolved hp.dir
  obtain ⟨hit, hnamed⟩ := lookup_mem hfound
  have hframe := h.frame hs hD hnamed hname
  have hself : resolve env.geometry (s.volume env.geometry) (cs ++ [name])
      = .ok (some it.entry) := by
    simp only [resolve_snoc, hp.resolved, hp.dir, hp.valid, hfound]
    rfl
  have hself' : resolve env.geometry (s'.volume env.geometry) (cs ++ [name]) = .ok (some e') := by
    simp only [resolve_snoc, hframe.resolve_parent hs hpath hp, hp.dir, hp.valid,
      lookup_replaced_self (h.replaced hs hD) rfl hfound]
    rfl
  have hfile' : e'.isDirectory = false := (isDirectory_of_sameName h.same).trans h.file
  constructor
  · intro old hold
    have hcontent : e'.size ≤ new.length * env.geometry.clusterSize ∧
        chainContent env.geometry (s'.volume env.geometry) new e'.size = old ++ data := by
      rcases hold.of_file hfuel hrel hwf hpath hself h.file with ⟨rfl, rfl⟩ | ⟨rfl, hbytes⟩
      · exact h.content (fun h => by cases h)
      · rw [fileContent, ← hs.chain_eq hD (liveEntries_item hit)] at hbytes
        split at hbytes
        · next hsize =>
            cases hbytes
            exact h.content fun _ => hsize
        · cases hbytes
    have hmem : { it with entry := e' } ∈ itemsOf (dirEntries env.geometry
        (s'.volume env.geometry) (dirCluster env.geometry r)) := by
      obtain ⟨a, b, -, hab'⟩ := h.replaced hs hD
      rw [hab']
      simp
    have hchain := h.sound.chain_eq hD (liveEntries_item hmem)
    rw [Function.update_self] at hchain
    have hbytes : fileContent env.geometry (s'.volume env.geometry) e' = .ok (old ++ data) := by
      rw [fileContent, ← hchain, if_pos hcontent.1, hcontent.2]
    obtain ⟨hread, info, hstat, hkind, hsize⟩ :=
      file_answers hfuel hrel h.sound hpath hp.valid hself' hfile' hbytes
    refine ⟨hread, info, hstat, hkind, ?_⟩
    rw [hsize, ← hcontent.2, chainContent_length]
  · intro other cs' hother hne
    left
    have hup' : ∀ c ∈ cs', c.map kToupper = c := fun c hc => (hother.components c hc).upper
    by_cases hpre : (cs ++ [name]) <+: cs'
    · obtain ⟨c, rest, rfl⟩ := exists_below hpre hne
      have hbefore := fileError_of_resolve hfuel hrel hs hother (resolve_below_file hself h.file)
      have hafter := fileError_of_resolve hfuel hrel h.sound hother
        (resolve_below_file hself' hfile')
      exact ⟨hafter.1.trans hbefore.1.symm,
        fun callback context => (hafter.2 callback context).trans (hbefore.2 callback context).symm⟩
    · refine hframe.sameFile hfuel hrel hs h.sound hother
        (hs.avoids hp.resolved hp.dir hparent hup' hpre) ?_
      intro a m r' it' hcs' hra hda hfound' hfile'' c hc hX
      have hx := hs.dir_of_resolve hra hda
      obtain ⟨hit', hn'⟩ := lookup_mem hfound'
      rcases hX with hmem | hmem
      · -- the file that is written has another path
        refine hs.entries_apart ?_ hc hmem
        rintro ⟨hdd, hidx⟩
        have hpre' := hs.resolve_unique (fun c hc => hup' c (by simp [hcs', hc])) hparent hra
          hp.resolved hda hp.dir hdd
        rw [hdd] at hit'
        obtain rfl := item_eq_of_index hit' hit hidx
        have hm := eq_of_nameEquals hn' hnamed (hup' m (by simp [hcs'])) hname
        exact hne (by rw [hcs', hpre', hm])
      · exact hs.file_apart hx hit' hfile'' hD hc hmem

/-- A file that is new is read back. -/
theorem readsBack_of_created {parentDir : DirectoryRef} {parentPath : CStr}
    {own' : Owner → List Nat} (hfuel : env.geometry.totalClusters < env.fuel)
    (hrel : ¬ env.Faulty) (hwf : WellFormed env.geometry (s.volume env.geometry))
    (hpath : Canonical path (cs ++ [name]))
    (hp : ParentOf env.geometry (s.volume env.geometry) path cs r parentDir name parentPath)
    (habsent : lookup (dirEntries env.geometry (s.volume env.geometry) (dirCluster env.geometry r))
      name = none)
    (h : FileCreated (Tidy SlotTidy) env.geometry (s.volume env.geometry) (s'.volume env.geometry)
      (Reachable env.geometry (s.volume env.geometry))
      (owners env.geometry (s.volume env.geometry)) own' (dirCluster env.geometry r) name it data) :
    ReadsBack env s s' path (cs ++ [name]) append data := by
  have hs := hwf.sound
  have hup : ∀ c ∈ cs ++ [name], c.map kToupper = c := fun c hc => (hpath.components c hc).upper
  have hparent : ∀ c ∈ cs, c.map kToupper = c := fun c hc => hup c (by simp [hc])
  have hD := hs.dir_of_resolve hp.resolved hp.dir
  have hframe := h.toCreated.frame hs hD (hup name (by simp))
  have hself : resolve env.geometry (s.volume env.geometry) (cs ++ [name]) = .error .notFound := by
    simp only [resolve_snoc, hp.resolved, hp.dir, hp.valid, habsent]
    rfl
  have hself' : resolve env.geometry (s'.volume env.geometry) (cs ++ [name])
      = .ok (some it.entry) := by
    simp only [resolve_snoc, hframe.resolve_parent hs hpath hp, hp.dir, hp.valid,
      lookup_added_self (h.added hs hD) habsent h.named]
    rfl
  have hbefore := fileError_of_resolve hfuel hrel hs hpath hself
  constructor
  · intro old hold
    have hnil : old = [] := by
      cases hold with
      | overwrite => rfl
      | append old hread =>
        rw [hbefore.2] at hread
        cases hread
      | absent _ => rfl
    have hchain := h.sound.chain_eq hD h.toCreated.live
    have hbytes : fileContent env.geometry (s'.volume env.geometry) it.entry = .ok data := by
      rw [fileContent, ← hchain, if_pos h.content.1, h.content.2]
    obtain ⟨hread, info, hstat, hkind, hsize⟩ :=
      file_answers hfuel hrel h.sound hpath hp.valid hself' h.file hbytes
    rw [hnil, List.nil_append]
    exact ⟨hread, info, hstat, hkind, hsize.trans h.size⟩
  · intro other cs' hother hne
    have hup' : ∀ c ∈ cs', c.map kToupper = c := fun c hc => (hother.components c hc).upper
    by_cases hpre : (cs ++ [name]) <+: cs'
    · right
      refine ⟨hpre, hbefore, ?_⟩
      obtain ⟨c, rest, rfl⟩ := exists_below hpre hne
      exact ⟨fileError_of_resolve hfuel hrel hs hother (resolve_below_error hself),
        fileError_of_resolve hfuel hrel h.sound hother (resolve_below_file hself' h.file)⟩
    · left
      refine hframe.sameFile hfuel hrel hs h.sound hother
        (hs.avoids hp.resolved hp.dir hparent hup' hpre) ?_
      intro a m r' it' hcs' hra hda hfound' hfile'' c hc hX
      exact hs.file_apart (hs.dir_of_resolve hra hda) (lookup_mem hfound').1 hfile'' hD hc hX

/-- What a successful call of `fat32_write_file` on a canonical path has written is read back, and
nothing else has changed. -/
theorem readsBack_of_write (hfuel : env.geometry.totalClusters < env.fuel) (hrel : ¬ env.Faulty)
    (hwf : WellFormed env.geometry (s.volume env.geometry)) (hpath : Canonical path cs)
    (hdata : data.length ≤ 2 ^ 31) (hcall : fat32WriteFile env path data append s = .ok () s') :
    ReadsBack env s s' path cs append data := by
  obtain ⟨parent, r, parentDir, name, parentPath, hp, hw⟩ :=
    (fat32WriteFile_sat hfuel hrel rfl hwf.sound hdata).of_ok hcall
  obtain rfl : cs = parent ++ [name] := hpath.splitComponents_eq.symm.trans hp.split
  cases hw with
  | replaced it new e' hfound hfile =>
    exact readsBack_of_replaced hfuel hrel hwf hpath hp hfound hfile
  | created own' it habsent hfile =>
    exact readsBack_of_created hfuel hrel hwf hpath hp habsent hfile

theorem readsBack_of_write_new :
    ReadsBack smallEnv emptyState
      (afterCall (.writeFile [slash, 0x41] [1, 2, 3] true) emptyState) [slash, 0x41] [[0x41]] true
      [1, 2, 3] :=
  readsBack_of_write (by decide) smallEnv_reliable (sound_of_check emptyState_check.1).2
    (canonical_letter (by decide) (by decide) (by decide)) (by decide)
    (Prog.eq_ok_of_isOk (o := (Operation.writeFile [slash, 0x41] [1, 2, 3] true).call smallEnv
      emptyState) (by decide +kernel))

/-- Below a file that has been created `fat32_stat` answers with another code. -/
theorem write_changes_code :
    WellFormed smallGeometry (emptyState.volume smallGeometry) ∧
    Canonical [slash, 0x41] [[0x41]] ∧ Canonical [slash, 0x41, slash, 0x42] [[0x41], [0x42]] ∧
    fat32WriteFile smallEnv [slash, 0x41] [1, 2, 3] false emptyState
      = .ok () (afterCall (.writeFile [slash, 0x41] [1, 2, 3] false) emptyState) ∧
    (fat32Stat smallEnv [slash, 0x41, slash, 0x42] emptyState).result
      = some (.error .notFound) ∧
    (fat32Stat smallEnv [slash, 0x41, slash, 0x42]
      (afterCall (.writeFile [slash, 0x41] [1, 2, 3] false) emptyState)).result
      = some (.error .notADirectory) := by
  refine ⟨(sound_of_check emptyState_check.1).2,
    canonical_letter (by decide) (by decide) (by decide), ⟨rfl, by decide +kernel⟩,
    Prog.eq_ok_of_isOk (o := (Operation.writeFile [slash, 0x41] [1, 2, 3] false).call smallEnv
      emptyState) (by decide +kernel), ?_, ?_⟩
  · decide +kernel
  · decide +kernel

end

end FunnyOS.Fat32
