import FunnyOS.Fat32.TreeView
import FunnyOS.Fat32.WriteSizes

/-!
# Runs of the driver on the file tree

What the driver answers is determined by the tree that the volume stands for. So whatever calls come
in between, a file reads as it was last written, and calls that are taken back in the reverse order
leave everything as it was.
-/

namespace FunnyOS.Fat32

open Prog

/-! ## Answers from the tree -/

/-- The code for a path where there is nothing, on from the directory `a`: the first name that leads
nowhere decides. -/
def missingCode {β : Type} (t : FileTree CStr β) (a : List CStr) : List CStr → Fat32Result
  | [] => .notFound
  | c :: cs =>
    if validateLongName c = false then .invalidName
    else match t (a ++ [c]) with
      | none => .notFound
      | some .dir => missingCode t (a ++ [c]) cs
      | some (.file _) => .notADirectory

/-- The infos of the entries of the directory `cs`: no two of one name, and under each name what the
tree has there. -/
structure Children (t : FileTree CStr (Option (List UInt8))) (cs : List CStr)
    (infos : List Fat32NodeInfo) : Prop where
  different : infos.Pairwise fun a b => nameEqualsIgnoreCase a.name b.name = false
  absent : ∀ n, CanonicalComponent n → validateLongName n = true →
    (t (cs ++ [n]) = none ↔ ∀ info ∈ infos, nameEqualsIgnoreCase info.name n = false)
  present : ∀ n, CanonicalComponent n → validateLongName n = true → ∀ info ∈ infos,
    nameEqualsIgnoreCase info.name n = true → (info.isDir = true ↔ t (cs ++ [n]) = some .dir) ∧
      ∀ bytes, t (cs ++ [n]) = some (.file (some bytes)) → info.size = bytes.length

/-- All three reading operations answer with the code. -/
def Refused (env : Env) (s : State) (cs : List CStr) (code : Fat32Result) : Prop :=
  (fat32Stat env (joinPath cs) s).result = some (.error code) ∧
  (∀ {κ : Type} (callback : κ → List UInt8 → κ × Bool) (context : κ),
    (fat32ReadFile env (joinPath cs) callback context s).result = some (.error code)) ∧
  ∀ {κ : Type} (callback : κ → Fat32NodeInfo → κ × Bool) (context : κ),
    (fat32ListDir env (joinPath cs) callback context s).result = some (.error code)

/-- The three reading operations answer as the tree says. -/
def Tells (env : Env) (s : State) (t : FileTree CStr (Option (List UInt8))) (cs : List CStr) :
    Option (FileNode (Option (List UInt8))) → Prop
  | none => Refused env s cs (missingCode t [] cs)
  | some .dir =>
    (∃ info, (fat32Stat env (joinPath cs) s).result = some (.ok info) ∧ info.isDir = true) ∧
    (∀ {κ : Type} (callback : κ → List UInt8 → κ × Bool) (context : κ),
      (fat32ReadFile env (joinPath cs) callback context s).result
        = some (.error .isADirectory)) ∧
    ∃ infos, Children t cs infos ∧
      ∀ {κ : Type} (callback : κ → Fat32NodeInfo → κ × Bool) (context : κ),
        (fat32ListDir env (joinPath cs) callback context s).result
          = some (.ok (report callback context infos))
  | some (.file content) =>
    (∃ info, (fat32Stat env (joinPath cs) s).result = some (.ok info) ∧ info.isDir = false ∧
      ∀ bytes, content = some bytes → info.size = bytes.length) ∧
    (∀ {κ : Type} (callback : κ → List UInt8 → κ × Bool) (context : κ),
      (fat32ReadFile env (joinPath cs) callback context s).result
        = some (readAnswer env.geometry callback context
            (content.elim (.error .ioError) .ok))) ∧
    ∀ {κ : Type} (callback : κ → Fat32NodeInfo → κ × Bool) (context : κ),
      (fat32ListDir env (joinPath cs) callback context s).result = some (.error .notADirectory)

section

variable {g : Geometry} {v : Volume} {a b cs : List CStr} {r : Option DirectoryEntry}
  {e : DirectoryEntry} {code : Fat32Result} {env : Env} {s s' : State} {D : Nat → Prop}
  {own : Owner → List Nat}

theorem resolve_append_error (hr : resolve g v a = .error code) :
    resolve g v (a ++ b) = .error code := by
  cases b with
  | nil => rw [List.append_nil, hr]
  | cons c b => exact resolve_below_error hr

/-- The tree determines why a path does not resolve. -/
theorem resolve_missing (hcs : ∀ c ∈ a ++ cs, CanonicalComponent c) (hr : resolve g v a = .ok r)
    (hd : isDir r = true) (hnone : fileTree g v (a ++ cs) = none) :
    resolve g v (a ++ cs) = .error (missingCode (fileTree g v) a cs) := by
  induction cs generalizing a r with
  | nil =>
    rw [List.append_nil] at hcs hnone
    rw [fileTree_dir hcs hr hd] at hnone
    cases hnone
  | cons c cs ih =>
    have hac : ∀ x ∈ a ++ [c], CanonicalComponent x := fun x hx => hcs x <| by
      rcases List.mem_append.mp hx with hx | hx
      · exact List.mem_append_left _ hx
      · simp [List.mem_singleton.mp hx]
    rw [List.append_cons] at hcs hnone ⊢
    rw [missingCode]
    by_cases hvalid : validateLongName c = true
    · rw [if_neg (by simp [hvalid])]
      rcases hfound : lookup (dirEntries g v (dirCluster g r)) c with _ | it
      · have hself : resolve g v (a ++ [c]) = .error .notFound := by
          simp only [resolve_snoc, hr, hd, hvalid, hfound]
          rfl
        rw [fileTree_error hself]
        exact resolve_append_error hself
      · have hself : resolve g v (a ++ [c]) = .ok (some it.entry) := by
          simp only [resolve_snoc, hr, hd, hvalid, hfound]
          rfl
        by_cases hdir : it.entry.isDirectory = true
        · rw [fileTree_dir hac hself hdir]
          exact ih hcs hself hdir hnone
        · have hfile : it.entry.isDirectory = false := Bool.eq_false_iff.mpr hdir
          rw [fileTree_file hac hself hfile]
          cases cs with
          | nil =>
            rw [List.append_nil, fileTree_file hac hself hfile] at hnone
            cases hnone
          | cons x cs => exact resolve_below_file hself hfile
    · have hinvalid : validateLongName c = false := Bool.eq_false_iff.mpr hvalid
      rw [if_pos hinvalid]
      refine resolve_append_error ?_
      simp only [resolve_snoc, hr, hd, hinvalid]
      rfl

/-- What a directory lists is what the tree has in it. -/
theorem children_of_dir (hs : Sound (Tidy SlotTidy) g v D own) (hnames : UniquelyNamed g v D)
    (hcs : ∀ c ∈ cs, CanonicalComponent c) (hr : resolve g v cs = .ok r) (hd : isDir r = true) :
    Children (fileTree g v) cs ((itemsOf (dirEntries g v (dirCluster g r))).map Item.info) := by
  have hD := hs.dir_of_resolve hr hd
  have huniq : UniqueNames (dirEntries g v (dirCluster g r)) := hnames.unique hD
  have hcanon : ∀ {n}, CanonicalComponent n → ∀ c ∈ cs ++ [n], CanonicalComponent c := by
    intro n hn c hc
    rcases List.mem_append.mp hc with hc | hc
    · exact hcs c hc
    · exact List.mem_singleton.mp hc ▸ hn
  refine ⟨List.pairwise_map.mpr huniq, fun n hn hvalid => ?_, fun n hn hvalid info hinfo hname => ?_⟩
  · rcases hfound : lookup (dirEntries g v (dirCluster g r)) n with _ | it
    · have hself : resolve g v (cs ++ [n]) = .error .notFound := by
        simp only [resolve_snoc, hr, hd, hvalid, hfound]
        rfl
      refine ⟨fun _ info hinfo => ?_, fun _ => fileTree_error hself⟩
      obtain ⟨it, hit, rfl⟩ := List.mem_map.mp hinfo
      exact Bool.eq_false_iff.mpr (List.find?_eq_none.mp hfound it hit)
    · have hself : resolve g v (cs ++ [n]) = .ok (some it.entry) := by
        simp only [resolve_snoc, hr, hd, hvalid, hfound]
        rfl
      obtain ⟨hit, hnamed⟩ := lookup_mem hfound
      refine ⟨fun hnone => ?_, fun hall => ?_⟩
      · by_cases hdir : it.entry.isDirectory = true
        · rw [fileTree_dir (hcanon hn) hself hdir] at hnone
          cases hnone
        · rw [fileTree_file (hcanon hn) hself (Bool.eq_false_iff.mpr hdir)] at hnone
          cases hnone
      · have hne := hall it.info (List.mem_map_of_mem hit)
        change nameEqualsIgnoreCase it.name n = false at hne
        rw [hnamed] at hne
        cases hne
  · obtain ⟨it, hit, rfl⟩ := List.mem_map.mp hinfo
    have hself : resolve g v (cs ++ [n]) = .ok (some it.entry) := by
      simp only [resolve_snoc, hr, hd, hvalid, huniq.lookup_eq hit hname]
      rfl
    by_cases hdir : it.entry.isDirectory = true
    · rw [fileTree_dir (hcanon hn) hself hdir]
      exact ⟨⟨fun _ => rfl, fun _ => hdir⟩, fun bytes h => by cases h⟩
    · have hfile : it.entry.isDirectory = false := Bool.eq_false_iff.mpr hdir
      rw [fileTree_file (hcanon hn) hself hfile]
      refine ⟨⟨fun h => absurd h hdir, fun h => by cases h⟩, fun bytes h => ?_⟩
      rcases hcontent : fileContent g v it.entry with code | content
      · rw [hcontent] at h
        cases h
      · rw [hcontent] at h
        cases h
        rw [length_of_fileContent hcontent]
        rfl

/-- Every answer is the one of the tree. -/
theorem Kept.tells (hfuel : env.geometry.totalClusters < env.fuel) (hrel : ¬ env.Faulty)
    (hk : Kept (Tidy SlotTidy) env.geometry (s.volume env.geometry) D own)
    (hnames : UniquelyNamed env.geometry (s.volume env.geometry) D)
    (hcs : ∀ c ∈ cs, CanonicalComponent c) :
    Tells env s (fileTree env.geometry (s.volume env.geometry)) cs
      (fileTree env.geometry (s.volume env.geometry) cs) := by
  have hs := hk.sound
  have hsplit := joinPath_components hcs
  have hpath : Canonical (joinPath cs) cs := ⟨rfl, hcs⟩
  have hstat : (fat32Stat env (joinPath cs) s).result = _ := fat32Stat_result hfuel hrel hs
  rw [statAt, hsplit] at hstat
  rcases hr : resolve env.geometry (s.volume env.geometry) cs with code | r
  · have hnone := fileTree_error hr
    have hcode := resolve_missing (a := []) (by simpa using hcs) resolve_nil isDir_none
      (by simpa using hnone)
    rw [List.nil_append, hr] at hcode
    obtain rfl := Except.error.inj hcode
    rw [hnone]
    refine ⟨by rw [hstat, hr], fun callback context => ?_, fun callback context => ?_⟩
    · rw [fat32ReadFile_result hfuel hrel hs, contents, hsplit, hr, readAnswer]
    · rw [fat32ListDir_result hfuel hrel hs, listing, hsplit, hr, listAnswer]
  · -- the name at the end of a path fits into its buffer
    have hfits : ∀ e, r = some e →
        ¬ (lastComponentText (joinPath cs) (joinPath cs)).length ≥ nameCapacity := by
      rintro e rfl
      rcases List.eq_nil_or_concat cs with rfl | ⟨b, n, rfl⟩
      · cases hr
      · rw [List.concat_eq_append] at hr hpath ⊢
        obtain ⟨_, _, -, -, hvalid, -⟩ := resolve_snoc_ok hr
        rw [hpath.lastComponentText_eq]
        exact not_le.2 (validateLongName_length hvalid).2
    by_cases hd : isDir r = true
    · rw [fileTree_dir hcs hr hd]
      refine ⟨?_, fun callback context => ?_, _, children_of_dir hs hnames hcs hr hd,
        fun callback context => ?_⟩
      · rw [hstat, hr]
        cases r with
        | none => exact ⟨_, rfl, rfl⟩
        | some e =>
          simp only [if_neg (hfits e rfl)]
          exact ⟨_, rfl, hd⟩
      · rw [fat32ReadFile_result hfuel hrel hs, contents, hsplit, hr]
        cases r with
        | none => rfl
        | some e =>
          have hdir : e.isDirectory = true := hd
          simp only [hdir, if_true, readAnswer]
      · rw [fat32ListDir_result hfuel hrel hs, listing, hsplit, hr]
        simp only [hd, if_true, listAnswer]
    · cases r with
      | none => exact absurd rfl hd
      | some e =>
        have hfile : e.isDirectory = false := Bool.eq_false_iff.mpr hd
        have hd' : isDir (some e) = false := hfile
        rw [fileTree_file hcs hr hfile]
        refine ⟨?_, fun callback context => ?_, fun callback context => ?_⟩
        · rw [hstat, hr]
          simp only [if_neg (hfits e rfl)]
          refine ⟨_, rfl, hfile, fun bytes hbytes => ?_⟩
          rcases hcontent : fileContent env.geometry (s.volume env.geometry) e with code | content
          · rw [hcontent] at hbytes
            cases hbytes
          · rw [hcontent] at hbytes
            cases hbytes
            rw [length_of_fileContent hcontent]
            rfl
        · rw [fat32ReadFile_result hfuel hrel hs, contents, hsplit, hr]
          simp only [hfile, Bool.false_eq_true, if_false]
          unfold fileContent
          split <;> rfl
        · rw [fat32ListDir_result hfuel hrel hs, listing, hsplit, hr]
          simp only [hd', Bool.false_eq_true, if_false, listAnswer]

end
/-! ## What is appended to a file -/

/-- The data that the requests write to the path, in order. -/
def written (cs : List CStr) : List (FileRequest CStr (List UInt8 × Bool)) → List UInt8
  | [] => []
  | .write p (data, _) :: reqs => (if p = cs then data else []) ++ written cs reqs
  | _ :: reqs => written cs reqs

/-- The request appends to the file at the path, or does not concern it. -/
def Spares (cs : List CStr) (req : FileRequest CStr (List UInt8 × Bool)) : Prop :=
  ¬ req.Touches cs ∨ ∃ data, req = .write cs (data, true)

section

variable {t t' : FileTree CStr (Option (List UInt8))} {cs : List CStr} {bytes : List UInt8}
  {req : FileRequest CStr (List UInt8 × Bool)} {reqs : List (FileRequest CStr (List UInt8 × Bool))}

theorem written_of_not_touches (h : ¬ req.Touches cs) :
    written cs (req :: reqs) = written cs reqs := by
  cases req with
  | write p data =>
    obtain ⟨data, append⟩ := data
    rw [written, if_neg fun heq => h heq.symm, List.nil_append]
  | _ => rfl

/-- A file that is spared has what was written to it behind its old content. -/
theorem file_of_run (h : Runs (FileTree.Step Writes) t reqs t')
    (hfile : t cs = some (.file (some bytes))) (hspares : ∀ req ∈ reqs, Spares cs req) :
    t' cs = some (.file (some (bytes ++ written cs reqs))) := by
  induction h generalizing bytes with
  | nil => rw [hfile, written, List.append_nil]
  | @cons t t₁ t' req reqs first rest ih =>
    have hrest : ∀ req ∈ reqs, Spares cs req := fun req hreq => hspares req (by simp [hreq])
    rcases hspares req (by simp) with hnot | ⟨data, rfl⟩
    · rw [written_of_not_touches hnot, ih (by rw [first.other hnot, hfile]) hrest]
    · obtain ⟨new, rfl, ⟨habsent, -⟩ | ⟨old, hold, hwrites⟩⟩ := first.of_write
      · rw [hfile] at habsent
        cases habsent
      · rw [hfile] at hold
        cases hold
        cases hwrites
        rw [ih FileTree.put_self hrest, written, if_pos rfl, List.append_assoc]

end

/-! ## Runs of calls -/

section

variable {env : Env} {s s₁ s' : State} {calls before after : List (Operation × Bool)}
  {path : CStr} {cs : List CStr} {data : List UInt8}

theorem treeKept_of_wellFormed (hwf : WellFormed env.geometry (s.volume env.geometry))
    (hshape : Shaped env.geometry (s.volume env.geometry)
      (Reachable env.geometry (s.volume env.geometry)))
    (hnames : UniquelyNamed env.geometry (s.volume env.geometry)
      (Reachable env.geometry (s.volume env.geometry))) : TreeKept env s :=
  ⟨_, _, ⟨hwf.sound, hshape⟩, hnames⟩

theorem TreeKept.tells (hfuel : env.geometry.totalClusters < env.fuel) (hrel : ¬ env.Faulty)
    (h : TreeKept env s) (hcs : ∀ c ∈ cs, CanonicalComponent c) :
    Tells env s (fileTree env.geometry (s.volume env.geometry)) cs
      (fileTree env.geometry (s.volume env.geometry) cs) := by
  obtain ⟨D, own, hk, huniq⟩ := h
  exact hk.tells hfuel hrel huniq hcs

/-- Every run of calls is a run of the file tree by the requests of those that succeed, and at its
end `fat32_stat`, `fat32_read_file` and `fat32_list_dir` answer what the tree says. -/
theorem fileTree_of_run (hfuel : env.geometry.totalClusters < env.fuel) (hrel : ¬ env.Faulty)
    (hwf : WellFormed env.geometry (s.volume env.geometry))
    (hshape : Shaped env.geometry (s.volume env.geometry)
      (Reachable env.geometry (s.volume env.geometry)))
    (hnames : UniquelyNamed env.geometry (s.volume env.geometry)
      (Reachable env.geometry (s.volume env.geometry)))
    (hrun : Runs (Answered env) s calls s') :
    Runs (FileTree.Step Writes) (fileTree env.geometry (s.volume env.geometry)) (granted calls)
      (fileTree env.geometry (s'.volume env.geometry)) ∧
    ∀ cs, (∀ c ∈ cs, CanonicalComponent c) →
      Tells env s' (fileTree env.geometry (s'.volume env.geometry)) cs
        (fileTree env.geometry (s'.volume env.geometry) cs) := by
  obtain ⟨hkept, hruns⟩ := (treeKept_of_wellFormed hwf hshape hnames).run hfuel hrel hrun
  exact ⟨hruns, fun cs hcs => hkept.tells hfuel hrel hcs⟩

theorem makeDir_answered : Answered smallEnv emptyState (.makeDir [slash, 0x41], true)
    (afterCall (.makeDir [slash, 0x41]) emptyState) :=
  ⟨canonicalPath_letter (by decide) (by decide) (by decide),
    Prog.eq_ok_of_isOk (by decide +kernel)⟩

theorem emptyState_uniquelyNamed : UniquelyNamed smallGeometry (emptyState.volume smallGeometry)
    (Reachable smallGeometry (emptyState.volume smallGeometry)) :=
  uniquelyNamed_of_check emptyState_check.1 (by decide +kernel)

theorem fileTree_of_run_makeDir :
    Runs (FileTree.Step Writes) (fileTree smallGeometry (emptyState.volume smallGeometry))
      (granted [(.makeDir [slash, 0x41], true)])
      (fileTree smallGeometry
        ((afterCall (.makeDir [slash, 0x41]) emptyState).volume smallGeometry)) :=
  (fileTree_of_run (by decide) smallEnv_reliable (sound_of_check emptyState_check.1).2
    (regular_of_check emptyState_check.1 emptyState_check.2).shaped emptyState_uniquelyNamed
    (.cons makeDir_answered (.nil _))).1

/-- A file reads as the last write that replaced or created it and all that was appended to it
since, whatever other calls there have been, as long as none has removed or moved it or a directory
on its path. -/
theorem readsBack_of_run (hfuel : env.geometry.totalClusters < env.fuel) (hrel : ¬ env.Faulty)
    (hwf : WellFormed env.geometry (s.volume env.geometry))
    (hshape : Shaped env.geometry (s.volume env.geometry)
      (Reachable env.geometry (s.volume env.geometry)))
    (hnames : UniquelyNamed env.geometry (s.volume env.geometry)
      (Reachable env.geometry (s.volume env.geometry)))
    (hpath : Canonical path cs)
    (hrun : Runs (Answered env) s (before ++ (.writeFile path data false, true) :: after) s')
    (hafter : ∀ req ∈ granted after, Spares cs req) :
    (fat32ReadFile env path gather [] s').result = some (.ok (data ++ written cs (granted after))) ∧
    ∃ info, (fat32Stat env path s').result = some (.ok info) ∧ info.isDir = false ∧
      info.size = (data ++ written cs (granted after)).length := by
  have hkept := treeKept_of_wellFormed hwf hshape hnames
  obtain ⟨s₁, hbefore, hrest⟩ := hrun.split
  have hkept₁ := (hkept.run hfuel hrel hbefore).1
  cases hrest with
  | @cons _ s₂ _ _ _ first rest =>
    obtain ⟨D, own, hk, huniq⟩ := hkept₁
    have hkept₂ : TreeKept env s₂ := TreeKept.step hfuel hrel ⟨D, own, hk, huniq⟩ first.step
    obtain ⟨hkept', hruns⟩ := hkept₂.run hfuel hrel rest
    have hstep := hk.tree_of_ok hfuel hrel huniq first.1 first.2
    rw [Operation.request, hpath.splitComponents_eq] at hstep
    have hnew : fileTree env.geometry (s₂.volume env.geometry) cs
        = some (.file (some data)) := by
      obtain ⟨new, heq, ⟨-, hwrites⟩ | ⟨old, -, hwrites⟩⟩ := hstep.of_write
      · cases hwrites
        rw [heq, FileTree.put_self]
      · cases hwrites
        rw [heq, FileTree.put_self]
    have hlast := file_of_run hruns hnew hafter
    have htells := hkept'.tells hfuel hrel hpath.components
    rw [hlast] at htells
    obtain ⟨⟨info, hstat, hkind, hsize⟩, hread, -⟩ := htells
    rw [← hpath.text] at hstat hread
    refine ⟨?_, info, hstat, hkind, hsize _ rfl⟩
    have hgather := hread gather []
    rw [hgather]
    simp only [Option.elim_some, readAnswer, feed_gather, List.nil_append, pieces_flatten]

/-- Data that is appended to a new file. -/
theorem readsBack_of_run_append : ∃ s', Runs (Answered smallEnv) emptyState
      [(.writeFile [slash, 0x41] [1, 2, 3] false, true), (.writeFile [slash, 0x41] [4] true, true)]
      s' ∧ (fat32ReadFile smallEnv [slash, 0x41] gather [] s').result
        = some (.ok [1, 2, 3, 4]) := by
  have hpath : Canonical [slash, 0x41] [[0x41]] :=
    canonical_letter (by decide) (by decide) (by decide)
  have hcalls : Runs (Answered smallEnv) emptyState
      ([] ++ (.writeFile [slash, 0x41] [1, 2, 3] false, true)
        :: [(.writeFile [slash, 0x41] [4] true, true)])
      (afterCall (.writeFile [slash, 0x41] [4] true)
        (afterCall (.writeFile [slash, 0x41] [1, 2, 3] false) emptyState)) :=
    .cons ⟨⟨⟨_, hpath⟩, by decide⟩, Prog.eq_ok_of_isOk (by decide +kernel)⟩
      (.cons ⟨⟨⟨_, hpath⟩, by decide⟩, Prog.eq_ok_of_isOk (by decide +kernel)⟩ (.nil _))
  refine ⟨_, hcalls, ?_⟩
  refine (readsBack_of_run (by decide) smallEnv_reliable (sound_of_check emptyState_check.1).2
    (regular_of_check emptyState_check.1 emptyState_check.2).shaped emptyState_uniquelyNamed hpath
    hcalls fun req hreq => .inr ⟨[4], ?_⟩).1
  obtain rfl := List.mem_singleton.mp hreq
  rfl

/-- Equal trees are read alike. -/
theorem Tells.read_eq {t : FileTree CStr (Option (List UInt8))}
    {node : Option (FileNode (Option (List UInt8)))} (h : Tells env s t cs node)
    (h' : Tells env s' t cs node) {κ : Type} (callback : κ → List UInt8 → κ × Bool) (context : κ) :
    (fat32ReadFile env (joinPath cs) callback context s').result
      = (fat32ReadFile env (joinPath cs) callback context s).result := by
  cases node with
  | none => exact (h'.2.1 callback context).trans (h.2.1 callback context).symm
  | some node =>
    cases node with
    | dir => exact (h'.2.1 callback context).trans (h.2.1 callback context).symm
    | file content => exact (h'.2.1 callback context).trans (h.2.1 callback context).symm

/-- A successful call and the one that takes it back. -/
def Undoable (env : Env) (s : State) (pair : Operation × Operation) (s' : State) : Prop :=
  Answered env s (pair.1, true) s' ∧
    (fileTree env.geometry (s.volume env.geometry)).Undone pair.1.request pair.2.request

theorem TreeKept.undoable {pairs : List (Operation × Operation)}
    (hfuel : env.geometry.totalClusters < env.fuel) (hrel : ¬ env.Faulty)
    (hrun : Runs (Undoable env) s pairs s') (h : TreeKept env s) : TreeKept env s' ∧
      Runs (fun t pair t' => FileTree.Step Writes t pair.1 t' ∧ t.Undone pair.1 pair.2)
        (fileTree env.geometry (s.volume env.geometry))
        (pairs.map fun pair => (pair.1.request, pair.2.request))
        (fileTree env.geometry (s'.volume env.geometry)) := by
  induction hrun with
  | nil s => exact ⟨h, .nil _⟩
  | cons first rest ih =>
    obtain ⟨hkept, hruns⟩ := ih (h.step hfuel hrel first.1.step)
    obtain ⟨D, own, hk, huniq⟩ := h
    exact ⟨hkept, .cons ⟨hk.tree_of_ok hfuel hrel huniq first.1.1 first.1.2, first.2⟩ hruns⟩

/-- Calls that are taken back in the reverse order leave every node of the tree, and so what every
file reads, as it was. -/
theorem fileTree_undone (hfuel : env.geometry.totalClusters < env.fuel) (hrel : ¬ env.Faulty)
    (hwf : WellFormed env.geometry (s.volume env.geometry))
    (hshape : Shaped env.geometry (s.volume env.geometry)
      (Reachable env.geometry (s.volume env.geometry)))
    (hnames : UniquelyNamed env.geometry (s.volume env.geometry)
      (Reachable env.geometry (s.volume env.geometry)))
    {pairs : List (Operation × Operation)}
    (hrun : Runs (Undoable env) s pairs s₁)
    (hback : Runs (Answered env) s₁ (pairs.reverse.map fun pair => (pair.2, true)) s') :
    fileTree env.geometry (s'.volume env.geometry) = fileTree env.geometry (s.volume env.geometry) ∧
    ∀ path, CanonicalPath path → ∀ {κ : Type} (callback : κ → List UInt8 → κ × Bool) (context : κ),
      (fat32ReadFile env path callback context s').result
        = (fat32ReadFile env path callback context s).result := by
  have hkept := treeKept_of_wellFormed hwf hshape hnames
  obtain ⟨hkept₁, hdone⟩ := hkept.undoable hfuel hrel hrun
  obtain ⟨hkept', hundone⟩ := hkept₁.run hfuel hrel hback
  have hgranted : granted (pairs.reverse.map fun pair => (pair.2, true))
      = ((pairs.map fun pair => (pair.1.request, pair.2.request)).reverse.map Prod.snd) := by
    simp [granted, List.filter_map, Function.comp_def]
  rw [hgranted] at hundone
  have htree := FileTree.undone_of_run hdone fileTree_rooted hundone
  refine ⟨htree, fun path hpath κ callback context => ?_⟩
  obtain ⟨cs, rfl, hcs⟩ := hpath
  have htells := hkept'.tells hfuel hrel hcs
  rw [htree] at htells
  exact (hkept.tells hfuel hrel hcs).read_eq htells callback context

theorem fileTree_undone_makeDir :
    fileTree smallGeometry ((afterCall (.remove [slash, 0x41])
      (afterCall (.makeDir [slash, 0x41]) emptyState)).volume smallGeometry)
    = fileTree smallGeometry (emptyState.volume smallGeometry) := by
  have hrun : Runs (Undoable smallEnv) emptyState
      [(.makeDir [slash, 0x41], .remove [slash, 0x41])]
      (afterCall (.makeDir [slash, 0x41]) emptyState) :=
    .cons ⟨makeDir_answered, .makeDir⟩ (.nil _)
  refine (fileTree_undone (by decide) smallEnv_reliable (sound_of_check emptyState_check.1).2
    (regular_of_check emptyState_check.1 emptyState_check.2).shaped emptyState_uniquelyNamed hrun
    (.cons ⟨canonicalPath_letter (by decide) (by decide) (by decide), ?_⟩ (.nil _))).1
  exact Prog.eq_ok_of_isOk (by decide +kernel)

end

end FunnyOS.Fat32
