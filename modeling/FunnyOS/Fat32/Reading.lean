import FunnyOS.Fat32.EntrySpec
import FunnyOS.Fat32.FileUpdate
import FunnyOS.Fat32.WellFormed

/-!
# What the reading operations answer

`fat32_stat`, `fat32_list_dir` and `fat32_read_file` as functions of the volume: `statAt`,
`listing` and `contents`. Where these agree for two volumes, no caller can tell the volumes apart
(`SameAnswers`).
-/

namespace FunnyOS.Fat32

open Prog

/-! ## Answers -/

/-- The answer of `fat32_stat`; there is none where the last component overruns its buffer. -/
def statAt (g : Geometry) (v : Volume) (path : CStr) :
    Option (Except Fat32Result Fat32NodeInfo) :=
  match resolve g v (splitComponents path) with
  | .error e => some (.error e)
  | .ok none => some (.ok { name := [slash], isDir := true, size := 0 })
  | .ok (some e) =>
    if (lastComponentText path path).length ≥ nameCapacity then none
    else some (.ok (decodeNodeInfo e (lastComponentText path path)))

/-- The entries that `fat32_list_dir` reports. -/
def listing (g : Geometry) (v : Volume) (path : CStr) : Except Fat32Result (List Fat32NodeInfo) :=
  match resolve g v (splitComponents path) with
  | .error e => .error e
  | .ok r =>
    if isDir r then .ok ((itemsOf (dirEntries g v (dirCluster g r))).map Item.info)
    else .error .notADirectory

/-- What the caller of `fat32_list_dir` gets, whatever the slots are. -/
def scanAnswer {κ : Type} (g : Geometry) (v : Volume) (path : CStr)
    (callback : κ → Fat32NodeInfo → κ × Bool) (context : κ) : Except Fat32Result κ :=
  match resolve g v (splitComponents path) with
  | .error e => .error e
  | .ok r =>
    if isDir r then
      .ok (scanForListing callback (dirEntries g v (dirCluster g r)) .initial context).2
    else .error .notADirectory

/-- The bytes of a file, as far as its chain reaches. -/
def fileContent (g : Geometry) (v : Volume) (e : DirectoryEntry) :
    Except Fat32Result (List UInt8) :=
  if e.size ≤ (clusterChain g v.fat e.entryFirstCluster).length * g.clusterSize then
    .ok (chainContent g v (clusterChain g v.fat e.entryFirstCluster) e.size)
  else .error .ioError

/-- The bytes that `fat32_read_file` delivers. -/
def contents (g : Geometry) (v : Volume) (path : CStr) : Except Fat32Result (List UInt8) :=
  match resolve g v (splitComponents path) with
  | .error e => .error e
  | .ok none => .error .isADirectory
  | .ok (some e) => if e.isDirectory then .error .isADirectory else fileContent g v e

/-- A list cut into pieces of `n` elements. -/
def pieces {α : Type} (n : Nat) : List α → List (List α)
  | [] => []
  | a :: l => (a :: l.take (n - 1)) :: pieces n (l.drop (n - 1))
termination_by l => l.length
decreasing_by
  rw [List.length_drop, List.length_cons]
  omega

/-- The pieces put together again. -/
theorem pieces_flatten {α : Type} (n : Nat) (l : List α) : (pieces n l).flatten = l := by
  induction l using pieces.induct n with
  | case1 => rw [pieces, List.flatten_nil]
  | case2 a l ih => rw [pieces, List.flatten_cons, ih, List.cons_append, List.take_append_drop]

theorem pieces_append {α : Type} {n : Nat} {a b : List α} (hn : a.length = n) (h : a ≠ []) :
    pieces n (a ++ b) = a :: pieces n b := by
  cases a with
  | nil => exact absurd rfl h
  | cons x a =>
    obtain rfl : n = a.length + 1 := hn.symm
    rw [List.cons_append, pieces, Nat.add_sub_cancel, List.take_left, List.drop_left]

theorem pieces_short {α : Type} {n : Nat} {a : List α} (hn : a.length ≤ n) (h : a ≠ []) :
    pieces n a = [a] := by
  cases a with
  | nil => exact absurd rfl h
  | cons x a =>
    rw [List.length_cons] at hn
    rw [pieces, List.take_of_length_le (by omega), List.drop_of_length_le (by omega), pieces]

/-- What the caller of `fat32_list_dir` gets. -/
def listAnswer {κ : Type} (callback : κ → Fat32NodeInfo → κ × Bool) (context : κ) :
    Except Fat32Result (List Fat32NodeInfo) → Except Fat32Result κ
  | .error e => .error e
  | .ok infos => .ok (report callback context infos)

/-- What the caller of `fat32_read_file` gets. -/
def readAnswer {κ : Type} (g : Geometry) (callback : κ → List UInt8 → κ × Bool) (context : κ) :
    Except Fat32Result (List UInt8) → Except Fat32Result κ
  | .error e => .error e
  | .ok bytes => match feed callback context (pieces g.clusterSize bytes) with
    | none => .error .ioError
    | some a => .ok a

/-! ## No undefined behaviour -/

section

variable {env : Env}

theorem readCluster_defined {c : Nat} : Defined (readCluster env c) := by
  unfold readCluster
  refine Defined.ite Defined.pure (Defined.ite ?_ Defined.pure)
  refine Defined.bind (fun s s' h => ?_) fun r => ?_
  · unfold blockReadSectors at h
    split at h <;> cases h
  · cases r with
    | none => exact Defined.pure
    | some bytes => exact Defined.bind Defined.modify fun _ => Defined.pure

theorem readDirectoryEntry_defined {first i : Nat} :
    Defined (readDirectoryEntry env first i) := by
  refine Defined.bind Defined.get fun s => Defined.ite Defined.raise ?_
  refine Defined.bind readCluster_defined fun b => Defined.ite ?_ Defined.raise
  exact Defined.bind Defined.get fun _ => Defined.pure

theorem countLfnEntries_defined {first : Nat} : ∀ i, Defined (countLfnEntries env first i)
  | 0 => Defined.pure
  | i + 1 => by
    refine Defined.bind readDirectoryEntry_defined.attempt fun r => ?_
    cases r with
    | error e => exact Defined.pure
    | ok e =>
      exact Defined.ite (Defined.bind (countLfnEntries_defined i) fun _ => Defined.pure) Defined.pure

theorem findEntryInClusterDir_defined {first : Nat} {name : CStr} :
    Defined (findEntryInClusterDir env first name) := by
  refine Defined.loop (fun x => ?_) _ _
  refine Defined.ite ?_ Defined.raise
  refine Defined.bind readCluster_defined fun b => Defined.ite ?_ Defined.raise
  refine Defined.bind Defined.get fun s => ?_
  simp only
  split
  · exact Defined.raise
  · exact Defined.ite (Defined.bind (countLfnEntries_defined _) fun _ => Defined.pure) Defined.pure
  · exact Defined.pure

theorem resolveComponents_defined : ∀ (cs : List CStr) (r : Option DirectoryEntry),
    Defined (resolveComponents env r cs)
  | [], _ => Defined.pure
  | c :: cs, r => by
    rw [resolveComponents_cons]
    refine Defined.ite Defined.raise (Defined.ite Defined.raise (Defined.ite Defined.raise ?_))
    refine Defined.bind findEntryInClusterDir_defined fun ref => Defined.ite Defined.raise ?_
    exact resolveComponents_defined cs _

theorem listClusterDir_defined {κ : Type} {first : Nat}
    {callback : κ → Fat32NodeInfo → κ × Bool} {context : κ} :
    Defined (listClusterDir env first callback context) := by
  refine Defined.loop (fun x => ?_) _ _
  refine Defined.ite ?_ Defined.pure
  refine Defined.bind readCluster_defined fun b => Defined.ite ?_ Defined.raise
  refine Defined.bind Defined.get fun s => ?_
  split <;> exact Defined.pure

theorem readChunks_defined {κ : Type} {first size : Nat}
    {callback : κ → List UInt8 → κ × Bool} {context : κ} :
    Defined (readChunks env first size callback context) := by
  refine Defined.loop (fun x => ?_) _ _
  refine Defined.ite ?_ (Defined.ite Defined.pure Defined.raise)
  refine Defined.bind readCluster_defined fun b => Defined.ite ?_ Defined.raise
  refine Defined.bind Defined.get fun s => ?_
  exact Defined.ite Defined.pure Defined.raise

end

/-! ## The answers are those of the operations -/

section

variable {ok : List DirectoryEntry → Prop} [DirRules ok] {g : Geometry} {v v' : Volume}
  {D : Nat → Prop} {own : Owner → List Nat} {env : Env} {s s' : State} {path : CStr}
  {e e' : DirectoryEntry}

/-- The pieces that `fat32_read_file` hands out are the content cut at the clusters. -/
theorem fileChunks_eq_pieces {l : List Nat} {size : Nat}
    (hsize : size ≤ l.length * g.clusterSize) :
    fileChunks g v l size = pieces g.clusterSize (chainContent g v l size) := by
  have hcs := g.clusterSize_pos
  induction l generalizing size with
  | nil =>
    obtain rfl : size = 0 := by simpa using hsize
    rw [chainContent, List.range_zero, List.map_nil, pieces, fileChunks]
  | cons c l ih =>
    by_cases h0 : size = 0
    · rw [h0, fileChunks_zero, chainContent, List.range_zero, List.map_nil, pieces]
    rw [List.length_cons, Nat.succ_mul] at hsize
    rw [fileChunks, if_neg h0, ih (by omega), chainContent_cons]
    have hlen : ((List.range (min g.clusterSize size)).map (v.data c)).length
        = min g.clusterSize size := by simp
    have hne : (List.range (min g.clusterSize size)).map (v.data c) ≠ [] := by
      rw [← List.length_pos_iff, hlen]
      omega
    rcases Nat.le_total g.clusterSize size with hle | hle
    · rw [pieces_append (hlen.trans (Nat.min_eq_left hle)) hne]
    · have hrest : size - min g.clusterSize size = 0 := by omega
      rw [hrest, chainContent, List.range_zero, List.map_nil, List.append_nil, pieces,
        pieces_short (by omega) hne]

variable (path) in
/-- A resolved path gives its result, and leaves the volume. -/
theorem resolvePath_run (hfuel : env.geometry.totalClusters < env.fuel) (hrel : ¬ env.Faulty)
    (h : Sound ok env.geometry (s.volume env.geometry) D own) :
    ∃ s', s'.volume env.geometry = s.volume env.geometry ∧
      resolvePath env path s =
        match resolve env.geometry (s.volume env.geometry) (splitComponents path) with
        | .ok r => .ok r s'
        | .error e => .error e s' := by
  have hsat : Sat (resolvePath env path) s _ _ := resolvePath_sat hfuel h
  have hdef : Defined (resolveComponents env none (splitComponents path)) :=
    resolveComponents_defined _ _
  replace hdef := hdef s
  unfold Sat at hsat
  change ∀ s', resolvePath env path s ≠ .fault s' at hdef
  cases hx : resolvePath env path s with
  | ok r s' =>
    rw [hx] at hsat
    exact ⟨s', hsat.1, by rw [hsat.2]⟩
  | error e s' =>
    rw [hx] at hsat
    rw [hsat.2.resolve_right fun hf => hrel hf.2]
    exact ⟨s', hsat.1, rfl⟩
  | fault s' => exact absurd hx (hdef s')
  | timeout s' => rw [hx] at hsat; exact hsat.elim

variable (path) in
/-- How the operations that read begin. -/
theorem startRead_result {α : Type} (k : Option DirectoryEntry → Driver α)
    (hfuel : env.geometry.totalClusters < env.fuel) (hrel : ¬ env.Faulty)
    (h : Sound ok env.geometry (s.volume env.geometry) D own) :
    ∃ s', s'.volume env.geometry = s.volume env.geometry ∧
      ((checkMounted >>= fun _ => resolvePath env path >>= k) s).result =
        match resolve env.geometry (s.volume env.geometry) (splitComponents path) with
        | .ok r => (k r s').result
        | .error e => some (.error e) := by
  obtain ⟨s', hv, hrun⟩ := resolvePath_run path hfuel hrel h
  have hstart : checkMounted s = .ok () s := checkMounted_ok h.mounted
  refine ⟨s', hv, ?_⟩
  change (Prog.bind checkMounted (fun _ => Prog.bind (resolvePath env path) k) s).result = _
  unfold Prog.bind
  simp only [hstart, hrun]
  cases resolve env.geometry (s.volume env.geometry) (splitComponents path) <;> rfl

/-- `fat32_stat`. -/
theorem fat32Stat_result (hfuel : env.geometry.totalClusters < env.fuel) (hrel : ¬ env.Faulty)
    (h : Sound ok env.geometry (s.volume env.geometry) D own) :
    (fat32Stat env path s).result = statAt env.geometry (s.volume env.geometry) path := by
  obtain ⟨s', -, hrun⟩ := startRead_result path _ hfuel hrel h
  refine hrun.trans ?_
  unfold statAt
  rcases resolve env.geometry (s.volume env.geometry) (splitComponents path) with e | _ | e
  · rfl
  · rfl
  · simp only
    split <;> rfl

/-- `fat32_list_dir`. -/
theorem fat32ListDir_scan {κ : Type} {context : κ} {callback : κ → Fat32NodeInfo → κ × Bool}
    (hfuel : env.geometry.totalClusters < env.fuel) (hrel : ¬ env.Faulty)
    (h : Sound ok env.geometry (s.volume env.geometry) D own) :
    (fat32ListDir env path callback context s).result
      = some (scanAnswer env.geometry (s.volume env.geometry) path callback context) := by
  obtain ⟨s', hv, hrun⟩ := startRead_result path _ hfuel hrel h
  refine hrun.trans ?_
  have hlist : ∀ d, D d → (listClusterDir env d callback context s').result
      = some (.ok (scanForListing callback (dirEntries env.geometry (s.volume env.geometry) d)
          .initial context).2) := by
    intro d hd
    rw [← hv]
    rw [← hv] at h
    obtain ⟨hch, -⟩ := h.cert.dir_chain hd
    refine Sat.result_eq (P := fun _ => True) listClusterDir_defined
      (Sat.mono (listClusterDir_sat hfuel hch) ?_ ?_)
    · rintro a s₁ ⟨-, rfl⟩
      refine ⟨trivial, ?_⟩
      rw [← dirEntries_eq hch]
    · rintro e s₁ ⟨-, -, hf⟩
      exact absurd hf hrel
  unfold scanAnswer
  have hdir : ∀ r, resolve env.geometry (s.volume env.geometry) (splitComponents path) = .ok r →
      isDir r = true → D (dirCluster env.geometry r) := fun r => h.dir_of_resolve
  rcases hr : resolve env.geometry (s.volume env.geometry) (splitComponents path) with e | _ | e
  · rfl
  · exact hlist _ (hdir _ hr rfl)
  · simp only [isDir, Option.all_some]
    by_cases hd : e.isDirectory = true
    · simp only [hd, if_true]
      exact hlist _ (hdir _ hr hd)
    · simp only [hd, if_false, Bool.false_eq_true]
      rfl

omit [DirRules ok] in
/-- In directories in order it reports the entries. -/
theorem fat32ListDir_result [TidyRules ok] {κ : Type} {context : κ}
    {callback : κ → Fat32NodeInfo → κ × Bool} (hfuel : env.geometry.totalClusters < env.fuel)
    (hrel : ¬ env.Faulty) (h : Sound ok env.geometry (s.volume env.geometry) D own) :
    (fat32ListDir env path callback context s).result
      = some (listAnswer callback context
          (listing env.geometry (s.volume env.geometry) path)) := by
  rw [fat32ListDir_scan hfuel hrel h, scanAnswer, listing]
  rcases hr : resolve env.geometry (s.volume env.geometry) (splitComponents path) with e | r
  · rfl
  · by_cases hd : isDir r = true
    · have htidy := TidyRules.tidy (h.tidy (h.dir_of_resolve hr hd))
      simp only [hd, if_true, listAnswer, itemsOf]
      rw [scanForListing_eq 0 htidy LfnState.Alike.refl]
    · simp only [hd, if_false, Bool.false_eq_true, listAnswer]

omit [DirRules ok] in
/-- What a path with components resolves to is a live entry. -/
theorem Sound.entry_of_resolve {a : List CStr} (h : Sound ok g v D own)
    (hr : resolve g v a = .ok (some e)) :
    ∃ d it, D d ∧ it ∈ itemsOf (dirEntries g v d) ∧ it.entry = e := by
  rcases List.eq_nil_or_concat a with rfl | ⟨b, name, rfl⟩
  · cases hr
  · rw [List.concat_eq_append] at hr
    obtain ⟨r, it, hr₁, hd, -, hl, he⟩ := resolve_snoc_ok hr
    exact ⟨_, it, h.dir_of_resolve hr₁ hd, (lookup_mem hl).1, (Option.some.inj he).symm⟩

/-- The loop of `fat32_read_file` on the entry of a file. -/
theorem readChunks_result {κ : Type} {callback : κ → List UInt8 → κ × Bool} {context : κ}
    (hrel : ¬ env.Faulty) (h : FileChain env.geometry s.fat e.entryFirstCluster
      (clusterChain env.geometry s.fat e.entryFirstCluster)) :
    (readChunks env e.entryFirstCluster e.size callback context s).result
      = some (readAnswer env.geometry callback context
          (fileContent env.geometry (s.volume env.geometry) e)) := by
  refine Sat.result_eq (P := fun _ => True) readChunks_defined
    (Sat.mono (readChunks_sat h) ?_ ?_)
  · rintro a s₁ ⟨-, hfit, hfeed⟩
    rw [fileChunks_eq_pieces hfit] at hfeed
    refine ⟨trivial, ?_⟩
    rw [fileContent, State.volume_fat, if_pos hfit, readAnswer, hfeed]
  · rintro code s₁ ⟨-, rfl, hbad⟩
    refine ⟨trivial, ?_⟩
    rw [fileContent, State.volume_fat]
    split
    · rename_i hfit
      have hnone := hbad.resolve_right fun hb =>
        hb.elim (fun hlt => absurd hfit (Nat.not_le_of_lt hlt)) hrel
      rw [fileChunks_eq_pieces hfit] at hnone
      rw [readAnswer, hnone]
    · rfl

/-- `fat32_read_file`. -/
theorem fat32ReadFile_result {κ : Type} {callback : κ → List UInt8 → κ × Bool} {context : κ}
    (hfuel : env.geometry.totalClusters < env.fuel) (hrel : ¬ env.Faulty)
    (h : Sound ok env.geometry (s.volume env.geometry) D own) :
    (fat32ReadFile env path callback context s).result
      = some (readAnswer env.geometry callback context
          (contents env.geometry (s.volume env.geometry) path)) := by
  obtain ⟨s', hv, hrun⟩ := startRead_result path _ hfuel hrel h
  refine hrun.trans ?_
  rw [← hv] at h ⊢
  unfold contents
  rcases hr : resolve env.geometry (s'.volume env.geometry) (splitComponents path) with e | _ | e
  · rfl
  · rfl
  · by_cases hd : e.isDirectory = true
    · simp only [hd, if_true]
      rfl
    · simp only [hd, if_false, Bool.false_eq_true]
      obtain ⟨d, it, hD, hit, rfl⟩ := h.entry_of_resolve hr
      refine readChunks_result hrel ?_
      have hch := (h.entryOk hD hit).chain
      rwa [h.chain_eq hD (liveEntries_item hit)] at hch

end

/-! ## Volumes that answer alike -/

/-- No caller can tell the two states apart by a path. -/
structure SameAnswers (env : Env) (s s' : State) (path : CStr) : Prop where
  stat : (fat32Stat env path s').result = (fat32Stat env path s).result
  list : ∀ {κ : Type} (callback : κ → Fat32NodeInfo → κ × Bool) (context : κ),
    (fat32ListDir env path callback context s').result
      = (fat32ListDir env path callback context s).result
  read : ∀ {κ : Type} (callback : κ → List UInt8 → κ × Bool) (context : κ),
    (fat32ReadFile env path callback context s').result
      = (fat32ReadFile env path callback context s).result

section

variable {ok : List DirectoryEntry → Prop} [DirRules ok] {g : Geometry} {v v' : Volume}
  {D D' : Nat → Prop} {own own' : Owner → List Nat} {env : Env} {s s' : State} {path : CStr}
  {e : DirectoryEntry} {l l' : List Nat}

/-- Equal answers on the volumes are equal answers of the operations. -/
theorem sameAnswers_of_volume (hfuel : env.geometry.totalClusters < env.fuel)
    (hrel : ¬ env.Faulty) (h : Sound ok env.geometry (s.volume env.geometry) D own)
    (h' : Sound ok env.geometry (s'.volume env.geometry) D' own')
    (hstat : statAt env.geometry (s'.volume env.geometry) path
      = statAt env.geometry (s.volume env.geometry) path)
    (hlist : ∀ {κ : Type} (callback : κ → Fat32NodeInfo → κ × Bool) (context : κ),
      scanAnswer env.geometry (s'.volume env.geometry) path callback context
        = scanAnswer env.geometry (s.volume env.geometry) path callback context)
    (hread : contents env.geometry (s'.volume env.geometry) path
      = contents env.geometry (s.volume env.geometry) path) : SameAnswers env s s' path where
  stat := by rw [fat32Stat_result hfuel hrel h', fat32Stat_result hfuel hrel h, hstat]
  list callback context := by
    rw [fat32ListDir_scan hfuel hrel h', fat32ListDir_scan hfuel hrel h, hlist]
  read callback context := by
    rw [fat32ReadFile_result hfuel hrel h', fat32ReadFile_result hfuel hrel h, hread]

theorem FileChain.clusterChain_eq {fat : Nat → Nat} {first : Nat}
    (h : FileChain g fat first l) : clusterChain g fat first = l := by
  rcases h with ⟨rfl, rfl⟩ | ⟨-, hch⟩
  · exact clusterChain_zero
  · exact hch.clusterChain_eq

/-- A file whose chain holds the same bytes has the same content. A file that is too large to
have all its clusters cannot be read before or after. -/
theorem fileContent_congr (h : EntryOk g v.fat e l) (h' : EntryOk g v'.fat e l')
    (hfile : e.isDirectory = false) (hsame : e.size ≤ l.length * g.clusterSize →
      chainContent g v' l' e.size = chainContent g v l e.size) :
    fileContent g v' e = fileContent g v e := by
  unfold fileContent
  rw [h.chain.clusterChain_eq, h'.chain.clusterChain_eq]
  by_cases hsize : e.size + g.clusterSize ≤ 2 ^ 32
  · have hfits := le_clustersForSize_mul (g := g) e.size hsize
    have hl := Nat.mul_le_mul_right g.clusterSize (h.file hfile).2
    have hl' := Nat.mul_le_mul_right g.clusterSize (h'.file hfile).2
    rw [if_pos (by omega), if_pos (by omega), hsame (by omega)]
  · have hcap := h.chain.capacity
    have hcap' := h'.chain.capacity
    rw [if_neg (by omega), if_neg (by omega)]

end

end FunnyOS.Fat32
