import FunnyOS.Fat32.Failure

/-!
# Sizes close to `2 ^ 32`

`fat32_write_file` counts the clusters of the new size in 32 bits, and makes the chain fit before
it writes. Data that no chain can hold is refused, and the file is kept, except where the count
wraps to zero: then an overwritten file loses its chain first.
-/

namespace FunnyOS.Fat32

open Prog

/-- The number of clusters that `fat32_write_file` requires for a file of `oldSize` bytes. -/
def requiredClusters (g : Geometry) (oldSize : Nat) (data : List UInt8) (append : Bool) : Nat :=
  clustersForSize g (if append then (oldSize + data.length) % 2 ^ 32 else data.length)

/-- The length of the file after the call, as an integer. -/
def trueLength (oldSize : Nat) (data : List UInt8) (append : Bool) : Nat :=
  (if append then oldSize else 0) + data.length

/-- The path leads to the entry `e` of a file whose bytes are `old`, on a chain of allocated
clusters. -/
structure FileKept (g : Geometry) (v : Volume) (path : CStr) (e : DirectoryEntry)
    (old : List UInt8) : Prop where
  entry : resolve g v (splitComponents path) = .ok (some e)
  bytes : fileContent g v e = .ok old
  chain : FileChain g v.fat e.entryFirstCluster (clusterChain g v.fat e.entryFirstCluster)

/-- `fat32_write_file` works with no wrapped quantity: the clusters that it requires hold the new
length or the call fails, and where it fails the file is kept. -/
structure SizesSound (env : Env) (s : State) (path : CStr) (data : List UInt8) (append : Bool)
    (e : DirectoryEntry) (old : List UInt8) : Prop where
  ok : ∀ s', fat32WriteFile env path data append s = .ok () s' →
    trueLength e.size data append
      ≤ requiredClusters env.geometry e.size data append * env.geometry.clusterSize
  error : ∀ code s', fat32WriteFile env path data append s = .error code s' →
    FileKept env.geometry (s'.volume env.geometry) path e old

/-- How a call leaves the chain `l` of a file of `oldSize` bytes. The chain has possibly got more
clusters, and the bytes that it holds are kept; or only free clusters have been touched. -/
inductive FileLeft (g : Geometry) (v v' : Volume) (l : List Nat) (first oldSize : Nat) : Prop
  | grown (taken : List Nat) (r : Nat) (start : l ≠ [] → r = first)
      (rewritten : Rewritten g v v' l (l ++ taken) r)
      (content : oldSize ≤ l.length * g.clusterSize →
        chainContent g v' (l ++ taken) oldSize = chainContent g v l oldSize)
  | apart (preserved : Preserved v v' (fun _ => False))

/-! ## Writing too much -/

section

variable {env : Env} {s : State} {v v' : Volume} {l : List Nat} {first oldSize newSize : Nat}
  {data : List UInt8}

/-- The clusters could not be taken. -/
theorem fileLeft_of_growth {e : Fat32Result} {s' : State} {needed : Nat} (hrel : ¬ env.Faulty)
    (h : FileChain env.geometry s.fat first l)
    (hf : ∃ base first', (base = l ∧ first' = first ∨ base = [] ∧ first' = 0) ∧
      GrowthFailed env (s.volume env.geometry) (s'.volume env.geometry) base first' needed e) :
    FileLeft env.geometry (s.volume env.geometry) (s'.volume env.geometry) l first oldSize := by
  obtain ⟨base, first', hbase, hg⟩ := hf
  obtain ⟨rfl, -, taken, -, hre⟩ := hg.noSpace_of_reliable hrel
  rcases hbase with ⟨rfl, rfl⟩ | ⟨rfl, rfl⟩
  · exact .grown taken first' (fun _ => rfl) hre.rewritten fun hfit => chainContent_grown hre h hfit
  · exact .apart (hre.preserved.mono (by simp))

/-- Data written behind the old bytes does not touch them. -/
theorem fileLeft_of_stored {g : Geometry} {v₁ : Volume} {taken : List Nat} {r : Nat}
    {done : List UInt8} (h : FileChain g v.fat first l) (hr : l ≠ [] → r = first)
    (hre : Reallocated g v v₁ l (l ++ taken) r) (hs : Stored g v₁ v' (l ++ taken) oldSize done) :
    FileLeft g v v' l first oldSize := by
  refine .grown taken r hr (hre.rewritten.store hs) fun hfit => ?_
  rw [← chainContent_grown hre h hfit]
  refine List.map_congr_left fun p hp => ?_
  have hp := List.mem_range.mp hp
  have hlen : p < (l ++ taken).length * g.clusterSize := by
    rw [List.length_append, Nat.add_mul]
    omega
  rw [hs.bytes p hlen, overwritten, if_neg (by omega)]

/-- Too much data appended: the call fails, and the old bytes are kept. -/
theorem appendLarge_left {α : Type} {k : Nat → Driver α}
    (hfuel : env.geometry.totalClusters < env.fuel) (hrel : ¬ env.Faulty)
    (h : FileChain env.geometry s.fat first l)
    (hlong : clustersForSize env.geometry oldSize ≤ l.length) (hdata : 2 ^ 31 < data.length) :
    Sat (do
      let firstCluster ← ensureClusterChainLength env first
        (clustersForSize env.geometry oldSize) (clustersForSize env.geometry newSize)
      if ← flushFat env then do
        writeDataToChain env firstCluster oldSize data
        k firstCluster
      else raise .ioError) s (fun _ _ => False)
      (fun _ s' => FileLeft env.geometry (s.volume env.geometry) (s'.volume env.geometry) l first
        oldSize) := by
  refine Sat.bind (ensureClusterChainLength_sat hfuel h hlong)
    (fun e s' hf => fileLeft_of_growth hrel h hf) ?_
  rintro r s₁ ⟨base, taken, hens⟩
  have hre := hens.realloc
  refine Sat.bind flushFat_sat (fun _ _ h => h.elim) ?_
  rintro (_ | _) s₂ ⟨hv₂, hflush⟩
  · exact absurd (hflush rfl) hrel
  have hfc : FileChain env.geometry s₂.fat r (base ++ taken) := by
    have : s₂.fat = s₁.fat := congrArg Volume.fat hv₂
    rw [this]
    exact hre.fileChain
  have hcap := hfc.capacity
  simp only [if_true]
  refine Sat.bind (writeDataToChain_sat hfc) ?_ ?_
  · rintro e s₃ ⟨-, -, done, hs⟩
    rw [hv₂] at hs
    rcases hens.origin with ⟨rfl, hr, -⟩ | ⟨rfl, -⟩
    · exact fileLeft_of_stored h (fun hl => hr fun hz => hl (h.eq_nil_iff.mpr hz)) hre hs
    · -- the clusters of a file that is too large are not counted, and a new chain is written to
      exact .apart ((hre.rewritten.store hs).preserved.mono (by simp))
  · rintro ⟨⟩ s₃ ⟨-, hnil | hover⟩
    · rw [hnil] at hdata
      simp at hdata
    · omega

/-- Too much data to overwrite with, of which the clusters are counted: there are not as many. -/
theorem overwriteLarge_left {α : Type} {k : Nat → Driver α}
    (hfuel : env.geometry.totalClusters < env.fuel) (hrel : ¬ env.Faulty)
    (h : FileChain env.geometry s.fat first l)
    (hlong : clustersForSize env.geometry oldSize ≤ l.length) (hdata : 2 ^ 31 < data.length)
    (hcount : data.length + env.geometry.clusterSize ≤ 2 ^ 32) :
    Sat (do
      let firstCluster ← ensureClusterChainLength env first
        (clustersForSize env.geometry oldSize) (clustersForSize env.geometry data.length)
      let firstCluster ← trimClusterChain env firstCluster
        (clustersForSize env.geometry data.length)
      if ← flushFat env then do
        writeDataToChain env firstCluster 0 data
        k firstCluster
      else raise .ioError) s (fun _ _ => False)
      (fun _ s' => FileLeft env.geometry (s.volume env.geometry) (s'.volume env.geometry) l first
        oldSize) := by
  refine Sat.bind (ensureClusterChainLength_sat hfuel h hlong)
    (fun e s' hf => fileLeft_of_growth hrel h hf) ?_
  rintro r s₁ ⟨base, taken, hens⟩
  exfalso
  have hcap := hens.realloc.fileChain.capacity
  have hfits := le_clustersForSize_mul (g := env.geometry) data.length hcount
  have hlen : clustersForSize env.geometry data.length ≤ (base ++ taken).length := by
    have := hens.length
    rw [List.length_append]
    rcases hens.start with rfl | ⟨rfl, -, h0⟩ <;> omega
  have := Nat.mul_le_mul_right env.geometry.clusterSize hlen
  omega

theorem freeClusterChainInMemory_defined : Defined (freeClusterChainInMemory env first) := by
  refine Defined.loop (fun c => ?_) _ _
  refine Defined.ite ?_ Defined.pure
  exact Defined.bind Defined.get fun _ => Defined.bind Defined.modify fun _ => Defined.pure

theorem writeSectors_defined {fails : Nat → Bool} {room lba count : Nat} {cursor : Nat → UInt8} :
    Defined (writeSectors fails room lba count cursor) := by
  induction room generalizing lba count cursor with
  | zero => exact Defined.pure
  | succ room ih =>
    refine Defined.ite Defined.pure (Defined.bind ?_ fun b => Defined.ite ih Defined.pure)
    intro s s' h
    unfold blockWriteSectors at h
    simp only at h
    split at h <;> cases h

theorem flushFat_defined : Defined (flushFat env) := by
  have hcopies : ∀ copies i, Defined (flushCopies env copies i) := by
    intro copies
    induction copies with
    | zero => exact fun _ => Defined.pure
    | succ copies ih =>
      intro i
      refine Defined.bind Defined.get fun s => Defined.bind writeSectors_defined fun b => ?_
      exact Defined.ite (ih _) Defined.pure
  exact hcopies _ _

/-- Where the count wraps to zero, the whole chain is freed before the data is refused. -/
theorem overwriteWrapped_run {α : Type} {k : Nat → Driver α} {current : Nat}
    (hfuel : env.geometry.totalClusters < env.fuel) (hrel : ¬ env.Faulty)
    (h : FileChain env.geometry s.fat first l) (hne : data ≠ [])
    (hzero : clustersForSize env.geometry data.length = 0) :
    ∃ s', (do
      let firstCluster ← ensureClusterChainLength env first current
        (clustersForSize env.geometry data.length)
      let firstCluster ← trimClusterChain env firstCluster
        (clustersForSize env.geometry data.length)
      if ← flushFat env then do
        writeDataToChain env firstCluster 0 data
        k firstCluster
      else raise .ioError : Driver α) s = .error .ioError s' ∧
      Rewritten env.geometry (s.volume env.geometry) (s'.volume env.geometry) l [] 0 := by
  rw [hzero]
  have hens : ensureClusterChainLength env first current 0 s = .ok first s := by
    unfold ensureClusterChainLength
    rw [if_pos (Nat.zero_le current)]
    rfl
  have hdef : Defined (trimClusterChain env first 0) := by
    unfold trimClusterChain
    rw [if_pos rfl]
    exact Defined.ite (Defined.bind freeClusterChainInMemory_defined fun _ => Defined.pure)
      Defined.pure
  obtain ⟨r, s₁, htrim, hre⟩ :=
    (trimClusterChain_sat hfuel h (Nat.zero_le l.length)).exists_ok hdef
  rw [List.take_zero] at hre
  obtain rfl : r = 0 := hre.fileChain.eq_nil_iff.mp rfl
  obtain ⟨b, s₂, hflush, hv₂, hb⟩ := Sat.exists_ok flushFat_defined (flushFat_sat (s := s₁))
  have hb : b = true := by
    by_contra hfalse
    exact hrel (hb (Bool.eq_false_iff.mpr hfalse))
  have hwrite : writeDataToChain env 0 0 data s₂ = .error .ioError s₂ := by
    unfold writeDataToChain
    rw [if_neg hne, if_pos Nat.zero_lt_two]
    rfl
  refine ⟨s₂, ?_, ?_⟩
  · rw [bind_of_ok hens, bind_of_ok htrim, bind_of_ok hflush, hb, if_pos rfl]
    change Prog.bind _ _ s₂ = _
    unfold Prog.bind
    rw [hwrite]
  · rw [hv₂]
    exact hre.rewritten

end

/-! ## The file afterwards -/

section

variable {ok : List DirectoryEntry → Prop} {g : Geometry} {v v' : Volume}
  {D : Nat → Prop} {own own' : Owner → List Nat} {d : Nat} {it : Item} {path : CStr}
  {e : DirectoryEntry} {old : List UInt8}

/-- Everything that a volume says about the file is as before. -/
theorem FileLeft.untouched (h : Sound ok g v D own) (hd : D d)
    (hit : it ∈ itemsOf (dirEntries g v d)) (hfile : it.entry.isDirectory = false)
    (hleft : FileLeft g v v' (own (.slot d it.index)) it.entry.entryFirstCluster it.entry.size) :
    ∃ own', Untouched ok g v v' D own own' := by
  cases hleft with
  | apart hp => exact ⟨own, untouched_of_preserved h hp⟩
  | grown taken r hr hw hcontent =>
    by_cases hl : own (.slot d it.index) = []
    · rw [hl, List.nil_append] at hw
      exact ⟨own, untouched_of_preserved h (hw.preserved.mono (by simp))⟩
    · rw [hr hl] at hw
      exact ⟨_, untouched_of_rewritten h hd hit hfile hl hw hcontent⟩

/-- A file without clusters has nothing that could be touched. -/
theorem FileLeft.preserved {first oldSize : Nat} (h : FileLeft g v v' [] first oldSize) :
    Preserved v v' (fun _ => False) := by
  cases h with
  | grown taken r _ hw _ => exact hw.preserved.mono (by simp)
  | apart hp => exact hp

theorem Untouched.fileKept (hs : Sound ok g v D own) (h : Untouched ok g v v' D own own')
    (hres : resolve g v (splitComponents path) = .ok (some e)) (hfile : e.isDirectory = false)
    (hold : fileContent g v e = .ok old) : FileKept g v' path e old := by
  refine ⟨(h.resolve_eq hs).trans hres, (h.fileContent_eq hs hres hfile).trans hold, ?_⟩
  obtain ⟨d, it, hd, hit, rfl⟩ := hs.entry_of_resolve hres
  have hit' : it ∈ itemsOf (dirEntries g v' d) := by
    rw [(h.dirs d hd).2]
    exact hit
  have hchain := (h.sound.entryOk hd hit').chain
  rw [hchain.clusterChain_eq]
  exact hchain

end

/-! ## The call -/

section

variable {ok : List DirectoryEntry → Prop} [DirRules ok] {env : Env} {s : State}
  {D : Nat → Prop} {own own' : Owner → List Nat} {path name parentPath : CStr}
  {e : DirectoryEntry} {r : Option DirectoryEntry} {it : Item} {append : Bool}
  {data old : List UInt8}

omit [DirRules ok] in
/-- What an account says about a file whose bytes are known. -/
theorem Sound.fileChain_fits {g : Geometry} {v : Volume} {d : Nat} (h : Sound ok g v D own)
    (hd : D d) (hit : it ∈ itemsOf (dirEntries g v d)) (hold : fileContent g v it.entry = .ok old) :
    it.entry.size ≤ (own (.slot d it.index)).length * g.clusterSize := by
  rw [h.chain_eq hd (liveEntries_item hit)]
  unfold fileContent at hold
  split at hold
  · assumption
  · cases hold

theorem length_of_fileContent {g : Geometry} {v : Volume} (hold : fileContent g v e = .ok old) :
    old.length = e.size := by
  unfold fileContent at hold
  split at hold
  · rw [← Except.ok.inj hold, chainContent_length]
  · cases hold

/-- The count of clusters does not wrap where a file is overwritten that has a chain to lose. -/
def CountsClusters (g : Geometry) (v : Volume) (path : CStr) (data : List UInt8) (append : Bool) :
    Prop :=
  append = true ∨ data.length + g.clusterSize ≤ 2 ^ 32 ∨
    ∀ e, resolve g v (splitComponents path) = .ok (some e) → e.isDirectory = false →
      e.entryFirstCluster = 0

/-- A call with more data than a chain can hold, on a chain of which the clusters are counted. -/
theorem writeLarge_left {α : Type} {k k' : Nat → Driver α} {l : List Nat} {first oldSize : Nat}
    (hfuel : env.geometry.totalClusters < env.fuel) (hrel : ¬ env.Faulty)
    (hfc : FileChain env.geometry s.fat first l)
    (hlong : clustersForSize env.geometry oldSize ≤ l.length)
    (hdata : 2 ^ 31 < data.length) (hlt : data.length < 2 ^ 32)
    (hcount : append = true ∨ data.length + env.geometry.clusterSize ≤ 2 ^ 32 ∨ l = []) :
    Sat (if append then (do
      let newSize := (oldSize + data.length) % 2 ^ 32
      let firstCluster ← ensureClusterChainLength env first
        (clustersForSize env.geometry oldSize) (clustersForSize env.geometry newSize)
      if ← flushFat env then do
        writeDataToChain env firstCluster oldSize data
        k firstCluster
      else raise .ioError) else do
      let requiredClusters := clustersForSize env.geometry data.length
      let firstCluster ← ensureClusterChainLength env first
        (clustersForSize env.geometry oldSize) requiredClusters
      let firstCluster ← trimClusterChain env firstCluster requiredClusters
      if ← flushFat env then do
        writeDataToChain env firstCluster 0 data
        k' firstCluster
      else raise .ioError) s (fun _ _ => False)
      (fun _ s' => FileLeft env.geometry (s.volume env.geometry) (s'.volume env.geometry) l first
        oldSize) := by
  refine Sat.ite (fun _ => appendLarge_left hfuel hrel hfc hlong hdata) (fun happ => ?_)
  by_cases hsmall : data.length + env.geometry.clusterSize ≤ 2 ^ 32
  · exact overwriteLarge_left hfuel hrel hfc hlong hdata hsmall
  · -- there is no chain to lose
    obtain rfl := (hcount.resolve_left happ).resolve_left hsmall
    have hne : data ≠ [] := by
      rintro rfl
      simp at hdata
    have hzero := clustersForSize_oversized (g := env.geometry) (by omega) hlt
    obtain ⟨s', hrun, hw⟩ := overwriteWrapped_run hfuel hrel hfc hne hzero
    unfold Sat
    rw [hrun]
    exact .apart (hw.preserved.mono (by simp))

/-- A call with more data than a chain can hold fails and leaves every file, unless the count of
clusters wraps and there is a chain to lose. -/
theorem fat32WriteFile_large_left (hfuel : env.geometry.totalClusters < env.fuel)
    (hrel : ¬ env.Faulty) {v : Volume} (hv : s.volume env.geometry = v)
    (h : Sound ok env.geometry v D own) (hdata : 2 ^ 31 < data.length)
    (hlt : data.length < 2 ^ 32) (hcount : CountsClusters env.geometry v path data append) :
    Sat (fat32WriteFile env path data append) s (fun _ _ => False)
      (fun _ s' => ∃ own', Untouched ok env.geometry v (s'.volume env.geometry) D own own') := by
  refine startCall_sat hfuel hv h (fun e s' hs' => ⟨own, hs'.symm ▸ Untouched.refl h⟩) ?_
  intro cs r parentDir name parentPath s₁ hv₁ hparent hd
  have hpd : parentDir.firstCluster = dirCluster env.geometry r := by rw [hparent.ref]
  refine Sat.bind (lookupFile_sat hfuel hrel (hv₁.symm ▸ h) (hpd.symm ▸ hd) hparent.valid)
    (fun _ s' hs' => ⟨own, (hs'.trans hv₁).symm ▸ Untouched.refl h⟩) ?_
  rw [hpd, hv₁]
  rintro (_ | ref) s₂ ⟨hv₂, hx⟩
  · -- a new file has no clusters yet
    refine Sat.mono (writeLarge_left hfuel hrel (.inl ⟨rfl, rfl⟩)
      (Nat.le_of_eq clustersForSize_zero) hdata hlt (.inr (.inr rfl))) (fun _ _ h => h) ?_
    intro _ s' hleft
    rw [hv₂] at hleft
    exact ⟨own, untouched_of_preserved h hleft.preserved⟩
  · obtain ⟨it, hfile, hfound, href⟩ := hx
    have hit := (lookup_mem hfound).1
    have hok := h.entryOk hd hit
    have hfat : s₂.fat = v.fat := congrArg Volume.fat hv₂
    have hfc : FileChain env.geometry s₂.fat it.entry.entryFirstCluster
        (own (.slot (dirCluster env.geometry r) it.index)) := hfat.symm ▸ hok.chain
    have hself : resolve env.geometry v (splitComponents path) = .ok (some it.entry) := by
      simp only [hparent.split, resolve_snoc, hparent.resolved, hparent.dir, hparent.valid, hfound]
      rfl
    simp only [href.entry]
    refine Sat.mono (writeLarge_left hfuel hrel hfc (hok.file hfile).2 hdata hlt ?_)
      (fun _ _ h => h) fun _ s' hleft => ?_
    · exact hcount.imp_right fun h => h.imp_right fun h => hfc.eq_nil_iff.mpr (h _ hself hfile)
    · rw [hv₂] at hleft
      exact hleft.untouched h hd hit hfile

/-- Where the path is accepted, the call reaches the file. -/
theorem overwrite_start (hfuel : env.geometry.totalClusters < env.fuel) (hrel : ¬ env.Faulty)
    (h : Sound ok env.geometry (s.volume env.geometry) D own)
    (hsplit : splitPath path s = .ok (parentPath, name) s)
    (hres : resolve env.geometry (s.volume env.geometry) (splitComponents path) = .ok (some e))
    (hfile : e.isDirectory = false) :
    ∃ (k : Nat → Driver Unit) (s₂ : State), s₂.volume env.geometry = s.volume env.geometry ∧
      fat32WriteFile env path data false s = (do
        let firstCluster ← ensureClusterChainLength env e.entryFirstCluster
          (clustersForSize env.geometry e.size) (clustersForSize env.geometry data.length)
        let firstCluster ← trimClusterChain env firstCluster
          (clustersForSize env.geometry data.length)
        if ← flushFat env then do
          writeDataToChain env firstCluster 0 data
          k firstCluster
        else raise .ioError : Driver Unit) s₂ := by
  obtain ⟨-, hcomp, -⟩ := Sat.of_ok splitPath_sat hsplit
  rw [hcomp] at hres
  obtain ⟨r, it, hr, hdir, hvalid, hfound, he⟩ := resolve_snoc_ok hres
  obtain rfl := Option.some.inj he
  have hd := h.dir_of_resolve hr hdir
  -- the parent directory
  obtain ⟨s₁, hv₁, hrun⟩ := resolvePath_run parentPath hfuel hrel h
  rw [hr] at hrun
  have hparent : resolveDirectory env parentPath s =
      .ok ⟨r.isNone, dirCluster env.geometry r⟩ s₁ := by
    unfold resolveDirectory
    rw [bind_of_ok hrun]
    cases r with
    | none => rfl
    | some e =>
      change (if e.isDirectory = true then _ else _ : Driver DirectoryRef) s₁ = _
      have hdir : e.isDirectory = true := hdir
      rw [if_pos hdir]
      rfl
  have hlookup : lookupParentAndName env path s =
      .ok (⟨r.isNone, dirCluster env.geometry r⟩, name, parentPath) s₁ := by
    unfold lookupParentAndName
    rw [bind_of_ok hsplit]
    change (if validateLongName name = true then _ else _ : Driver (DirectoryRef × CStr × CStr)) s = _
    rw [if_pos hvalid, bind_of_ok hparent]
    rfl
  -- the entry in it
  have hsat : Sat (findEntryInClusterDir env (dirCluster env.geometry r) name) s₁
      (fun ref s' => s'.volume env.geometry = s.volume env.geometry ∧ ref.entry = it.entry)
      (fun _ _ => False) := by
    refine Sat.mono (lookup_sat hfuel (hv₁.symm ▸ h) hd hvalid) ?_ ?_
    · rintro ref s' ⟨hv', it', hit', href⟩
      rw [hv₁] at hit'
      obtain rfl := Option.some.inj (hit'.symm.trans hfound)
      exact ⟨hv'.trans hv₁, href.entry⟩
    · rintro code s' ⟨-, ⟨-, hnone⟩ | ⟨-, hf⟩⟩
      · rw [hv₁, hfound] at hnone
        cases hnone
      · exact hrel hf
  obtain ⟨ref, s₂, hfind, hv₂, href⟩ := Sat.exists_ok findEntryInClusterDir_defined hsat
  have hexisting : lookupFile env ⟨r.isNone, dirCluster env.geometry r⟩ name s₁ =
      .ok (some ref) s₂ := by
    have hattempt : attempt (findEntryInClusterDir env (dirCluster env.geometry r) name) s₁ =
        .ok (.ok ref) s₂ := by
      unfold attempt
      rw [hfind]
    unfold lookupFile
    rw [bind_of_ok hattempt]
    change (if ref.entry.isDirectory = true then _ else _ : Driver (Option EntryRef)) s₂ = _
    rw [href, if_neg (by simp [hfile])]
    rfl
  refine ⟨fun firstCluster => storeFileEntry env ⟨r.isNone, dirCluster env.geometry r⟩ name
    (some ref) firstCluster data.length, s₂, hv₂, ?_⟩
  unfold fat32WriteFile
  rw [bind_of_ok (checkMounted_ok h.mounted)]
  simp only
  rw [bind_of_ok hlookup]
  simp only
  rw [bind_of_ok hexisting]
  simp only [href]
  rfl

/-- A path that `split_path` refuses. -/
theorem refused_state {code : Fat32Result} {s' : State} (hm : s.mounted = true)
    (h : (splitPath path s).isOk = false)
    (hcall : fat32WriteFile env path data append s = .error code s') : s' = s := by
  have hsplit : Sat (splitPath path) s (fun _ _ => False) (fun _ s' => s' = s) := by
    have hsat := @splitPath_sat path s
    unfold Sat at hsat ⊢
    cases hx : splitPath path s with
    | ok x s' => rw [hx] at h; cases h
    | error e s' => rw [hx] at hsat; exact hsat.1
    | fault s' => trivial
    | timeout s' => rw [hx] at hsat; exact hsat
  have hsat : Sat (fat32WriteFile env path data append) s (fun _ _ => False)
      (fun _ s' => s' = s) := by
    refine Sat.bind (checkMounted_sat hm) (fun _ _ h => h.elim) ?_
    rintro ⟨⟩ s₀ rfl
    have hlookup : Sat (lookupParentAndName env path) s₀ (fun _ _ => False)
        (fun _ s' => s' = s₀) := Sat.bind hsplit (fun _ _ h => h) fun _ _ h => h.elim
    exact Sat.bind hlookup (fun _ _ h => h) fun _ _ h => h.elim
  exact hsat.of_error hcall

/-- An overwritten file that has a chain loses it where the count of clusters wraps. -/
theorem not_sizesSound_of_wrap (hfuel : env.geometry.totalClusters < env.fuel)
    (hrel : ¬ env.Faulty) (h : Sound ok env.geometry (s.volume env.geometry) D own)
    (hres : resolve env.geometry (s.volume env.geometry) (splitComponents path) = .ok (some e))
    (hfile : e.isDirectory = false)
    (hold : fileContent env.geometry (s.volume env.geometry) e = .ok old)
    (hdata : data.length < 2 ^ 32) (hwrap : 2 ^ 32 < data.length + env.geometry.clusterSize)
    (hne : old ≠ []) (hsplit : (splitPath path s).isOk = true) :
    ¬ SizesSound env s path data false e old := by
  intro hsound
  have hle := env.geometry.clusterSize_le
  obtain ⟨⟨parentPath, name⟩, s', hsplit⟩ := exists_ok_of_isOk hsplit
  obtain rfl := (Sat.of_ok splitPath_sat hsplit).1
  obtain ⟨d, it, hd, hit, rfl⟩ := h.entry_of_resolve hres
  have hok := h.entryOk hd hit
  have hdne : data ≠ [] := by
    rintro rfl
    simp only [List.length_nil] at hwrap
    omega
  obtain ⟨k, s₂, hv₂, hcall⟩ := overwrite_start hfuel hrel h hsplit hres hfile
  have hfat : s₂.fat = (s'.volume env.geometry).fat := congrArg Volume.fat hv₂
  have hfc : FileChain env.geometry s₂.fat it.entry.entryFirstCluster _ := hfat.symm ▸ hok.chain
  have hzero := clustersForSize_oversized (g := env.geometry) (by omega) hdata
  obtain ⟨s₃, hrun, hw⟩ := overwriteWrapped_run hfuel hrel hfc hdne hzero
  have hkept := hsound.error _ _ (hcall.trans hrun)
  -- the entry still names a cluster, and this cluster is free
  have hfirst : it.entry.entryFirstCluster ≠ 0 := by
    intro h0
    have hlen := length_of_fileContent hold
    rw [(hok.file hfile).1.mp h0] at hlen
    exact hne (List.length_eq_zero_iff.mp hlen)
  have hl := mt hok.chain.eq_nil_iff.mp hfirst
  have hfreed := hw.links.freed _ ((hok.chain.chain_of_ne_nil hl).head_mem hl) (by simp)
  have hl' := mt hkept.chain.eq_nil_iff.mp hfirst
  have hch := hkept.chain.chain_of_ne_nil hl'
  exact hch.fat_ne_zero _ (hch.head_mem hl') hfreed

/-- `fat32_write_file` works with no wrapped quantity exactly where the count of clusters does not
wrap, or there is nothing to lose. -/
theorem fat32WriteFile_sizes_iff (hfuel : env.geometry.totalClusters < env.fuel)
    (hrel : ¬ env.Faulty) (hwf : WellFormed env.geometry (s.volume env.geometry))
    (hres : resolve env.geometry (s.volume env.geometry) (splitComponents path) = .ok (some e))
    (hfile : e.isDirectory = false)
    (hold : fileContent env.geometry (s.volume env.geometry) e = .ok old)
    (hdata : data.length < 2 ^ 32) :
    SizesSound env s path data append e old ↔
      (splitPath path s).isOk = false ∨ append = true ∨
        data.length + env.geometry.clusterSize ≤ 2 ^ 32 ∨ old = [] := by
  have hs := hwf.sound
  constructor
  · intro hsound
    by_contra hcond
    simp only [not_or, Bool.not_eq_false, Bool.not_eq_true, not_le] at hcond
    obtain ⟨hsplit, rfl, hwrap, hne⟩ := hcond
    exact not_sizesSound_of_wrap hfuel hrel hs hres hfile hold hdata hwrap hne hsplit hsound
  · intro hcond
    constructor
    · intro s' hcall
      by_cases hsmall : data.length ≤ 2 ^ 31
      · obtain ⟨d, it, hd, hit, rfl⟩ := hs.entry_of_resolve hres
        have hfit := hs.fileChain_fits hd hit hold
        have hcap := (hs.entryOk hd hit).chain.capacity
        have hle := env.geometry.clusterSize_le
        have hpos := env.geometry.clusterSize_pos
        unfold trueLength requiredClusters
        cases append with
        | false => exact (Nat.zero_add _).trans_le (le_clustersForSize_mul _ (by omega))
        | true =>
          have hlt : it.entry.size + data.length < 2 ^ 32 := by omega
          simp only [if_true, Nat.mod_eq_of_lt hlt]
          exact le_clustersForSize_mul _ (by omega)
      · exact ((fat32WriteFile_large hfuel hrel hs (by omega)).of_ok hcall).elim
    · intro code s' hcall
      have hkept : ∀ own', Untouched (Tidy SlotTidy) env.geometry (s.volume env.geometry)
          (s'.volume env.geometry) (Reachable env.geometry (s.volume env.geometry))
          (owners env.geometry (s.volume env.geometry)) own' →
          FileKept env.geometry (s'.volume env.geometry) path e old :=
        fun own' hu => hu.fileKept hs hres hfile hold
      by_cases hsmall : data.length ≤ 2 ^ 31
      · rcases (fat32WriteFile_sat hfuel hrel rfl hs hsmall).of_error hcall with
          hv | ⟨_, _, _, _, _, own', -, hf⟩
        · refine hkept (owners env.geometry (s.volume env.geometry)) ?_
          rw [hv]
          exact Untouched.refl hs
        · exact hkept own' hf.untouched
      · rcases hcond with hsplit | hcond
        · obtain rfl := refused_state hwf.mounted hsplit hcall
          exact hkept _ (Untouched.refl hs)
        · have hcount : CountsClusters env.geometry (s.volume env.geometry) path data append := by
            refine hcond.imp_right fun h => h.imp_right ?_
            rintro rfl e' hres' -
            obtain rfl := Option.some.inj (Except.ok.inj (hres.symm.trans hres'))
            obtain ⟨d, it, hd, hit, rfl⟩ := hs.entry_of_resolve hres
            have hsize := length_of_fileContent hold
            rw [List.length_nil] at hsize
            exact ((hs.entryOk hd hit).file hfile).1.mpr hsize.symm
          obtain ⟨own', hu⟩ := (fat32WriteFile_large_left hfuel hrel rfl hs (by omega) hdata
            hcount).of_error hcall
          exact hkept own' hu

end

/-- The entry of the file `A` on the almost full volume. -/
def fullEntry : DirectoryEntry := buildShortEntry (0x41 :: List.replicate 10 0x20) attrArchive 3 512

/-- Its bytes. -/
def fullContent : List UInt8 :=
  chainContent smallGeometry (almostFullState.volume smallGeometry) [3] fullEntry.size

theorem fullEntry_resolves : resolve smallGeometry (almostFullState.volume smallGeometry)
    (splitComponents [slash, 0x41]) = .ok (some fullEntry) := by
  have hsome : (resolve smallGeometry (almostFullState.volume smallGeometry)
      (splitComponents [slash, 0x41])).toOption = some (some fullEntry) := by decide +kernel
  cases h : resolve smallGeometry (almostFullState.volume smallGeometry)
      (splitComponents [slash, 0x41]) with
  | ok r =>
    rw [h] at hsome
    rw [Option.some.inj hsome]
  | error e =>
    rw [h] at hsome
    cases hsome

theorem fullEntry_content : fileContent smallGeometry (almostFullState.volume smallGeometry)
    fullEntry = .ok fullContent := by
  have hchain : clusterChain smallGeometry (almostFullState.volume smallGeometry).fat
      fullEntry.entryFirstCluster = [3] := by decide +kernel
  unfold fileContent
  rw [hchain, if_pos (by decide +kernel)]
  rfl

/-- One byte in place of the 512. -/
theorem fat32WriteFile_sizes_one : SizesSound smallEnv almostFullState [slash, 0x41] [0x58] false
    fullEntry fullContent :=
  (fat32WriteFile_sizes_iff (by decide) smallEnv_reliable (sound_of_check almostFullState_check).2
    fullEntry_resolves (by decide +kernel) fullEntry_content (by decide)).2
    (.inr (.inr (.inl (by decide))))

/-- With `2 ^ 32 - 1` bytes in place of the 512, the clusters are counted as none. -/
theorem fat32WriteFile_sizes_wrap : ¬ SizesSound smallEnv almostFullState [slash, 0x41]
    (List.replicate (2 ^ 32 - 1) 0) false fullEntry fullContent := by
  refine not_sizesSound_of_wrap (by decide) smallEnv_reliable
    (sound_of_check almostFullState_check).1 fullEntry_resolves (by decide +kernel)
    fullEntry_content ?_ ?_ (by decide +kernel) (by decide +kernel)
  · rw [List.length_replicate]
    decide
  · rw [List.length_replicate]
    decide

end FunnyOS.Fat32
