import FunnyOS.Fat32.FatOnDisk
import FunnyOS.Fat32.Operations
import FunnyOS.Lib.Returns

/-!
# When the FAT is on disk

The operations work on the FAT in memory and flush it at different moments. Where they return, the
FAT on disk is the one in memory, or it is the one that was there before the call and the call has
not succeeded or has not changed the FAT.
-/

namespace FunnyOS.Fat32

open Prog

variable {env : Env} {s s' : State} {I : State → Prop}

/-! ## Invariants that data clusters have no part in -/

/-- Only data clusters, the buffer and the record of the requests are other ones. -/
structure DataOnly (g : Geometry) (s s' : State) : Prop where
  fat : s'.fat = s.fat
  disk : ∀ l o, s'.disk l o ≠ s.disk l o → g.InDataArea l

/-- An invariant of the FAT and of the sectors outside the data clusters. -/
def Steady (g : Geometry) (I : State → Prop) : Prop := ∀ s s', I s → DataOnly g s s' → I s'

/-- An invariant that does not depend on the links between clusters. -/
def Unlinked (g : Geometry) (I : State → Prop) : Prop :=
  ∀ s c v, I s → I { s with fat := fat32SetCluster g s.fat c v }

theorem dataOnly_of_eq {g : Geometry} (hfat : s'.fat = s.fat) (hdisk : s'.disk = s.disk) :
    DataOnly g s s' := ⟨hfat, fun l o hne => absurd (by rw [hdisk]) hne⟩

theorem Steady.buffer {g : Geometry} (h : Steady g I) {b : Nat → UInt8} (hs : I s) :
    I { s with clusterBuffer := b } := h _ _ hs (dataOnly_of_eq rfl rfl)

theorem Steady.and {g : Geometry} {J : State → Prop} (h : Steady g I) (h' : Steady g J) :
    Steady g (fun s => I s ∧ J s) := fun s s' hs hd => ⟨h s s' hs.1 hd, h' s s' hs.2 hd⟩

theorem Steady.or {g : Geometry} {J : State → Prop} (h : Steady g I) (h' : Steady g J) :
    Steady g (fun s => I s ∨ J s) := fun s s' hs hd =>
  hs.imp (fun hi => h s s' hi hd) fun hj => h' s s' hj hd

section

variable (h : Steady env.geometry I)

include h

theorem readCluster_maintains {c : Nat} : Maintains I (readCluster env c) := by
  unfold readCluster
  refine .ite (fun _ => .pure) fun _ => .ite (fun _ => ?_) fun _ => .pure
  refine .bind (fun s hs => ?_) fun r => ?_
  · unfold blockReadSectors
    simp only
    split <;> exact h _ _ hs (dataOnly_of_eq rfl rfl)
  · cases r with
    | none => exact .pure
    | some bytes => exact .bind (.modify fun s hs => h.buffer hs) fun _ => .pure

theorem writeCluster_maintains {c : Nat} : Maintains I (writeCluster env c) := by
  unfold writeCluster
  refine .ite (fun _ => .pure) fun _ => .ite (fun hc => ?_) fun _ => .pure
  refine .bind .get fun s₀ s hs => ?_
  unfold blockWriteSectors
  simp only
  split
  · exact h _ _ hs (dataOnly_of_eq rfl rfl)
  · refine h _ _ hs ⟨rfl, fun l o hne => ?_⟩
    by_contra hout
    refine hne (if_neg fun hin => hout ?_)
    exact ⟨c, l - env.geometry.clusterToLba c, hc, by omega, by omega⟩

theorem zeroCluster_maintains {c : Nat} : Maintains I (zeroCluster env c) := by
  refine .bind (.modify fun s hs => h.buffer hs) fun _ => ?_
  refine .bind (writeCluster_maintains h) fun b => ?_
  exact .ite (fun _ => .pure) fun _ => .raise

theorem writeDataToChain_maintains {first start : Nat} {data : List UInt8} :
    Maintains I (writeDataToChain env first start data) := by
  refine .ite (fun _ => .pure) fun _ => .ite (fun _ => .raise) fun _ => .bind .get fun s => ?_
  refine .ite (fun _ => ?_) fun _ => .raise
  apply Maintains.loop
  intro ⟨cluster, offset, cursor⟩
  refine .bind (readCluster_maintains h) fun b => .ite (fun _ => ?_) fun _ => .raise
  refine .bind (.modify fun s hs => h.buffer hs) fun _ => ?_
  refine .bind (writeCluster_maintains h) fun b' => .ite (fun _ => ?_) fun _ => .raise
  refine .ite (fun _ => .pure) fun _ => .bind .get fun s' => ?_
  exact .ite (fun _ => .pure) fun _ => .raise

theorem writeDirectoryEntry_maintains {first i : Nat} {e : DirectoryEntry} :
    Maintains I (writeDirectoryEntry env first i e) := by
  refine .bind .get fun s => .ite (fun _ => .raise) fun _ => ?_
  refine .bind (readCluster_maintains h) fun b => .ite (fun _ => ?_) fun _ => .raise
  refine .bind (.modify fun s hs => h.buffer hs) fun _ => ?_
  exact .bind (writeCluster_maintains h) fun b' => .ite (fun _ => .pure) fun _ => .raise

theorem writeEntrySpanAt_maintains {first : Nat} (entries : List DirectoryEntry) (start : Nat) :
    Maintains I (writeEntrySpanAt env first start entries) := by
  induction entries generalizing start with
  | nil => exact .pure
  | cons e entries ih => exact .bind (writeDirectoryEntry_maintains h) fun _ => ih _

theorem markEntryRangeDeleted_maintains {first : Nat} (count start : Nat) :
    Maintains I (markEntryRangeDeleted env first start count) := by
  induction count generalizing start with
  | zero => exact .pure
  | succ count ih =>
    refine .bind (readDirectoryEntry_maintains fun _ => readCluster_maintains h) fun e => ?_
    exact .bind (writeDirectoryEntry_maintains h) fun _ => ih _

theorem updateDirectoryParent_maintains {c parent : Nat} :
    Maintains I (updateDirectoryParent env c parent) := by
  refine .bind (readCluster_maintains h) fun b => .ite (fun _ => ?_) fun _ => .raise
  refine .bind (.modify fun s hs => h.buffer hs) fun _ => ?_
  exact .bind (writeCluster_maintains h) fun b' => .ite (fun _ => .pure) fun _ => .raise

theorem shortNameExistsInDirectory_maintains {first : Nat} {shortName : List UInt8}
    {ignored : Option (List UInt8)} :
    Maintains I (shortNameExistsInDirectory env first shortName ignored) := by
  apply Maintains.loop
  intro cluster
  refine .ite (fun _ => ?_) fun _ => .pure
  refine .bind (readCluster_maintains h) fun b => .ite (fun _ => ?_) fun _ => .pure
  refine .bind .get fun s => ?_
  split <;> exact .pure

theorem chooseAlias_maintains {first : Nat} {name : CStr} {ignored : Option (List UInt8)} :
    Maintains I (chooseAlias env first name ignored) := by
  apply Maintains.loop
  intro ordinal
  split
  · exact .fault
  · refine .bind (shortNameExistsInDirectory_maintains h) fun b => ?_
    exact .ite (fun _ => .pure) fun _ => .pure

theorem buildNameEntries_maintains {first cluster size : Nat} {name : CStr} {attributes : UInt8}
    {ignored : Option (List UInt8)} :
    Maintains I (buildNameEntries env first name attributes cluster size ignored) := by
  refine .ite (fun _ => ?_) fun _ => .raise
  have halias : Maintains I (chooseAlias env first name ignored >>= fun shortName =>
      if lfnEntryCountForName name + 1 > maxNameEntries then raise .invalidName
      else pure (buildLfnEntries name (shortNameChecksum shortName) (lfnEntryCountForName name)
        ++ [buildShortEntry shortName attributes cluster size])) :=
    .bind (chooseAlias_maintains h) fun _ => .ite (fun _ => .raise) fun _ => .pure
  split
  · exact halias
  · refine .bind (shortNameExistsInDirectory_maintains h) fun b => ?_
    exact .ite (fun _ => halias) fun _ => .pure

theorem directoryIsEmpty_maintains {first : Nat} : Maintains I (directoryIsEmpty env first) := by
  apply Maintains.loop
  intro cluster
  refine .ite (fun _ => ?_) fun _ => .pure
  refine .bind (readCluster_maintains h) fun b => .ite (fun _ => ?_) fun _ => .pure
  refine .bind .get fun s => ?_
  split <;> exact .pure

theorem resolveDirectory_maintains {path : CStr} : Maintains I (resolveDirectory env path) := by
  refine .bind (resolvePath_maintains fun _ => readCluster_maintains h) fun r => ?_
  cases r with
  | none => exact .pure
  | some e => exact .ite (fun _ => .pure) fun _ => .raise

theorem lookupParentAndName_maintains {path : CStr} :
    Maintains I (lookupParentAndName env path) := by
  refine .bind ?_ fun p => .ite (fun _ => ?_) fun _ => .raise
  · refine .ite (fun _ => .raise) fun _ => .ite (fun _ => .raise) fun _ => ?_
    exact .ite (fun _ => .fault) fun _ => .ite (fun _ => .raise) fun _ => .pure
  · exact .bind (resolveDirectory_maintains h) fun _ => .pure

theorem lookupFile_maintains {parent : DirectoryRef} {name : CStr} :
    Maintains I (lookupFile env parent name) := by
  refine .bind (findEntryInClusterDir_maintains fun _ => readCluster_maintains h).attempt
    fun r => ?_
  cases r with
  | ok ref => exact .ite (fun _ => .raise) fun _ => .pure
  | error e => exact .ite (fun _ => .pure) fun _ => .raise

end

/-! ## Invariants that the links have no part in either -/

section

variable (hlinks : Unlinked env.geometry I)

include hlinks

theorem freeClusterChainInMemory_maintains {c : Nat} :
    Maintains I (freeClusterChainInMemory env c) := by
  apply Maintains.loop
  intro cluster
  refine .ite (fun _ => ?_) fun _ => .pure
  exact .bind .get fun s => .bind (.modify fun s hs => hlinks _ _ _ hs) fun _ => .pure

theorem trimClusterChain_maintains {c n : Nat} : Maintains I (trimClusterChain env c n) := by
  unfold trimClusterChain
  refine .ite (fun _ => .ite (fun _ => ?_) fun _ => .pure) fun _ =>
    .ite (fun _ => .pure) fun _ => ?_
  · exact .bind (freeClusterChainInMemory_maintains hlinks) fun _ => .pure
  refine .bind .get fun s => .ite (fun _ => ?_) fun _ => .raise
  refine .bind (.modify fun s hs => hlinks _ _ _ hs) fun _ => .ite (fun _ => ?_) fun _ => .pure
  exact .bind (freeClusterChainInMemory_maintains hlinks) fun _ => .pure

theorem appendClusterToChain_maintains {c : Nat} : Maintains I (appendClusterToChain env c) := by
  refine .bind .get fun s => .ite (fun _ => .raise) fun _ => ?_
  refine .bind (.modify fun s hs => hlinks _ _ _ hs) fun _ => .ite (fun _ => .pure) fun _ => ?_
  refine .bind .get fun s' => .bind (.loop (fun cluster => ?_) _ _) fun last => ?_
  · exact .ite (fun _ => .pure) fun _ => .pure
  · exact .bind (.modify fun s hs => hlinks _ _ _ hs) fun _ => .pure

theorem allocateLinks_maintains (count first last : Nat) :
    Maintains I (allocateLinks env count first last) := by
  induction count generalizing first last with
  | zero => exact .pure
  | succ count ih =>
    refine .bind .get fun s => .ite (fun _ => ?_) fun _ => ?_
    · exact .bind (freeClusterChainInMemory_maintains hlinks) fun _ => .raise
    · refine .bind (.modify fun s hs => hlinks _ _ _ hs) fun _ => .ite (fun _ => ?_) fun _ => ih _ _
      exact .bind (.modify fun s hs => hlinks _ _ _ hs) fun _ => ih _ _

variable (h : Steady env.geometry I)

include h

theorem zeroLinks_maintains {first : Nat} (count c : Nat) :
    Maintains I (zeroLinks env first count c) := by
  induction count generalizing c with
  | zero => exact .pure
  | succ count ih =>
    refine .ite (fun _ => ?_) fun _ => .pure
    refine .bind (zeroCluster_maintains h).attempt fun r => ?_
    cases r with
    | error e => exact .bind (freeClusterChainInMemory_maintains hlinks) fun _ => .raise
    | ok u => exact .bind .get fun s => .ite (fun _ => .pure) fun _ => ih _

theorem allocateClusterChain_maintains {n : Nat} : Maintains I (allocateClusterChain env n) := by
  refine .ite (fun _ => .pure) fun _ => .bind (allocateLinks_maintains hlinks _ _ _) fun first => ?_
  exact .bind (zeroLinks_maintains hlinks h _ _) fun _ => .pure

theorem growChain_maintains {first : Nat} (n : Nat) : Maintains I (growChain env first n) := by
  induction n with
  | zero => exact .pure
  | succ n ih =>
    refine .bind (appendClusterToChain_maintains hlinks) fun c => ?_
    refine .bind (zeroCluster_maintains h).attempt fun r => ?_
    cases r with
    | error e => exact .bind (.modify fun s hs => hlinks _ _ _ hs) fun _ => .raise
    | ok u => exact ih

theorem ensureClusterChainLength_maintains {first current required : Nat} :
    Maintains I (ensureClusterChainLength env first current required) := by
  refine .ite (fun _ => .pure) fun _ => .ite (fun _ => allocateClusterChain_maintains hlinks h) ?_
  exact fun _ => .bind (growChain_maintains hlinks h _) fun _ => .pure

end

/-! ## The state of the device -/

/-- A FAT that can be stored on disk. -/
structure Storable (g : Geometry) (fat : Nat → Nat) : Prop where
  fits : ∀ c, fat c < 2 ^ 32
  beyond : ∀ c, g.sectorsPerFat * 128 ≤ c → fat c = 0

/-- The boot sector is `boot`, and the FAT can be stored on disk. -/
structure Intact (g : Geometry) (boot : Nat → UInt8) (s : State) : Prop where
  boot : ∀ o < sectorSize, s.disk g.partitionLba o = boot o
  storable : Storable g s.fat

/-- The FAT on disk is the one in memory. -/
structure Synced (g : Geometry) (boot : Nat → UInt8) (s : State) : Prop where
  intact : Intact g boot s
  onDisk : OnDisk g s.fat s

/-- The FAT on disk is `fat`, whatever is in memory. -/
structure Behind (g : Geometry) (boot : Nat → UInt8) (fat : Nat → Nat) (s : State) : Prop where
  intact : Intact g boot s
  onDisk : OnDisk g fat s

section

variable {g : Geometry} {boot : Nat → UInt8} {fat mem : Nat → Nat}

theorem Synced.behind (h : Synced g boot s) : Behind g boot s.fat s := ⟨h.intact, h.onDisk⟩

/-- Sectors outside the data clusters stay. -/
theorem DataOnly.disk_eq {l o : Nat} (h : DataOnly g s s') (hl : ¬ g.InDataArea l) :
    s'.disk l o = s.disk l o := by
  by_contra hne
  exact hl (h.disk l o hne)

theorem OnDisk.of_dataOnly (h : OnDisk g fat s) (hd : DataOnly g s s') : OnDisk g fat s' := by
  intro k hk o ho
  rw [hd.disk_eq fun hin => Geometry.not_inFatArea_of_data hin (Geometry.fatSector_inFatArea hk)]
  exact h k hk o ho

theorem Intact.of_dataOnly (h : Intact g boot s) (hd : DataOnly g s s') : Intact g boot s' where
  boot o ho := (hd.disk_eq Geometry.partitionLba_not_inDataArea).trans (h.boot o ho)
  storable := hd.fat ▸ h.storable

theorem steady_behind : Steady g (Behind g boot fat) :=
  fun _ _ hs hd => ⟨hs.intact.of_dataOnly hd, hs.onDisk.of_dataOnly hd⟩

theorem steady_synced : Steady g (Synced g boot) :=
  fun _ _ hs hd => ⟨hs.intact.of_dataOnly hd, hd.fat ▸ hs.onDisk.of_dataOnly hd⟩

theorem steady_intact : Steady g (Intact g boot) := fun _ _ hs hd => hs.of_dataOnly hd

/-- The FAT in memory stays. -/
theorem steady_fat : Steady g (fun s => s.fat = mem) := fun _ _ hs hd => hd.fat.trans hs

/-- A link between clusters can be stored on disk. -/
theorem Storable.set {c v : Nat} (h : Storable g fat) : Storable g (fat32SetCluster g fat c v) := by
  by_cases hc : g.isValidDataCluster c = true
  · have hset : fat32SetCluster g fat c v = fun x => if x = c then v % 0x10000000 else fat x :=
      fat32SetCluster_of_valid hc v
    have hlt := (g.isValidDataCluster_iff.mp hc).2
    have hle := g.totalClusters_le
    simp only [sectorSize] at hle
    refine ⟨fun x => ?_, fun x hx => ?_⟩
    · simp only [hset]
      split
      · omega
      · exact h.fits x
    · simp only [hset]
      rw [if_neg (by omega)]
      exact h.beyond x hx
  · have hset : fat32SetCluster g fat c v = fat := if_neg hc
    rw [hset]
    exact h

theorem unlinked_intact : Unlinked g (Intact g boot) :=
  fun _ _ _ hs => ⟨hs.boot, hs.storable.set⟩

theorem unlinked_behind : Unlinked g (Behind g boot fat) :=
  fun _ _ _ hs => ⟨unlinked_intact _ _ _ hs.intact, hs.onDisk⟩

end

/-! ## Where the calls return -/

section

variable {boot : Nat → UInt8} {fat : Nat → Nat} {path : CStr}

/-- `flush_fat` brings the device up to date. -/
theorem Intact.flush (h : Intact env.geometry boot s) (hrel : ¬ env.Faulty) :
    ∃ s', flushFat env s = .ok true s' ∧ Synced env.geometry boot s' := by
  obtain ⟨s', hrun, hfat, hdisk, hframe⟩ := flushFat_run hrel s
  refine ⟨s', hrun, ⟨fun o ho => ?_, hfat.symm ▸ h.storable⟩, hfat.symm ▸ hdisk⟩
  have hsame : s'.disk env.geometry.partitionLba o = s.disk env.geometry.partitionLba o := by
    by_contra hne
    exact Geometry.partitionLba_not_inFatArea (hframe _ _ hne)
  rw [hsame]
  exact h.boot o ho

/-- What follows a flush. -/
theorem Intact.flush_bind {α : Type} {f : Bool → Driver α} {Q : α → State → Prop}
    {E : Fat32Result → State → Prop} (h : Intact env.geometry boot s) (hrel : ¬ env.Faulty)
    (hf : ∀ s', Synced env.geometry boot s' → Returns (f true) s' Q E) :
    Returns (flushFat env >>= f) s Q E := by
  obtain ⟨s', hrun, hs'⟩ := h.flush hrel
  have hflush : Returns (flushFat env) s (fun b s₁ => b = true ∧ s₁ = s') (fun _ _ => False) := by
    unfold Returns
    rw [hrun]
    exact ⟨rfl, rfl⟩
  refine hflush.bind (fun _ _ h => h.elim) fun b s₁ hb => ?_
  rw [hb.1, hb.2]
  exact hf s' hs'

/-- `append_cluster_to_chain` fails only where it has changed nothing. -/
theorem appendClusterToChain_returns {first : Nat} (h : Intact env.geometry boot s) :
    Returns (appendClusterToChain env first) s
      (fun c s' => env.geometry.isValidDataCluster c = true ∧ Intact env.geometry boot s')
      (fun _ s' => s' = s) := by
  unfold appendClusterToChain
  refine Returns.get_bind (Returns.ite (fun _ => Returns.raise rfl) fun hfree => ?_)
  have hc : env.geometry.isValidDataCluster (findFreeCluster env.geometry s.fat) = true := by
    rcases findFreeCluster_spec env.geometry s.fat with ⟨h0, -⟩ | ⟨-, hmem⟩
    · exact absurd h0 hfree
    · exact (mem_freeClusters.mp hmem).1
  refine Returns.modify_bind ?_
  have h₁ := unlinked_intact _ (findFreeCluster env.geometry s.fat) endOfChain h
  refine Returns.ite (fun _ => Returns.pure ⟨hc, h₁⟩) fun _ => Returns.get_bind ?_
  refine Returns.bind (F := fun _ _ => False) (Returns.loop (Q := fun _ => Intact env.geometry boot)
    (fun _ => Intact env.geometry boot) (fun cluster s' hs' => ?_) _ _ _ h₁)
    (fun _ _ h => h.elim) fun last s' hs' => ?_
  · exact Returns.ite (fun _ => Returns.pure hs') fun _ => Returns.pure hs'
  · exact Returns.modify_bind (Returns.pure ⟨hc, unlinked_intact _ _ _ hs'⟩)

/-- `find_free_entry_in_cluster_dir` either has flushed what it has linked, or has linked
nothing. -/
theorem findFreeEntryInClusterDir_returns {first needed : Nat} {I : State → Prop}
    (hrel : ¬ env.Faulty) (hI : Steady env.geometry I)
    (hintact : ∀ s, I s → Intact env.geometry boot s) (h : I s) :
    Returns (findFreeEntryInClusterDir env first needed) s
      (fun _ s' => I s' ∨ Synced env.geometry boot s')
      (fun _ s' => I s' ∨ Synced env.geometry boot s') := by
  unfold findFreeEntryInClusterDir
  refine Returns.maintains_bind (I := I) (.loop ?_ _ _) h (fun _ _ hs => .inl hs) ?_
  · intro ⟨cluster, index, run⟩
    refine .ite (fun _ => ?_) fun _ => .pure
    refine .bind (readCluster_maintains hI) fun b => .ite (fun _ => ?_) fun _ => .raise
    refine .bind .get fun s => ?_
    simp only
    split
    · exact .pure
    · exact .ite (fun _ => .pure) fun _ => .pure
  intro found s₁ hs₁
  cases found with
  | inr start => exact Returns.pure (.inl hs₁)
  | inl start =>
    refine (appendClusterToChain_returns (hintact s₁ hs₁)).bind (fun _ _ heq => ?_) ?_
    · rw [heq]
      exact .inl hs₁
    intro c s₂ hs₂
    refine ((Returns.of_sat (zeroCluster_sat hs₂.1)).and
      (Returns.of_maintains (zeroCluster_maintains steady_intact) hs₂.2)).bind ?_ ?_
    · exact fun e s' he => absurd he.1.2.1 hrel
    intro _ s₃ hs₃
    exact hs₃.2.flush_bind hrel fun s' hs' => Returns.ite (fun _ => Returns.pure (.inr hs'))
      fun hb => absurd rfl hb

/-- Storing the entry of a file leaves the device up to date. -/
theorem storeFileEntry_returns {parent : DirectoryRef} {name : CStr} {existing : Option EntryRef}
    {first size : Nat} (hrel : ¬ env.Faulty) (h : Synced env.geometry boot s) :
    Returns (storeFileEntry env parent name existing first size) s
      (fun _ => Synced env.geometry boot) (fun _ => Synced env.geometry boot) := by
  cases existing with
  | some ref => exact Returns.of_maintains (writeDirectoryEntry_maintains steady_synced) h
  | none =>
    refine Returns.maintains_bind (buildNameEntries_maintains steady_synced) h (fun _ _ h => h) ?_
    intro entries s₁ hs₁
    refine (findFreeEntryInClusterDir_returns hrel steady_synced (fun _ h => h.intact) hs₁).bind
      (fun _ _ h => h.elim id id) fun slot s₂ hs₂ => ?_
    exact Returns.of_maintains (writeEntrySpanAt_maintains steady_synced _ _) (hs₂.elim id id)

/-- `fat32_write_file`. -/
theorem fat32WriteFile_returns {data : List UInt8} {append : Bool} (hrel : ¬ env.Faulty)
    (h : Behind env.geometry boot fat s) :
    Returns (fat32WriteFile env path data append) s (fun _ => Synced env.geometry boot)
      (fun _ s' => Synced env.geometry boot s' ∨ Behind env.geometry boot fat s') := by
  have hlast : ∀ parent name existing first start size s₁, Synced env.geometry boot s₁ →
      Returns (do
        writeDataToChain env first start data
        storeFileEntry env parent name existing first size) s₁ (fun _ => Synced env.geometry boot)
        (fun _ s' => Synced env.geometry boot s' ∨ Behind env.geometry boot fat s') := by
    intro parent name existing first start size s₁ hs₁
    refine Returns.maintains_bind (writeDataToChain_maintains steady_synced) hs₁
      (fun _ _ h => .inl h) fun _ s₂ hs₂ => ?_
    exact (storeFileEntry_returns hrel hs₂).mono (fun _ _ h => h) fun _ _ h => .inl h
  have hb : ∀ (e : Fat32Result) s', Behind env.geometry boot fat s' →
      Synced env.geometry boot s' ∨ Behind env.geometry boot fat s' := fun _ _ h => .inr h
  unfold fat32WriteFile
  refine Returns.maintains_bind checkMounted_maintains h hb fun _ s₁ hs₁ => ?_
  refine Returns.maintains_bind (lookupParentAndName_maintains steady_behind) hs₁ hb
    fun p s₂ hs₂ => ?_
  refine Returns.maintains_bind (lookupFile_maintains steady_behind) hs₂ hb
    fun existing s₃ hs₃ => ?_
  refine Returns.ite (fun _ => ?_) fun _ => ?_
  · refine Returns.maintains_bind (ensureClusterChainLength_maintains unlinked_behind steady_behind)
      hs₃ hb fun first s₄ hs₄ => ?_
    exact hs₄.intact.flush_bind hrel fun s₅ hs₅ => Returns.ite (fun _ => hlast _ _ _ _ _ _ _ hs₅)
      fun hb => absurd rfl hb
  · refine Returns.maintains_bind (ensureClusterChainLength_maintains unlinked_behind steady_behind)
      hs₃ hb fun first s₄ hs₄ => ?_
    refine Returns.maintains_bind (trimClusterChain_maintains unlinked_behind) hs₄ hb
      fun first s₅ hs₅ => ?_
    exact hs₅.intact.flush_bind hrel fun s₆ hs₆ => Returns.ite (fun _ => hlast _ _ _ _ _ _ _ hs₆)
      fun hb => absurd rfl hb

/-- `fat32_make_dir`. -/
theorem fat32MakeDir_returns (hrel : ¬ env.Faulty) (h : Behind env.geometry boot fat s) :
    Returns (fat32MakeDir env path) s (fun _ => Synced env.geometry boot)
      (fun _ s' => Synced env.geometry boot s' ∨ Behind env.geometry boot fat s') := by
  have hb : ∀ (e : Fat32Result) s', Behind env.geometry boot fat s' →
      Synced env.geometry boot s' ∨ Behind env.geometry boot fat s' := fun _ _ h => .inr h
  unfold fat32MakeDir
  refine Returns.maintains_bind checkMounted_maintains h hb fun _ s₁ hs₁ => ?_
  refine Returns.maintains_bind (lookupParentAndName_maintains steady_behind) hs₁ hb
    fun p s₂ hs₂ => ?_
  refine Returns.maintains_bind
    (findEntryInClusterDir_maintains fun _ => readCluster_maintains steady_behind).attempt hs₂ hb
    fun r s₃ hs₃ => ?_
  cases r with
  | ok ref => exact Returns.raise (.inr hs₃)
  | error e =>
    refine Returns.ite (fun _ => Returns.raise (.inr hs₃)) fun _ => ?_
    refine Returns.maintains_bind (allocateClusterChain_maintains unlinked_behind steady_behind)
      hs₃ hb fun c s₄ hs₄ => ?_
    refine hs₄.intact.flush_bind hrel fun s₅ hs₅ => Returns.ite (fun _ => ?_)
      fun hb => absurd rfl hb
    refine Returns.modify_bind ?_
    refine Returns.maintains_bind (writeCluster_maintains steady_synced)
      (steady_synced.buffer hs₅) (fun _ _ h => .inl h) fun b s₆ hs₆ => ?_
    refine Returns.ite (fun _ => ?_) fun _ => Returns.raise (.inl hs₆)
    refine Returns.maintains_bind (buildNameEntries_maintains steady_synced) hs₆
      (fun _ _ h => .inl h) fun entries s₇ hs₇ => ?_
    refine (findFreeEntryInClusterDir_returns hrel steady_synced (fun _ h => h.intact) hs₇).bind
      (fun _ _ h => .inl (h.elim id id)) fun slot s₈ hs₈ => ?_
    exact (Returns.of_maintains (writeEntrySpanAt_maintains steady_synced _ _)
      (hs₈.elim id id)).mono (fun _ _ h => h) fun _ _ h => .inl h

/-- `fat32_remove`. -/
theorem fat32Remove_returns (hrel : ¬ env.Faulty) (h : Behind env.geometry boot fat s) :
    Returns (fat32Remove env path) s (fun _ => Synced env.geometry boot)
      (fun _ s' => Synced env.geometry boot s' ∨ Behind env.geometry boot fat s') := by
  have hb : ∀ (e : Fat32Result) s', Behind env.geometry boot fat s' →
      Synced env.geometry boot s' ∨ Behind env.geometry boot fat s' := fun _ _ h => .inr h
  unfold fat32Remove
  refine Returns.maintains_bind checkMounted_maintains h hb fun _ s₁ hs₁ => ?_
  refine Returns.maintains_bind (lookupParentAndName_maintains steady_behind) hs₁ hb
    fun p s₂ hs₂ => ?_
  refine Returns.maintains_bind
    (findEntryInClusterDir_maintains fun _ => readCluster_maintains steady_behind) hs₂ hb
    fun ref s₃ hs₃ => ?_
  have hflush : ∀ s', Behind env.geometry boot fat s' →
      Returns (do if ← flushFat env then pure () else raise .ioError) s'
        (fun _ => Synced env.geometry boot)
        (fun _ s' => Synced env.geometry boot s' ∨ Behind env.geometry boot fat s') :=
    fun s' hs' => hs'.intact.flush_bind hrel fun s₁ hs₁ =>
      Returns.ite (fun _ => Returns.pure hs₁) fun hb => absurd rfl hb
  have hrest : ∀ (removable : Bool) s', Behind env.geometry boot fat s' →
      Returns (if removable then
        markEntryDeleted env ref >>= fun _ =>
          if 2 ≤ ref.entry.entryFirstCluster then
            freeClusterChainInMemory env ref.entry.entryFirstCluster >>= fun _ =>
              flushFat env >>= fun b => if b then pure () else raise .ioError
          else flushFat env >>= fun b => if b then pure () else raise .ioError
        else raise .directoryNotEmpty) s' (fun _ => Synced env.geometry boot)
        (fun _ s' => Synced env.geometry boot s' ∨ Behind env.geometry boot fat s') := by
    intro removable s' hs'
    refine Returns.ite (fun _ => ?_) fun _ => Returns.raise (.inr hs')
    refine Returns.maintains_bind (markEntryRangeDeleted_maintains steady_behind _ _) hs' hb
      fun _ s₄ hs₄ => Returns.ite (fun _ => ?_) fun _ => hflush s₄ hs₄
    exact Returns.maintains_bind (freeClusterChainInMemory_maintains unlinked_behind) hs₄ hb
      fun _ s₅ hs₅ => hflush s₅ hs₅
  refine Returns.ite (fun _ => ?_) fun _ => hrest true s₃ hs₃
  exact Returns.maintains_bind (directoryIsEmpty_maintains steady_behind) hs₃ hb
    fun b s₄ hs₄ => hrest b s₄ hs₄

/-- `fat32_rename` leaves the FAT as it is, in memory and on disk, or leaves the device up to
date. -/
theorem fat32Rename_returns {newPath : CStr} (hrel : ¬ env.Faulty)
    (h : Behind env.geometry boot fat s) :
    Returns (fat32Rename env path newPath) s
      (fun _ s' => Behind env.geometry boot fat s' ∧ s'.fat = s.fat ∨ Synced env.geometry boot s')
      (fun _ s' => Behind env.geometry boot fat s' ∧ s'.fat = s.fat ∨
        Synced env.geometry boot s') := by
  generalize hmem : s.fat = mem
  have hI : Steady env.geometry (fun s' => Behind env.geometry boot fat s' ∧ s'.fat = mem) :=
    steady_behind.and steady_fat
  have hJ : Steady env.geometry (fun s' => (Behind env.geometry boot fat s' ∧ s'.fat = mem) ∨
      Synced env.geometry boot s') := hI.or steady_synced
  unfold fat32Rename
  refine Returns.maintains_bind checkMounted_maintains ⟨h, hmem⟩ (fun _ _ h => .inl h)
    fun _ s₁ hs₁ => ?_
  refine Returns.ite (fun _ => Returns.pure (.inl hs₁)) fun _ => ?_
  refine Returns.maintains_bind (lookupParentAndName_maintains hI) hs₁ (fun _ _ h => .inl h)
    fun p s₂ hs₂ => ?_
  refine Returns.maintains_bind (lookupParentAndName_maintains hI) hs₂ (fun _ _ h => .inl h)
    fun q s₃ hs₃ => ?_
  refine Returns.maintains_bind (findEntryInClusterDir_maintains fun _ => readCluster_maintains hI)
    hs₃ (fun _ _ h => .inl h) fun ref s₄ hs₄ => ?_
  refine Returns.ite (fun _ => Returns.raise (.inl hs₄)) fun _ => ?_
  refine Returns.maintains_bind
    (findEntryInClusterDir_maintains fun _ => readCluster_maintains hI).attempt hs₄
    (fun _ _ h => .inl h) fun r s₅ hs₅ => ?_
  cases r with
  | ok found => exact Returns.raise (.inl hs₅)
  | error e =>
    refine Returns.ite (fun _ => Returns.raise (.inl hs₅)) fun _ => ?_
    refine Returns.maintains_bind (buildNameEntries_maintains hI) hs₅ (fun _ _ h => .inl h)
      fun entries s₆ hs₆ => ?_
    refine Returns.bind (Q := fun _ s' => Behind env.geometry boot fat s' ∧ s'.fat = mem ∨
      Synced env.geometry boot s') ?_ (fun _ _ h => h) fun _ s₇ hs₇ => ?_
    · unfold moveEntrySlots
      refine Returns.ite (fun _ => ?_) fun _ => ?_
      · refine Returns.maintains_bind (writeEntrySpanAt_maintains hI _ _) hs₆ (fun _ _ h => .inl h)
          fun _ s₇ hs₇ => Returns.ite (fun _ => ?_) fun _ => Returns.pure (.inl hs₇)
        exact (Returns.of_maintains (markEntryRangeDeleted_maintains hI _ _) hs₇).mono
          (fun _ _ h => .inl h) fun _ _ h => .inl h
      · refine (findFreeEntryInClusterDir_returns hrel hI (fun _ h => h.1.intact) hs₆).bind
          (fun _ _ h => h) fun slot s₇ hs₇ => ?_
        refine Returns.maintains_bind (writeEntrySpanAt_maintains hJ _ _) hs₇ (fun _ _ h => h)
          fun _ s₈ hs₈ => ?_
        exact Returns.of_maintains (markEntryRangeDeleted_maintains hJ _ _) hs₈
    · refine Returns.ite (fun _ => ?_) fun _ => Returns.pure hs₇
      exact Returns.of_maintains (updateDirectoryParent_maintains hJ) hs₇

end

end FunnyOS.Fat32
