import FunnyOS.Fat32.Api
import FunnyOS.Fat32.Volume

/-!
# Where the requests to the block device go

What `fat32_mount` checks of a boot sector keeps every later request inside the volume, whatever
the FAT and the directories hold: the data area begins behind the FAT copies and ends inside
`total_sectors`, and only clusters that pass `is_valid_data_cluster` are read or written.
-/

namespace FunnyOS.Fat32

open Prog

variable {g : Geometry} {env : Env} {path : CStr}

namespace Geometry

/-- A sector counted from the start of the partition, modulo 2^32. -/
def offset (g : Geometry) (sector : Nat) : Nat := (sector + (2 ^ 32 - g.partitionLba)) % 2 ^ 32

/-- Every sector of a request lies inside the volume. -/
def InVolume (g : Geometry) (request : Nat × Nat) : Prop :=
  ∀ k < request.2, g.offset (request.1 + k) < g.totalSectors

theorem offset_eq_of {a k : Nat} (h : a + k < 2 ^ 32) :
    g.offset ((g.partitionLba + a) % 2 ^ 32 + k) = a + k := by
  have := g.partitionLba_lt
  simp only [offset]
  omega

/-- Where the sectors of a data cluster lie. -/
theorem offset_cluster {c k : Nat} (hc : g.isValidDataCluster c) (hk : k < g.sectorsPerCluster) :
    g.offset (g.clusterToLba c + k) =
      g.reservedSectors + g.fatCount * g.sectorsPerFat + (c - 2) * g.sectorsPerCluster + k := by
  have harea := g.cluster_area hc hk
  have hlt := g.totalSectors_lt
  rw [g.clusterToLba_eq]
  exact offset_eq_of (by omega)

theorem inVolume_cluster {c : Nat} (hc : g.isValidDataCluster c) :
    g.InVolume (g.clusterToLba c, g.sectorsPerCluster) := by
  intro k hk
  rw [offset_cluster hc hk]
  exact g.cluster_area hc hk

/-- A request for sectors of the FAT copies. -/
theorem inVolume_fat {a count : Nat} (h : a + count ≤ g.fatCount * g.sectorsPerFat) :
    g.InVolume ((g.fatLba + a) % 2 ^ 32, count) := by
  intro k hk
  have hlt := g.totalSectors_lt
  have hdata := g.nonData_lt
  have hlba : (g.fatLba + a) % 2 ^ 32 = (g.partitionLba + (g.reservedSectors + a)) % 2 ^ 32 := by
    simp only [fatLba]
    omega
  have hk : k < count := hk
  rw [hlba, offset_eq_of (by omega)]
  omega

end Geometry

/-- The requests recorded so far that were not made before are inside the volume. -/
def NewInVolume (g : Geometry) (before : List (Nat × Nat)) (s : State) : Prop :=
  ∀ r ∈ s.requests, r ∈ before ∨ g.InVolume r

/-- Every request that the routine makes is inside the volume. -/
def RequestsIn {α : Type} (g : Geometry) (x : Driver α) : Prop :=
  ∀ before, Maintains (NewInVolume g before) x

section

variable {α β : Type} {x : Driver α}

theorem RequestsIn.pure {a : α} : RequestsIn g (Pure.pure a : Driver α) := fun _ => .pure

theorem RequestsIn.raise {e : Fat32Result} : RequestsIn g (raise e : Driver α) := fun _ => .raise

theorem RequestsIn.fault : RequestsIn g (fault : Driver α) := fun _ => .fault

theorem RequestsIn.get : RequestsIn g (get : Driver State) := fun _ => .get

/-- An update of the globals makes no request. -/
theorem RequestsIn.modify {f : State → State} (h : ∀ s, (f s).requests = s.requests) :
    RequestsIn g (modify f : Driver Unit) := by
  intro before
  apply Maintains.modify
  intro s hs r hr
  rw [h s] at hr
  exact hs r hr

theorem RequestsIn.bind {f : α → Driver β} (hx : RequestsIn g x) (hf : ∀ a, RequestsIn g (f a)) :
    RequestsIn g (x >>= f) := fun before => (hx before).bind fun a => hf a before

theorem RequestsIn.attempt (hx : RequestsIn g x) : RequestsIn g (attempt x) :=
  fun before => (hx before).attempt

theorem RequestsIn.ite {c : Prop} [Decidable c] {y : Driver α} (hx : c → RequestsIn g x)
    (hy : ¬ c → RequestsIn g y) : RequestsIn g (if c then x else y) :=
  fun before => .ite (fun h => hx h before) (fun h => hy h before)

theorem RequestsIn.loop {body : β → Driver (LoopStep β α)} (h : ∀ b, RequestsIn g (body b))
    (fuel : Nat) (b : β) : RequestsIn g (loop body fuel b) :=
  fun before => .loop (fun b => h b before) fuel b

end

/-! ## Reading

The operations that read keep what the reading of a cluster keeps. -/

section

variable {I : State → Prop} (h : ∀ c, Maintains I (readCluster env c))

include h

theorem readDirectoryEntry_maintains {first i : Nat} :
    Maintains I (readDirectoryEntry env first i) := by
  refine .bind .get fun s => .ite (fun _ => .raise) fun _ => ?_
  refine .bind (h _) fun b => .ite (fun _ => ?_) fun _ => .raise
  exact .bind .get fun _ => .pure

theorem countLfnEntries_maintains {first : Nat} (i : Nat) :
    Maintains I (countLfnEntries env first i) := by
  induction i with
  | zero => exact .pure
  | succ i ih =>
    refine .bind (readDirectoryEntry_maintains h).attempt fun r => ?_
    cases r with
    | error e => exact .pure
    | ok e => exact .ite (fun _ => .bind ih fun _ => .pure) fun _ => .pure

theorem findEntryInClusterDir_maintains {first : Nat} {name : CStr} :
    Maintains I (findEntryInClusterDir env first name) := by
  apply Maintains.loop
  intro ⟨cluster, index, lfn⟩
  refine .ite (fun _ => ?_) fun _ => .raise
  refine .bind (h _) fun b => .ite (fun _ => ?_) fun _ => .raise
  refine .bind .get fun s => ?_
  simp only
  split
  · exact .raise
  · refine .ite (fun _ => ?_) fun _ => .pure
    exact .bind (countLfnEntries_maintains h _) fun _ => .pure
  · exact .pure

theorem listClusterDir_maintains {κ : Type} {first : Nat}
    {callback : κ → Fat32NodeInfo → κ × Bool} {context : κ} :
    Maintains I (listClusterDir env first callback context) := by
  apply Maintains.loop
  intro ⟨cluster, lfn, context⟩
  refine .ite (fun _ => ?_) fun _ => .pure
  refine .bind (h _) fun b => .ite (fun _ => ?_) fun _ => .raise
  refine .bind .get fun s => ?_
  split <;> exact .pure

theorem resolvePath_maintains : Maintains I (resolvePath env path) := by
  unfold resolvePath
  generalize splitComponents path = cs
  generalize (none : Option DirectoryEntry) = r
  induction cs generalizing r with
  | nil => exact .pure
  | cons c cs ih =>
    refine .ite (fun _ => .raise) fun _ => .ite (fun _ => .raise) fun _ => .ite (fun _ => .raise) ?_
    refine fun _ => .bind (findEntryInClusterDir_maintains h) fun ref => .ite (fun _ => .raise) ?_
    exact fun _ => ih _

omit h in
theorem checkMounted_maintains : Maintains I checkMounted :=
  .bind .get fun _ => .ite (fun _ => .pure) fun _ => .raise

theorem fat32Stat_maintains : Maintains I (fat32Stat env path) := by
  refine .bind checkMounted_maintains fun _ => .bind (resolvePath_maintains h) fun r => ?_
  cases r with
  | none => exact .pure
  | some e => exact .ite (fun _ => .fault) fun _ => .pure

variable {κ : Type} {context : κ}

theorem fat32ListDir_maintains {callback : κ → Fat32NodeInfo → κ × Bool} :
    Maintains I (fat32ListDir env path callback context) := by
  refine .bind checkMounted_maintains fun _ => .bind (resolvePath_maintains h) fun r => ?_
  cases r with
  | none => exact listClusterDir_maintains h
  | some e => exact .ite (fun _ => listClusterDir_maintains h) fun _ => .raise

theorem readChunks_maintains {callback : κ → List UInt8 → κ × Bool} {c size : Nat} :
    Maintains I (readChunks env c size callback context) := by
  apply Maintains.loop
  intro ⟨cluster, remaining, context⟩
  refine .ite (fun _ => ?_) fun _ => .ite (fun _ => .pure) fun _ => .raise
  refine .bind (h _) fun b => .ite (fun _ => ?_) fun _ => .raise
  exact .bind .get fun s => .ite (fun _ => .pure) fun _ => .raise

theorem fat32ReadFile_maintains {callback : κ → List UInt8 → κ × Bool} :
    Maintains I (fat32ReadFile env path callback context) := by
  refine .bind checkMounted_maintains fun _ => .bind (resolvePath_maintains h) fun r => ?_
  cases r with
  | none => exact .raise
  | some e => exact .ite (fun _ => .raise) fun _ => readChunks_maintains h

end

/-! ## Transfers -/

theorem blockReadSectors_requestsIn {fails : Nat → Bool} {lba count : Nat}
    (h : g.InVolume (lba, count)) : RequestsIn g (blockReadSectors fails lba count) := by
  intro before s hs
  have hnew : ∀ r ∈ (lba, count) :: s.requests, r ∈ before ∨ g.InVolume r := by
    intro r hr
    rcases List.mem_cons.1 hr with rfl | hr
    · exact .inr h
    · exact hs r hr
  unfold blockReadSectors
  simp only
  split <;> exact hnew

theorem blockWriteSectors_requestsIn {fails : Nat → Bool} {lba count : Nat} {data : Nat → UInt8}
    (h : g.InVolume (lba, count)) : RequestsIn g (blockWriteSectors fails lba count data) := by
  intro before s hs
  have hnew : ∀ r ∈ (lba, count) :: s.requests, r ∈ before ∨ g.InVolume r := by
    intro r hr
    rcases List.mem_cons.1 hr with rfl | hr
    · exact .inr h
    · exact hs r hr
  unfold blockWriteSectors
  simp only
  split <;> exact hnew

theorem readCluster_requestsIn {c : Nat} : RequestsIn env.geometry (readCluster env c) := by
  unfold readCluster
  apply RequestsIn.ite (fun _ => .pure)
  intro _
  apply RequestsIn.ite _ (fun _ => .pure)
  intro hc
  apply RequestsIn.bind (blockReadSectors_requestsIn (Geometry.inVolume_cluster hc))
  intro r
  cases r with
  | none => exact .pure
  | some bytes => exact .bind (.modify fun _ => rfl) fun _ => .pure

theorem writeCluster_requestsIn {c : Nat} : RequestsIn env.geometry (writeCluster env c) := by
  unfold writeCluster
  apply RequestsIn.ite (fun _ => .pure)
  intro _
  apply RequestsIn.ite _ (fun _ => .pure)
  intro hc
  apply RequestsIn.bind .get
  intro s
  exact blockWriteSectors_requestsIn (Geometry.inVolume_cluster hc)

/-- The rounds of `write_sectors` in the FAT area. -/
theorem writeSectors_requestsIn {fails : Nat → Bool} : ∀ (room a count : Nat)
    (cursor : Nat → UInt8), a + count ≤ g.fatCount * g.sectorsPerFat →
    RequestsIn g (writeSectors fails room ((g.fatLba + a) % 2 ^ 32) count cursor) := by
  intro room
  induction room with
  | zero => exact fun _ _ _ _ => .pure
  | succ room ih =>
    intro a count cursor h
    have hlba : ((g.fatLba + a) % 2 ^ 32 + min count 255) % 2 ^ 32 =
        (g.fatLba + (a + min count 255)) % 2 ^ 32 := by omega
    unfold writeSectors
    apply RequestsIn.ite (fun _ => .pure)
    intro _
    apply RequestsIn.bind (blockWriteSectors_requestsIn (Geometry.inVolume_fat (by omega)))
    intro b
    apply RequestsIn.ite _ (fun _ => .pure)
    intro _
    rw [hlba]
    exact ih _ _ _ (by omega)

theorem flushCopies_requestsIn : ∀ (copies i : Nat), i + copies ≤ env.geometry.fatCount →
    RequestsIn env.geometry (flushCopies env copies i) := by
  intro copies
  induction copies with
  | zero => exact fun _ _ => .pure
  | succ copies ih =>
    intro i hi
    have harea : i * env.geometry.sectorsPerFat + env.geometry.sectorsPerFat ≤
        env.geometry.fatCount * env.geometry.sectorsPerFat := by
      rw [← Nat.succ_mul]
      exact Nat.mul_le_mul_right _ (by omega)
    unfold flushCopies
    apply RequestsIn.bind .get
    intro s
    apply RequestsIn.bind (writeSectors_requestsIn _ _ _ _ harea)
    intro b
    exact .ite (fun _ => ih _ (by omega)) (fun _ => .pure)

theorem flushFat_requestsIn : RequestsIn env.geometry (flushFat env) :=
  flushCopies_requestsIn _ _ (by omega)

theorem readFatSectors_requestsIn {fails : Nat → Bool} : ∀ (room a count done : Nat),
    a + count ≤ g.fatCount * g.sectorsPerFat →
    RequestsIn g (readFatSectors fails room ((g.fatLba + a) % 2 ^ 32) count done) := by
  intro room
  induction room with
  | zero => exact fun _ _ _ _ => .pure
  | succ room ih =>
    intro a count done h
    have hlba : ((g.fatLba + a) % 2 ^ 32 + min count 255) % 2 ^ 32 =
        (g.fatLba + (a + min count 255)) % 2 ^ 32 := by omega
    unfold readFatSectors
    apply RequestsIn.ite (fun _ => .pure)
    intro _
    apply RequestsIn.bind (blockReadSectors_requestsIn (Geometry.inVolume_fat (by omega)))
    intro r
    cases r with
    | none => exact .pure
    | some bytes =>
      refine .bind (.modify fun _ => rfl) fun _ => ?_
      rw [hlba]
      exact ih _ _ _ (by omega)

/-! ## Chains -/

theorem freeClusterChainInMemory_requestsIn {c : Nat} :
    RequestsIn g (freeClusterChainInMemory env c) := by
  apply RequestsIn.loop
  intro cluster
  apply RequestsIn.ite _ (fun _ => .pure)
  intro _
  exact .bind .get fun s => .bind (.modify fun _ => rfl) fun _ => .pure

theorem trimClusterChain_requestsIn {c n : Nat} : RequestsIn g (trimClusterChain env c n) := by
  unfold trimClusterChain
  apply RequestsIn.ite
  · intro _
    apply RequestsIn.ite
    · exact fun _ => .bind freeClusterChainInMemory_requestsIn fun _ => .pure
    · exact fun _ => .pure
  · intro _
    apply RequestsIn.ite (fun _ => .pure)
    intro _
    apply RequestsIn.bind .get
    intro s
    apply RequestsIn.ite _ (fun _ => .raise)
    intro _
    refine .bind (.modify fun _ => rfl) fun _ => .ite (fun _ => ?_) fun _ => .pure
    exact .bind freeClusterChainInMemory_requestsIn fun _ => .pure

theorem appendClusterToChain_requestsIn {c : Nat} :
    RequestsIn g (appendClusterToChain env c) := by
  apply RequestsIn.bind .get
  intro s
  apply RequestsIn.ite (fun _ => .raise)
  intro _
  refine .bind (.modify fun _ => rfl) fun _ => .ite (fun _ => .pure) fun _ => .bind .get fun s' => ?_
  refine .bind (.loop (fun cluster => ?_) _ _) fun last => ?_
  · exact .ite (fun _ => .pure) fun _ => .pure
  · exact .bind (.modify fun _ => rfl) fun _ => .pure

theorem zeroCluster_requestsIn {c : Nat} : RequestsIn env.geometry (zeroCluster env c) := by
  refine .bind (.modify fun _ => rfl) fun _ => .bind writeCluster_requestsIn fun b => ?_
  exact .ite (fun _ => .pure) fun _ => .raise

theorem allocateLinks_requestsIn : ∀ (count first last : Nat),
    RequestsIn g (allocateLinks env count first last) := by
  intro count
  induction count with
  | zero => exact fun _ _ => .pure
  | succ count ih =>
    intro first last
    unfold allocateLinks
    apply RequestsIn.bind .get
    intro s
    apply RequestsIn.ite
    · intro _
      exact .bind freeClusterChainInMemory_requestsIn fun _ => .raise
    · intro _
      refine .bind (.modify fun _ => rfl) fun _ => .ite (fun _ => ?_) fun _ => ih _ _
      exact .bind (.modify fun _ => rfl) fun _ => ih _ _

theorem zeroLinks_requestsIn {first : Nat} : ∀ (count c : Nat),
    RequestsIn env.geometry (zeroLinks env first count c) := by
  intro count
  induction count with
  | zero => exact fun _ => .pure
  | succ count ih =>
    intro c
    unfold zeroLinks
    apply RequestsIn.ite _ (fun _ => .pure)
    intro _
    apply RequestsIn.bind zeroCluster_requestsIn.attempt
    intro r
    cases r with
    | error e => exact .bind freeClusterChainInMemory_requestsIn fun _ => .raise
    | ok u => exact .bind .get fun s => .ite (fun _ => .pure) fun _ => ih _

theorem allocateClusterChain_requestsIn {n : Nat} :
    RequestsIn env.geometry (allocateClusterChain env n) := by
  apply RequestsIn.ite (fun _ => .pure)
  intro _
  apply RequestsIn.bind (allocateLinks_requestsIn _ _ _)
  intro first
  exact .bind (zeroLinks_requestsIn _ _) fun _ => .pure

theorem growChain_requestsIn {first : Nat} : ∀ n : Nat,
    RequestsIn env.geometry (growChain env first n) := by
  intro n
  induction n with
  | zero => exact .pure
  | succ n ih =>
    apply RequestsIn.bind appendClusterToChain_requestsIn
    intro c
    apply RequestsIn.bind zeroCluster_requestsIn.attempt
    intro r
    cases r with
    | error e => exact .bind (.modify fun _ => rfl) fun _ => .raise
    | ok u => exact ih

theorem ensureClusterChainLength_requestsIn {first current required : Nat} :
    RequestsIn env.geometry (ensureClusterChainLength env first current required) := by
  apply RequestsIn.ite (fun _ => .pure)
  intro _
  apply RequestsIn.ite (fun _ => allocateClusterChain_requestsIn)
  intro _
  exact .bind (growChain_requestsIn _) fun _ => .pure

theorem writeDataToChain_requestsIn {first start : Nat} {data : List UInt8} :
    RequestsIn env.geometry (writeDataToChain env first start data) := by
  apply RequestsIn.ite (fun _ => .pure)
  intro _
  apply RequestsIn.ite (fun _ => .raise)
  intro _
  apply RequestsIn.bind .get
  intro s
  apply RequestsIn.ite _ (fun _ => .raise)
  intro _
  apply RequestsIn.loop
  intro ⟨cluster, offset, cursor⟩
  apply RequestsIn.bind readCluster_requestsIn
  intro b
  apply RequestsIn.ite _ (fun _ => .raise)
  intro _
  refine .bind (.modify fun _ => rfl) fun _ => .bind writeCluster_requestsIn fun b' => ?_
  apply RequestsIn.ite _ (fun _ => .raise)
  intro _
  apply RequestsIn.ite (fun _ => .pure)
  intro _
  exact .bind .get fun s' => .ite (fun _ => .pure) fun _ => .raise

/-! ## Directories -/

theorem readDirectoryEntry_requestsIn {first i : Nat} :
    RequestsIn env.geometry (readDirectoryEntry env first i) :=
  fun before => readDirectoryEntry_maintains fun _ => readCluster_requestsIn before

theorem writeDirectoryEntry_requestsIn {first i : Nat} {e : DirectoryEntry} :
    RequestsIn env.geometry (writeDirectoryEntry env first i e) := by
  refine .bind .get fun s => .ite (fun _ => .raise) fun _ => ?_
  refine .bind readCluster_requestsIn fun b => .ite (fun _ => ?_) fun _ => .raise
  refine .bind (.modify fun _ => rfl) fun _ => .bind writeCluster_requestsIn fun b' => ?_
  exact .ite (fun _ => .pure) fun _ => .raise

theorem findEntryInClusterDir_requestsIn {first : Nat} {name : CStr} :
    RequestsIn env.geometry (findEntryInClusterDir env first name) :=
  fun before => findEntryInClusterDir_maintains fun _ => readCluster_requestsIn before

theorem shortNameExistsInDirectory_requestsIn {first : Nat} {shortName : List UInt8}
    {ignored : Option (List UInt8)} :
    RequestsIn env.geometry (shortNameExistsInDirectory env first shortName ignored) := by
  apply RequestsIn.loop
  intro cluster
  refine .ite (fun _ => ?_) fun _ => .pure
  refine .bind readCluster_requestsIn fun b => .ite (fun _ => ?_) fun _ => .pure
  apply RequestsIn.bind .get
  intro s
  split <;> exact .pure

theorem chooseAlias_requestsIn {first : Nat} {name : CStr} {ignored : Option (List UInt8)} :
    RequestsIn env.geometry (chooseAlias env first name ignored) := by
  apply RequestsIn.loop
  intro ordinal
  split
  · exact .fault
  · refine .bind shortNameExistsInDirectory_requestsIn fun b => ?_
    exact .ite (fun _ => .pure) fun _ => .pure

theorem buildNameEntries_requestsIn {first cluster size : Nat} {name : CStr} {attributes : UInt8}
    {ignored : Option (List UInt8)} :
    RequestsIn env.geometry (buildNameEntries env first name attributes cluster size ignored) := by
  apply RequestsIn.ite _ (fun _ => .raise)
  intro _
  have halias : RequestsIn env.geometry (chooseAlias env first name ignored >>= fun shortName =>
      if lfnEntryCountForName name + 1 > maxNameEntries then raise .invalidName
      else pure (buildLfnEntries name (shortNameChecksum shortName) (lfnEntryCountForName name)
        ++ [buildShortEntry shortName attributes cluster size])) := by
    apply RequestsIn.bind chooseAlias_requestsIn
    intro shortName
    exact .ite (fun _ => .raise) fun _ => .pure
  split
  · exact halias
  · apply RequestsIn.bind shortNameExistsInDirectory_requestsIn
    intro b
    exact .ite (fun _ => halias) fun _ => .pure

theorem findFreeEntryInClusterDir_requestsIn {first needed : Nat} :
    RequestsIn env.geometry (findFreeEntryInClusterDir env first needed) := by
  apply RequestsIn.bind
  · apply RequestsIn.loop
    intro ⟨cluster, index, run⟩
    refine .ite (fun _ => ?_) fun _ => .pure
    refine .bind readCluster_requestsIn fun b => .ite (fun _ => ?_) fun _ => .raise
    apply RequestsIn.bind .get
    intro s
    simp only
    split
    · exact .pure
    · exact .ite (fun _ => .pure) fun _ => .pure
  · intro found
    cases found with
    | inr start => exact .pure
    | inl start =>
      refine .bind appendClusterToChain_requestsIn fun c => .bind zeroCluster_requestsIn fun _ => ?_
      exact .bind flushFat_requestsIn fun b => .ite (fun _ => .pure) fun _ => .raise

theorem directoryIsEmpty_requestsIn {first : Nat} :
    RequestsIn env.geometry (directoryIsEmpty env first) := by
  apply RequestsIn.loop
  intro ⟨cluster, lfn⟩
  refine .ite (fun _ => ?_) fun _ => .pure
  refine .bind readCluster_requestsIn fun b => .ite (fun _ => ?_) fun _ => .pure
  apply RequestsIn.bind .get
  intro s
  split <;> exact .pure

theorem writeEntrySpanAt_requestsIn {first : Nat} : ∀ (entries : List DirectoryEntry) (i : Nat),
    RequestsIn env.geometry (writeEntrySpanAt env first i entries)
  | [], _ => .pure
  | _ :: rest, _ => .bind writeDirectoryEntry_requestsIn fun _ => writeEntrySpanAt_requestsIn rest _

theorem markEntryRangeDeleted_requestsIn {first : Nat} : ∀ count i : Nat,
    RequestsIn env.geometry (markEntryRangeDeleted env first i count)
  | 0, _ => .pure
  | count + 1, _ => .bind readDirectoryEntry_requestsIn fun _ =>
      .bind writeDirectoryEntry_requestsIn fun _ => markEntryRangeDeleted_requestsIn count _

theorem updateDirectoryParent_requestsIn {c parent : Nat} :
    RequestsIn env.geometry (updateDirectoryParent env c parent) := by
  refine .bind readCluster_requestsIn fun b => .ite (fun _ => ?_) fun _ => .raise
  refine .bind (.modify fun _ => rfl) fun _ => .bind writeCluster_requestsIn fun b' => ?_
  exact .ite (fun _ => .pure) fun _ => .raise

/-! ## Operations -/

theorem splitPath_requestsIn : RequestsIn g (splitPath path) := by
  refine .ite (fun _ => .raise) fun _ => .ite (fun _ => .raise) fun _ => .ite (fun _ => .fault) ?_
  exact fun _ => .ite (fun _ => .raise) fun _ => .pure

theorem resolveDirectory_requestsIn : RequestsIn env.geometry (resolveDirectory env path) := by
  apply RequestsIn.bind fun before => resolvePath_maintains fun _ => readCluster_requestsIn before
  intro r
  cases r with
  | none => exact .pure
  | some e => exact .ite (fun _ => .pure) fun _ => .raise

theorem lookupParentAndName_requestsIn :
    RequestsIn env.geometry (lookupParentAndName env path) := by
  refine .bind splitPath_requestsIn fun p => .ite (fun _ => ?_) fun _ => .raise
  exact .bind resolveDirectory_requestsIn fun _ => .pure

theorem checkMounted_requestsIn : RequestsIn g checkMounted := fun _ => checkMounted_maintains

theorem fat32Stat_requestsIn : RequestsIn env.geometry (fat32Stat env path) :=
  fun before => fat32Stat_maintains fun _ => readCluster_requestsIn before

section

variable {κ : Type} {context : κ}

theorem fat32ListDir_requestsIn {callback : κ → Fat32NodeInfo → κ × Bool} :
    RequestsIn env.geometry (fat32ListDir env path callback context) :=
  fun before => fat32ListDir_maintains fun _ => readCluster_requestsIn before

theorem fat32ReadFile_requestsIn {callback : κ → List UInt8 → κ × Bool} :
    RequestsIn env.geometry (fat32ReadFile env path callback context) :=
  fun before => fat32ReadFile_maintains fun _ => readCluster_requestsIn before

end

theorem storeFileEntry_requestsIn {parent : DirectoryRef} {name : CStr}
    {existing : Option EntryRef} {first size : Nat} :
    RequestsIn env.geometry (storeFileEntry env parent name existing first size) := by
  cases existing with
  | some ref => exact writeDirectoryEntry_requestsIn
  | none =>
    refine .bind buildNameEntries_requestsIn fun entries => ?_
    exact .bind findFreeEntryInClusterDir_requestsIn fun slot => writeEntrySpanAt_requestsIn _ _

theorem lookupFile_requestsIn {parent : DirectoryRef} {name : CStr} :
    RequestsIn env.geometry (lookupFile env parent name) := by
  apply RequestsIn.bind findEntryInClusterDir_requestsIn.attempt
  intro r
  cases r with
  | ok ref => exact .ite (fun _ => .raise) fun _ => .pure
  | error e => exact .ite (fun _ => .pure) fun _ => .raise

theorem fat32WriteFile_requestsIn {data : List UInt8} {append : Bool} :
    RequestsIn env.geometry (fat32WriteFile env path data append) := by
  refine .bind checkMounted_requestsIn fun _ => .bind lookupParentAndName_requestsIn fun p => ?_
  refine .bind lookupFile_requestsIn fun existing => .ite (fun _ => ?_) fun _ => ?_
  · refine .bind ensureClusterChainLength_requestsIn fun first => ?_
    refine .bind flushFat_requestsIn fun b => .ite (fun _ => ?_) fun _ => .raise
    exact .bind writeDataToChain_requestsIn fun _ => storeFileEntry_requestsIn
  · refine .bind ensureClusterChainLength_requestsIn fun first => ?_
    refine .bind trimClusterChain_requestsIn fun first' => ?_
    refine .bind flushFat_requestsIn fun b => .ite (fun _ => ?_) fun _ => .raise
    exact .bind writeDataToChain_requestsIn fun _ => storeFileEntry_requestsIn

theorem fat32MakeDir_requestsIn : RequestsIn env.geometry (fat32MakeDir env path) := by
  refine .bind checkMounted_requestsIn fun _ => .bind lookupParentAndName_requestsIn fun p => ?_
  apply RequestsIn.bind findEntryInClusterDir_requestsIn.attempt
  intro r
  cases r with
  | ok ref => exact .raise
  | error e =>
    refine .ite (fun _ => .raise) fun _ => .bind allocateClusterChain_requestsIn fun c => ?_
    refine .bind flushFat_requestsIn fun b => .ite (fun _ => ?_) fun _ => .raise
    refine .bind (.modify fun _ => rfl) fun _ => .bind writeCluster_requestsIn fun b' => ?_
    refine .ite (fun _ => ?_) fun _ => .raise
    refine .bind buildNameEntries_requestsIn fun entries => ?_
    exact .bind findFreeEntryInClusterDir_requestsIn fun slot => writeEntrySpanAt_requestsIn _ _

theorem fat32Remove_requestsIn : RequestsIn env.geometry (fat32Remove env path) := by
  refine .bind checkMounted_requestsIn fun _ => .bind lookupParentAndName_requestsIn fun p => ?_
  apply RequestsIn.bind findEntryInClusterDir_requestsIn
  intro ref
  have hflush : RequestsIn env.geometry (flushFat env >>= fun b =>
      if b then pure () else raise .ioError) :=
    .bind flushFat_requestsIn fun b => .ite (fun _ => .pure) fun _ => .raise
  have hrest : ∀ removable : Bool, RequestsIn env.geometry (if removable then
      markEntryDeleted env ref >>= fun _ =>
        if 2 ≤ ref.entry.entryFirstCluster then
          freeClusterChainInMemory env ref.entry.entryFirstCluster >>= fun _ =>
            flushFat env >>= fun b => if b then pure () else raise .ioError
        else flushFat env >>= fun b => if b then pure () else raise .ioError
      else raise .directoryNotEmpty) := by
    intro removable
    refine .ite (fun _ => ?_) fun _ => .raise
    refine .bind (markEntryRangeDeleted_requestsIn _ _) fun _ => .ite (fun _ => ?_) fun _ => hflush
    exact .bind freeClusterChainInMemory_requestsIn fun _ => hflush
  exact .ite (fun _ => .bind directoryIsEmpty_requestsIn hrest) fun _ => hrest true

theorem moveEntrySlots_requestsIn {oldParent newParent : DirectoryRef} {ref : EntryRef}
    {entries : List DirectoryEntry} :
    RequestsIn env.geometry (moveEntrySlots env oldParent newParent ref entries) := by
  refine .ite (fun _ => ?_) fun _ => ?_
  · refine .bind (writeEntrySpanAt_requestsIn _ _) fun _ => .ite (fun _ => ?_) fun _ => .pure
    exact markEntryRangeDeleted_requestsIn _ _
  · refine .bind findFreeEntryInClusterDir_requestsIn fun slot => ?_
    exact .bind (writeEntrySpanAt_requestsIn _ _) fun _ => markEntryRangeDeleted_requestsIn _ _

theorem fat32Rename_requestsIn {newPath : CStr} :
    RequestsIn env.geometry (fat32Rename env path newPath) := by
  refine .bind checkMounted_requestsIn fun _ => .ite (fun _ => .pure) fun _ => ?_
  refine .bind lookupParentAndName_requestsIn fun p => .bind lookupParentAndName_requestsIn fun q => ?_
  refine .bind findEntryInClusterDir_requestsIn fun ref => .ite (fun _ => .raise) fun _ => ?_
  apply RequestsIn.bind findEntryInClusterDir_requestsIn.attempt
  intro r
  cases r with
  | ok ref => exact .raise
  | error e =>
    refine .ite (fun _ => .raise) fun _ => .bind buildNameEntries_requestsIn fun entries => ?_
    refine .bind moveEntrySlots_requestsIn fun _ => .ite (fun _ => ?_) fun _ => .pure
    exact updateDirectoryParent_requestsIn

/-! ## Mounting -/

section

variable {partitionLbaStart : Nat} {boot : Nat → UInt8}

/-- The fields of an accepted boot sector are as wide as the boot sector has them. -/
theorem bootGeometry_widths (h : bootGeometry partitionLbaStart boot = some g) :
    g.fatCount < 2 ^ 8 ∧ g.reservedSectors < 2 ^ 16 ∧
      g.partitionLba = partitionLbaStart % 2 ^ 32 := by
  unfold bootGeometry at h
  extract_lets field16 _ _ _ _ _ _ _ _ _ at h
  split at h
  · obtain rfl := Option.some.inj h
    have hlo := (boot 14).toNat_lt
    have hhi := (boot (14 + 1)).toNat_lt
    refine ⟨(boot 16).toNat_lt, ?_, rfl⟩
    change le16 (boot 14) (boot (14 + 1)) < 2 ^ 16
    simp only [le16]
    omega
  · cases h

/-- What the checks of `fat32_mount` establish. The first fields say that nothing that it
computes in 32 bits, apart from the sums with `partition_lba_start`, wraps. -/
structure LayoutOk (g : Geometry) : Prop where
  fatArea : g.fatCount * g.sectorsPerFat < 2 ^ 32
  nonData : g.reservedSectors + g.fatCount * g.sectorsPerFat < 2 ^ 32
  clusters : (g.totalSectors - (g.reservedSectors + g.fatCount * g.sectorsPerFat)) /
    g.sectorsPerCluster + 2 < 2 ^ 32
  fatBytes : g.sectorsPerFat * sectorSize < 2 ^ 32
  clusterBytes : g.sectorsPerCluster * sectorSize < 2 ^ 32
  fatFits : g.sectorsPerFat * sectorSize ≤ maxFatSectors * sectorSize
  index : ∀ c, g.isValidDataCluster c →
    c < maxFatSectors * sectorSize / 4 ∧ c < g.sectorsPerFat * sectorSize / 4
  dataArea : ∀ c k, g.isValidDataCluster c → k < g.sectorsPerCluster →
    g.reservedSectors + g.fatCount * g.sectorsPerFat ≤ g.offset (g.clusterToLba c + k) ∧
      g.offset (g.clusterToLba c + k) < g.totalSectors
  apart : ∀ c c' k k', g.isValidDataCluster c → g.isValidDataCluster c' →
    k < g.sectorsPerCluster → k' < g.sectorsPerCluster → c ≠ c' →
    g.offset (g.clusterToLba c + k) ≠ g.offset (g.clusterToLba c' + k')

theorem layoutOk_of_bootGeometry (h : bootGeometry partitionLbaStart boot = some g) :
    LayoutOk g := by
  obtain ⟨hcount, hreserved, -⟩ := bootGeometry_widths h
  have hfat := g.sectorsPerFat_le
  have hcluster := g.sectorsPerCluster_le
  have harea : g.fatCount * g.sectorsPerFat ≤ 2 ^ 8 * maxFatSectors :=
    Nat.mul_le_mul hcount.le hfat
  have hclusters := g.totalClusters_lt
  have heq := g.totalClusters_eq
  simp only [maxFatSectors, maxClusterSectors] at hfat hcluster harea
  constructor
  · omega
  · omega
  · omega
  · simp only [sectorSize]
    omega
  · simp only [sectorSize]
    omega
  · exact Nat.mul_le_mul_right _ g.sectorsPerFat_le
  · intro c hc
    have hlt := (g.isValidDataCluster_iff.1 hc).2
    have hle := g.totalClusters_le
    simp only [maxFatSectors, sectorSize] at hle ⊢
    omega
  · intro c k hc hk
    rw [Geometry.offset_cluster hc hk]
    exact ⟨by omega, g.cluster_area hc hk⟩
  · intro c c' k k' hc hc' hk hk' hne
    rw [Geometry.offset_cluster hc hk, Geometry.offset_cluster hc' hk']
    rw [g.isValidDataCluster_iff] at hc hc'
    -- the cluster number is the quotient of the place by the length of a cluster
    intro hplace
    have hsame : (c - 2) * g.sectorsPerCluster + k = (c' - 2) * g.sectorsPerCluster + k' := by omega
    have hdiv := congrArg (· / g.sectorsPerCluster) hsame
    simp only [Nat.mul_comm _ g.sectorsPerCluster, Nat.mul_add_div g.sectorsPerCluster_pos,
      Nat.div_eq_of_lt hk, Nat.div_eq_of_lt hk'] at hdiv
    omega

/-- The boot sector that `fat32_mount` reads. -/
def bootSector (s : State) (partitionLbaStart : Nat) : Nat → UInt8 :=
  fun o => s.disk (partitionLbaStart + o / sectorSize) (o % sectorSize)

/-- The last part of `fat32_mount`. -/
theorem readFat_requestsIn {fails : Nat → Bool} : RequestsIn g (do
    if ← readFatSectors fails g.sectorsPerFat g.fatLba g.sectorsPerFat 0 then
      modify fun s => { s with
        mounted := true
        clusterBuffer := fun _ => 0
        fat := fun c => if c < g.sectorsPerFat * 128 then s.fat c else 0 }
      pure (some g)
    else pure none) := by
  have harea : 0 + g.sectorsPerFat ≤ g.fatCount * g.sectorsPerFat := by
    rw [Nat.zero_add]
    exact Nat.le_mul_of_pos_left _ g.fatCount_pos
  have hlba : g.fatLba = (g.fatLba + 0) % 2 ^ 32 := by
    simp only [Geometry.fatLba]
    omega
  rw [hlba]
  apply RequestsIn.bind (readFatSectors_requestsIn _ _ _ _ harea)
  intro b
  exact .ite (fun _ => .bind (.modify fun _ => rfl) fun _ => .pure) fun _ => .pure

/-- The requests of `fat32_mount` itself. -/
theorem fat32Mount_requests {fails : Nat → Bool} {bytesPerSector : Nat} {s : State}
    (h : bootGeometry partitionLbaStart (bootSector s partitionLbaStart) = some g) :
    ∀ r ∈ (fat32Mount fails partitionLbaStart bytesPerSector s).state.requests,
      r ∈ s.requests ∨ g.InVolume r := by
  have hpart := (bootGeometry_widths h).2.2
  have hboot : g.InVolume (partitionLbaStart, 1) := by
    intro k hk
    have hk : k < 1 := hk
    have hpos := g.nonData_lt
    have hzero : g.offset (partitionLbaStart + k) = 0 := by
      simp only [Geometry.offset, hpart]
      omega
    change g.offset (partitionLbaStart + k) < g.totalSectors
    omega
  have hfirst := @blockReadSectors_requestsIn g fails _ _ hboot s.requests s (fun r hr => .inl hr)
  unfold fat32Mount
  split
  · exact fun r hr => .inl hr
  · rcases hread : blockReadSectors fails partitionLbaStart 1 s with ⟨r, s'⟩ | ⟨e, s'⟩ | s' | s'
    · rw [hread] at hfirst
      rw [bind_of_ok hread]
      rcases r with _ | bytes
      · exact hfirst
      · have hbytes : bytes = bootSector s partitionLbaStart := by
          unfold blockReadSectors at hread
          simp only at hread
          split at hread <;> cases hread
          rfl
        simp only [hbytes, h]
        exact readFat_requestsIn s.requests s' hfirst
    all_goals
      unfold blockReadSectors at hread
      simp only at hread
      split at hread <;> cases hread

/-- On a volume whose boot sector `fat32_mount` accepts, every request of `fat32_mount` and of the
operations lies inside the volume, whatever is on the disk and in the FAT. -/
theorem requests_inVolume (h : bootGeometry partitionLbaStart boot = some g) :
    LayoutOk g ∧
    (∀ fails bytesPerSector s, bootSector s partitionLbaStart = boot →
      ∀ r ∈ (fat32Mount fails partitionLbaStart bytesPerSector s).state.requests,
        r ∈ s.requests ∨ g.InVolume r) ∧
    ∀ env : Env, env.geometry = g →
      (∀ path, RequestsIn g (fat32Stat env path)) ∧
      (∀ (κ : Type) path (callback : κ → Fat32NodeInfo → κ × Bool) context,
        RequestsIn g (fat32ListDir env path callback context)) ∧
      (∀ (κ : Type) path (callback : κ → List UInt8 → κ × Bool) context,
        RequestsIn g (fat32ReadFile env path callback context)) ∧
      (∀ path data append, RequestsIn g (fat32WriteFile env path data append)) ∧
      (∀ path, RequestsIn g (fat32MakeDir env path)) ∧
      (∀ path, RequestsIn g (fat32Remove env path)) ∧
      ∀ oldPath newPath, RequestsIn g (fat32Rename env oldPath newPath) := by
  refine ⟨layoutOk_of_bootGeometry h, ?_, ?_⟩
  · rintro fails bytesPerSector s rfl
    exact fat32Mount_requests h
  · rintro env rfl
    exact ⟨fun _ => fat32Stat_requestsIn, fun _ _ _ _ => fat32ListDir_requestsIn,
      fun _ _ _ _ => fat32ReadFile_requestsIn, fun _ _ _ => fat32WriteFile_requestsIn,
      fun _ => fat32MakeDir_requestsIn, fun _ => fat32Remove_requestsIn,
      fun _ _ => fat32Rename_requestsIn⟩

/-- A boot sector with 2 sectors per cluster, 32 reserved sectors, two FAT copies of one sector
and 200 sectors in all. -/
def sampleBoot : Nat → UInt8 := fun o =>
  if o = 12 then 2 else if o = 13 then 2 else if o = 14 then 32 else if o = 16 then 2
  else if o = 19 then 200 else if o = 36 then 1 else if o = 44 then 2 else 0

theorem requests_inVolume_sample : ∃ g, bootGeometry 63 sampleBoot = some g ∧ LayoutOk g := by
  have hsome : (bootGeometry 63 sampleBoot).isSome := by decide
  have hget := (Option.some_get hsome).symm
  exact ⟨_, hget, (requests_inVolume hget).1⟩

end

end FunnyOS.Fat32
