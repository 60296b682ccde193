import FunnyOS.Fat32.Cluster
import FunnyOS.Fat32.Names

/-!
# Directories

The routines of `src/kernel/fat32.c` that read and write directory slots. Each inner
loop over the slots of one cluster is a recursion over the list of these slots; the
outer loop over the clusters of the directory is a `loop`. The index of a slot counts
from the start of the directory (`entry_base_index + i`).
-/

namespace FunnyOS.Fat32

open Prog

/-! ## Slots of a cluster buffer -/

/-- `((DirectoryEntry*)buffer)[i]`. -/
def bufferEntry (buffer : Nat → UInt8) (i : Nat) : DirectoryEntry :=
  ⟨fun j => buffer (32 * i + j.val)⟩

/-- The assignment `((DirectoryEntry*)buffer)[i] = e`. -/
def setBufferEntry (buffer : Nat → UInt8) (i : Nat) (e : DirectoryEntry) : Nat → UInt8 :=
  fun o => if o / 32 = i then e.byte ⟨o % 32, Nat.mod_lt _ (by decide)⟩ else buffer o

/-- The slots that fill one cluster. -/
def bufferEntries (g : Geometry) (buffer : Nat → UInt8) : List DirectoryEntry :=
  (List.range g.entriesPerCluster).map (bufferEntry buffer)

/-- `EntryRef` for a slot that was found. -/
structure EntryRef where
  directoryFirstCluster : Nat
  entryIndex : Nat
  lfnEntryCount : Nat
  entry : DirectoryEntry

/-- `DirectoryRef`. -/
structure DirectoryRef where
  isRoot : Bool
  firstCluster : Nat
  deriving DecidableEq

/-! ## The loops over the slots of one cluster -/

/-- How the scan of one cluster ends: with a result, at an end mark, or at the end of the
cluster with the long-name state reached there. -/
inductive Scan (α : Type) where
  | found (a : α)
  | endMark
  | more (lfn : LfnState)

/-- The slot loop of `find_entry_in_cluster_dir`, from slot number `index` on. -/
def scanForName (name : CStr) : List DirectoryEntry → Nat → LfnState →
    Scan (Nat × DirectoryEntry × LfnState)
  | [], _, lfn => .more lfn
  | e :: rest, index, lfn =>
    if e.name0 = 0 then .endMark
    else if e.name0 = deletedMark then scanForName name rest (index + 1) (lfnStateReset lfn)
    else if e.attributes = attrLfn then
      scanForName name rest (index + 1) (processLfnEntry e lfn)
    else if shouldSkipEntry e then scanForName name rest (index + 1) (lfnStateReset lfn)
    else if nameEqualsIgnoreCase (decodeDirectoryEntryName e lfn) name then
      .found (index, e, lfn)
    else scanForName name rest (index + 1) (lfnStateReset lfn)

/-- `directory_entry_is_special`. -/
def directoryEntryIsSpecial (e : DirectoryEntry) : Bool := e.name0 == 0x2E

/-- The slot loop of `directory_is_empty`; it finds a slot that makes the directory not
empty. -/
def scanForContent : List DirectoryEntry → LfnState → Scan Unit
  | [], lfn => .more lfn
  | e :: rest, lfn =>
    if e.name0 = 0 then .endMark
    else if e.name0 = deletedMark then scanForContent rest (lfnStateReset lfn)
    else if e.attributes = attrLfn then scanForContent rest (processLfnEntry e lfn)
    else if shouldSkipEntry e then scanForContent rest (lfnStateReset lfn)
    else if directoryEntryIsSpecial e then scanForContent rest lfn
    else .found ()

/-- `decode_node_info`. -/
def decodeNodeInfo (e : DirectoryEntry) (name : CStr) : Fat32NodeInfo :=
  { name, isDir := e.isDirectory, size := e.size }

/-- The slot loop of `list_cluster_dir`. The callback takes and returns its context and
says whether to go on; the scan finds the context in which it said no. -/
def scanForListing {κ : Type} (callback : κ → Fat32NodeInfo → κ × Bool) :
    List DirectoryEntry → LfnState → κ → Scan κ × κ
  | [], lfn, context => (.more lfn, context)
  | e :: rest, lfn, context =>
    if e.name0 = 0 then (.endMark, context)
    else if e.name0 = deletedMark then
      scanForListing callback rest (lfnStateReset lfn) context
    else if e.attributes = attrLfn then
      scanForListing callback rest (processLfnEntry e lfn) context
    else if shouldSkipEntry e then scanForListing callback rest (lfnStateReset lfn) context
    else if e.name0 = 0x2E then scanForListing callback rest lfn context
    else
      let (context, goOn) := callback context (decodeNodeInfo e (decodeDirectoryEntryName e lfn))
      if goOn then scanForListing callback rest (lfnStateReset lfn) context
      else (.found context, context)

/-- The slot loop of `short_name_exists_in_directory`; it finds a slot with the name. -/
def scanForShortName (shortName : List UInt8) (ignoreShortName : Option (List UInt8)) :
    List DirectoryEntry → Scan Unit
  | [] => .more .initial
  | e :: rest =>
    if e.name0 = 0 then .endMark
    else if e.name0 = deletedMark ∨ e.attributes = attrLfn then
      scanForShortName shortName ignoreShortName rest
    else if e.attributes &&& attrVolumeId ≠ 0 then
      scanForShortName shortName ignoreShortName rest
    else if ignoreShortName = some e.name then scanForShortName shortName ignoreShortName rest
    else if e.name = shortName then .found ()
    else scanForShortName shortName ignoreShortName rest

/-- A run of free slots being collected by `find_free_entry_in_cluster_dir`. -/
structure FreeRun where
  start : Nat
  count : Nat

/-- The slot loop of `find_free_entry_in_cluster_dir`: the start of a long enough run, or
the run that is open at the end of the cluster. -/
def scanForFree (neededEntries : Nat) :
    List DirectoryEntry → Nat → FreeRun → FreeRun ⊕ Nat
  | [], _, run => .inl run
  | e :: rest, index, run =>
    if e.name0 = 0 ∨ e.name0 = deletedMark then
      let run : FreeRun := ⟨if run.count = 0 then index else run.start, run.count + 1⟩
      if run.count ≥ neededEntries then .inr run.start
      else scanForFree neededEntries rest (index + 1) run
    else scanForFree neededEntries rest (index + 1) ⟨run.start, 0⟩

section

variable (env : Env)

/-! ## Single slots -/

/-- `read_directory_entry`. -/
def readDirectoryEntry (firstCluster entryIndex : Nat) : Driver DirectoryEntry := do
  let s ← get
  let cluster := getClusterAtIndex env.geometry s.fat firstCluster
    (entryIndex / env.geometry.entriesPerCluster)
  if !inChain cluster then raise .notFound
  else if ← readCluster env cluster then do
    let s ← get
    pure (bufferEntry s.clusterBuffer (entryIndex % env.geometry.entriesPerCluster))
  else raise .ioError

/-- `write_directory_entry`. -/
def writeDirectoryEntry (firstCluster entryIndex : Nat) (e : DirectoryEntry) :
    Driver Unit := do
  let s ← get
  let cluster := getClusterAtIndex env.geometry s.fat firstCluster
    (entryIndex / env.geometry.entriesPerCluster)
  if !inChain cluster then raise .ioError
  else if ← readCluster env cluster then do
    modify fun s => { s with
      clusterBuffer :=
        setBufferEntry s.clusterBuffer (entryIndex % env.geometry.entriesPerCluster) e }
    if ← writeCluster env cluster then pure () else raise .ioError
  else raise .ioError

/-! ## Searching -/

/-- The backward walk of `find_entry_in_cluster_dir` over the `index` slots before the one
it has found. -/
def countLfnEntries (firstCluster : Nat) : Nat → Driver Nat
  | 0 => pure 0
  | index + 1 => do
    match ← attempt (readDirectoryEntry env firstCluster index) with
    | .error _ => pure 0
    | .ok previous =>
      if previous.attributes = attrLfn then do
        let count ← countLfnEntries firstCluster index
        pure (count + 1)
      else pure 0

/-- `find_entry_in_cluster_dir`. -/
def findEntryInClusterDir (firstCluster : Nat) (name : CStr) : Driver EntryRef :=
  loop (fun (cluster, index, lfn) =>
    if inChain cluster then do
      if ← readCluster env cluster then do
        let s ← get
        let entries := bufferEntries env.geometry s.clusterBuffer
        match scanForName name entries index lfn with
        | .endMark => raise .notFound
        | .found (j, e, lfn) => do
          let count ← if lfn.attached e then countLfnEntries env firstCluster j else pure 0
          pure (.done ⟨firstCluster, j, count, e⟩)
        | .more lfn =>
          pure (.again (fat32NextCluster env.geometry s.fat cluster,
            index + entries.length, lfn))
      else raise .ioError
    else raise .notFound) env.fuel (firstCluster, 0, LfnState.initial)

/-- `short_name_exists_in_directory`. -/
def shortNameExistsInDirectory (firstCluster : Nat) (shortName : List UInt8)
    (ignoreShortName : Option (List UInt8)) : Driver Bool :=
  loop (fun cluster =>
    if inChain cluster then do
      if ← readCluster env cluster then do
        let s ← get
        match scanForShortName shortName ignoreShortName
            (bufferEntries env.geometry s.clusterBuffer) with
        | .endMark => pure (.done false)
        | .found () => pure (.done true)
        | .more _ => pure (.again (fat32NextCluster env.geometry s.fat cluster))
      else pure (.done true)
    else pure (.done false)) env.fuel firstCluster

/-- The number of ordinals after which `build_short_alias` leaves its buffer whatever the
name; it bounds the `do … while` loop of `build_name_entries`. -/
def aliasLimit : Nat := 1000000000

/-- The `do … while` loop of `build_name_entries` that looks for an unused alias. -/
def chooseAlias (directoryCluster : Nat) (name : CStr)
    (ignoreShortName : Option (List UInt8)) : Driver (List UInt8) :=
  loop (fun ordinal =>
    match buildShortAlias name ordinal with
    | none => fault
    | some shortName => do
      if ← shortNameExistsInDirectory env directoryCluster shortName ignoreShortName then
        pure (.again (ordinal + 1))
      else pure (.done shortName)) aliasLimit 1

/-- `build_name_entries`. -/
def buildNameEntries (directoryCluster : Nat) (name : CStr) (attributes : UInt8)
    (firstCluster size : Nat) (ignoreShortName : Option (List UInt8)) :
    Driver (List DirectoryEntry) :=
  if validateLongName name then do
    let exactShort ← match makeShortNameIfPossible name with
      | none => pure none
      | some shortName => do
        if ← shortNameExistsInDirectory env directoryCluster shortName ignoreShortName then
          pure none
        else pure (some shortName)
    match exactShort with
    | some shortName => pure [buildShortEntry shortName attributes firstCluster size]
    | none => do
      let shortName ← chooseAlias env directoryCluster name ignoreShortName
      let lfnCount := lfnEntryCountForName name
      if lfnCount + 1 > maxNameEntries then raise .invalidName
      else
        pure (buildLfnEntries name (shortNameChecksum shortName) lfnCount
          ++ [buildShortEntry shortName attributes firstCluster size])
  else raise .invalidName

/-- The search loop of `find_free_entry_in_cluster_dir`: the start of a run that is long
enough, or (`.inl`) the start of the run that a new cluster completes. -/
def searchFreeRun (firstCluster neededEntries : Nat) : Driver (Nat ⊕ Nat) :=
  loop (fun (cluster, index, run) =>
    if inChain cluster then do
      if ← readCluster env cluster then do
        let s ← get
        let entries := bufferEntries env.geometry s.clusterBuffer
        match scanForFree neededEntries entries index run with
        | .inr start => pure (.done (.inr start))
        | .inl run =>
          let index := index + entries.length
          let next := fat32NextCluster env.geometry s.fat cluster
          if next ≥ endOfChain then
            pure (.done (.inl (if run.count ≠ 0 then run.start else index)))
          else pure (.again (next, index, run))
      else raise .ioError
    else pure (.done (.inl (if run.count ≠ 0 then run.start else index))))
    env.fuel (firstCluster, 0, (⟨0, 0⟩ : FreeRun))

/-- `find_free_entry_in_cluster_dir`; the result is `entry_index`. -/
def findFreeEntryInClusterDir (firstCluster neededEntries : Nat) : Driver Nat := do
  match ← searchFreeRun env firstCluster neededEntries with
  | .inr start => pure start
  | .inl start => do
    let newCluster ← appendClusterToChain env firstCluster
    zeroCluster env newCluster
    if ← flushFat env then pure start else raise .ioError

/-- `directory_is_empty`. -/
def directoryIsEmpty (firstCluster : Nat) : Driver Bool :=
  loop (fun (cluster, lfn) =>
    if inChain cluster then do
      if ← readCluster env cluster then do
        let s ← get
        match scanForContent (bufferEntries env.geometry s.clusterBuffer) lfn with
        | .endMark => pure (.done true)
        | .found () => pure (.done false)
        | .more lfn => pure (.again (fat32NextCluster env.geometry s.fat cluster, lfn))
      else pure (.done false)
    else pure (.done true)) env.fuel (firstCluster, LfnState.initial)

/-- `list_cluster_dir`; the result is the final context of the callback. -/
def listClusterDir {κ : Type} (firstCluster : Nat)
    (callback : κ → Fat32NodeInfo → κ × Bool) (context : κ) : Driver κ :=
  loop (fun (cluster, lfn, context) =>
    if inChain cluster then do
      if ← readCluster env cluster then do
        let s ← get
        match scanForListing callback (bufferEntries env.geometry s.clusterBuffer) lfn context with
        | (.endMark, context) => pure (.done context)
        | (.found _, context) => pure (.done context)
        | (.more lfn, context) =>
          pure (.again (fat32NextCluster env.geometry s.fat cluster, lfn, context))
      else raise .ioError
    else pure (.done context)) env.fuel (firstCluster, LfnState.initial, context)

/-! ## Writing -/

/-- `write_entry_at`. -/
def writeEntryAt (ref : EntryRef) (e : DirectoryEntry) : Driver Unit :=
  writeDirectoryEntry env ref.directoryFirstCluster ref.entryIndex e

/-- `write_entry_span_at`. -/
def writeEntrySpanAt (firstCluster : Nat) : Nat → List DirectoryEntry → Driver Unit
  | _, [] => pure ()
  | startIndex, e :: rest => do
    writeDirectoryEntry env firstCluster startIndex e
    writeEntrySpanAt firstCluster (startIndex + 1) rest

/-- `mark_entry_range_deleted`. -/
def markEntryRangeDeleted (directoryFirstCluster : Nat) : Nat → Nat → Driver Unit
  | _, 0 => pure ()
  | startIndex, count + 1 => do
    let e ← readDirectoryEntry env directoryFirstCluster startIndex
    writeDirectoryEntry env directoryFirstCluster startIndex e.setDeleted
    markEntryRangeDeleted directoryFirstCluster (startIndex + 1) count

/-- `mark_entry_deleted`, the same loop over the slots of an entry and its long name. -/
def markEntryDeleted (ref : EntryRef) : Driver Unit :=
  markEntryRangeDeleted env ref.directoryFirstCluster (ref.entryIndex - ref.lfnEntryCount)
    (ref.lfnEntryCount + 1)

/-- `update_directory_parent`. -/
def updateDirectoryParent (dirCluster parentCluster : Nat) : Driver Unit := do
  if ← readCluster env dirCluster then do
    modify fun s => { s with
      clusterBuffer := setBufferEntry s.clusterBuffer 1
        ((bufferEntry s.clusterBuffer 1).entrySetFirstCluster parentCluster) }
    if ← writeCluster env dirCluster then pure () else raise .ioError
  else raise .ioError

end

end FunnyOS.Fat32
