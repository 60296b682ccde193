import FunnyOS.Fat32.Directory

/-!
# Paths and public operations

Path resolution and the seven public operations of `src/kernel/fat32.c`. A path is the
list of its bytes without the NUL. The text `FAT32_OK` is a returned value, every other
`Fat32Result` an error.
-/

namespace FunnyOS.Fat32

open Prog

/-! ## Path texts -/

/-- The slash character. -/
def slash : UInt8 := 0x2F

/-- The path text cut at its slashes, as the outer loop of `resolve_path` does: the maximal
runs of other characters. -/
def splitComponents : CStr → List CStr
  | [] => []
  | c :: rest =>
    if c = slash then splitComponents rest
    else
      match rest, splitComponents rest with
      | [], _ => [[c]]
      | d :: _, components =>
        if d = slash then [c] :: components
        else match components with
          | [] => [[c]]
          | head :: tail => (c :: head) :: tail

/-- `split_path`: parent text and last component. The parent buffer of every caller has 128
bytes and is written without a check. -/
def splitPath (path : CStr) : Driver (CStr × CStr) :=
  if path.head? ≠ some slash ∨ path.length = 1 then raise .invalidName
  else
    let name := (path.reverse.takeWhile (· != slash)).reverse
    let parent := path.take (path.length - name.length - 1)
    if name = [] then raise .invalidName
    else if parent.length ≥ parentPathCapacity then fault
    else if name.length ≥ nameCapacity then raise .invalidName
    else pure (if parent = [] then [slash] else parent, name)

/-- `path_is_descendant_of`. -/
def pathIsDescendantOf (path parent : CStr) : Bool :=
  if parent.isPrefixOf path then
    if parent.getLast? = some slash then true
    else match path.drop parent.length with
      | [] => true
      | c :: _ => c == slash
  else false

/-- The pointer `last` of `fat32_stat`: the text behind the last slash that has more text
behind it. -/
def lastComponentText : CStr → CStr → CStr
  | last, [] => last
  | last, c :: rest =>
    if c = slash ∧ rest ≠ [] then lastComponentText rest rest else lastComponentText last rest

/-- `fill_special_dir_name`. -/
def fillSpecialDirName (name : CStr) : List UInt8 := padField 11 (name.take 11)

section

variable (env : Env)

/-- The outer loop of `resolve_path`, from the entry resolved so far (`none` for the root). -/
def resolveComponents : Option DirectoryEntry → List CStr → Driver (Option DirectoryEntry)
  | current, [] => pure current
  | current, component :: rest =>
    if component.length ≥ nameCapacity then raise .invalidName
    else if !validateLongName component then raise .invalidName
    else if current.any (fun e => !e.isDirectory) then raise .notADirectory
    else do
      let directory := match current with
        | some e => e.entryFirstCluster
        | none => env.geometry.rootCluster
      let ref ← findEntryInClusterDir env directory component
      if rest ≠ [] ∧ !ref.entry.isDirectory then raise .notADirectory
      else resolveComponents (some ref.entry) rest

/-- `resolve_path`; the result is `none` for the root. -/
def resolvePath (path : CStr) : Driver (Option DirectoryEntry) :=
  resolveComponents env none (splitComponents path)

/-- `resolve_directory`. -/
def resolveDirectory (path : CStr) : Driver DirectoryRef := do
  match ← resolvePath env path with
  | none => pure ⟨true, env.geometry.rootCluster⟩
  | some e => if e.isDirectory then pure ⟨false, e.entryFirstCluster⟩ else raise .notADirectory

/-- `lookup_parent_and_name`: parent directory, name and parent text. -/
def lookupParentAndName (path : CStr) : Driver (DirectoryRef × CStr × CStr) := do
  let (parentPath, name) ← splitPath path
  if validateLongName name then do
    let parentDir ← resolveDirectory env parentPath
    pure (parentDir, name, parentPath)
  else raise .invalidName

/-- The test of `g_mounted` that every public operation starts with. -/
def checkMounted : Driver Unit := do
  let s ← get
  if s.mounted then pure () else raise .ioError

/-! ## Reading -/

/-- `fat32_stat`. The name is copied into 128 bytes without a check. -/
def fat32Stat (path : CStr) : Driver Fat32NodeInfo := do
  checkMounted
  match ← resolvePath env path with
  | none => pure { name := [slash], isDir := true, size := 0 }
  | some e =>
    let last := lastComponentText path path
    if last.length ≥ nameCapacity then fault else pure (decodeNodeInfo e last)

/-- `fat32_list_dir`. -/
def fat32ListDir {κ : Type} (path : CStr) (callback : κ → Fat32NodeInfo → κ × Bool)
    (context : κ) : Driver κ := do
  checkMounted
  match ← resolvePath env path with
  | none => listClusterDir env env.geometry.rootCluster callback context
  | some e =>
    if e.isDirectory then listClusterDir env e.entryFirstCluster callback context
    else raise .notADirectory

/-- The loop of `fat32_read_file`. -/
def readChunks {κ : Type} (cluster size : Nat) (callback : κ → List UInt8 → κ × Bool)
    (context : κ) : Driver κ :=
  loop (fun (cluster, remaining, context) =>
    if remaining > 0 ∧ inChain cluster then do
      if ← readCluster env cluster then do
        let s ← get
        let chunk := min env.geometry.clusterSize remaining
        let (context, goOn) := callback context ((List.range chunk).map s.clusterBuffer)
        if goOn then
          pure (.again (fat32NextCluster env.geometry s.fat cluster, remaining - chunk, context))
        else raise .ioError
      else raise .ioError
    else if remaining = 0 then pure (.done context)
    else raise .ioError) (size + 1) (cluster, size, context)

/-- `fat32_read_file`. -/
def fat32ReadFile {κ : Type} (path : CStr) (callback : κ → List UInt8 → κ × Bool)
    (context : κ) : Driver κ := do
  checkMounted
  match ← resolvePath env path with
  | none => raise .isADirectory
  | some e =>
    if e.isDirectory then raise .isADirectory
    else readChunks env e.entryFirstCluster e.size callback context

/-! ## Writing -/

/-- The end of `fat32_write_file`, common to its two halves: store the entry in place, or
find slots for a new one. -/
def storeFileEntry (parentDir : DirectoryRef) (name : CStr) (existing : Option EntryRef)
    (firstCluster size : Nat) : Driver Unit :=
  match existing with
  | some ref => writeEntryAt env ref ((ref.entry.entrySetFirstCluster firstCluster).setSize size)
  | none => do
    let newEntries ← buildNameEntries env parentDir.firstCluster name attrArchive
      firstCluster size none
    let slot ← findFreeEntryInClusterDir env parentDir.firstCluster newEntries.length
    writeEntrySpanAt env parentDir.firstCluster slot newEntries

/-- The lookup of `fat32_write_file`: the entry to overwrite, `none` for a new file. -/
def lookupFile (parentDir : DirectoryRef) (name : CStr) : Driver (Option EntryRef) := do
  match ← attempt (findEntryInClusterDir env parentDir.firstCluster name) with
  | .ok ref => if ref.entry.isDirectory then raise .isADirectory else pure (some ref)
  | .error e => if e = .notFound then pure none else raise e

/-- `fat32_write_file`. -/
def fat32WriteFile (path : CStr) (data : List UInt8) (append : Bool) : Driver Unit := do
  checkMounted
  let g := env.geometry
  let (parentDir, name, _) ← lookupParentAndName env path
  let existing ← lookupFile env parentDir name
  let oldSize := match existing with
    | some ref => ref.entry.size
    | none => 0
  let firstCluster := match existing with
    | some ref => ref.entry.entryFirstCluster
    | none => 0
  let currentClusters := clustersForSize g oldSize
  if append then do
    let newSize := (oldSize + data.length) % 2 ^ 32
    let firstCluster ← ensureClusterChainLength env firstCluster currentClusters
      (clustersForSize g newSize)
    if ← flushFat env then do
      writeDataToChain env firstCluster oldSize data
      storeFileEntry env parentDir name existing firstCluster newSize
    else raise .ioError
  else do
    let requiredClusters := clustersForSize g data.length
    let firstCluster ← ensureClusterChainLength env firstCluster currentClusters requiredClusters
    let firstCluster ← trimClusterChain env firstCluster requiredClusters
    if ← flushFat env then do
      writeDataToChain env firstCluster 0 data
      storeFileEntry env parentDir name existing firstCluster data.length
    else raise .ioError

/-- A `.` or `..` slot of `fat32_make_dir`. -/
def specialDirEntry (name : CStr) (cluster : Nat) : DirectoryEntry :=
  ((DirectoryEntry.zero.setName (fillSpecialDirName name)).setAttributes
    attrDirectory).entrySetFirstCluster cluster

/-- `fat32_make_dir`. -/
def fat32MakeDir (path : CStr) : Driver Unit := do
  checkMounted
  let (parentDir, name, _) ← lookupParentAndName env path
  match ← attempt (findEntryInClusterDir env parentDir.firstCluster name) with
  | .ok _ => raise .alreadyExists
  | .error e =>
    if e ≠ .notFound then raise e
    else do
      let dirCluster ← allocateClusterChain env 1
      if ← flushFat env then do
        modify fun s => { s with
          clusterBuffer :=
            let cleared := fun o => if o < env.geometry.clusterSize then 0 else s.clusterBuffer o
            let dot := setBufferEntry cleared 0 (specialDirEntry [0x2E] dirCluster)
            setBufferEntry dot 1 (specialDirEntry [0x2E, 0x2E]
              (if parentDir.isRoot then 0 else parentDir.firstCluster)) }
        if ← writeCluster env dirCluster then do
          let nameEntries ← buildNameEntries env parentDir.firstCluster name attrDirectory
            dirCluster 0 none
          let slot ← findFreeEntryInClusterDir env parentDir.firstCluster nameEntries.length
          writeEntrySpanAt env parentDir.firstCluster slot nameEntries
        else raise .ioError
      else raise .ioError

/-- `fat32_remove`. -/
def fat32Remove (path : CStr) : Driver Unit := do
  checkMounted
  let (parentDir, name, _) ← lookupParentAndName env path
  let ref ← findEntryInClusterDir env parentDir.firstCluster name
  let removable ← if ref.entry.isDirectory then
      directoryIsEmpty env ref.entry.entryFirstCluster
    else pure true
  if removable then do
    markEntryDeleted env ref
    if 2 ≤ ref.entry.entryFirstCluster then
      freeClusterChainInMemory env ref.entry.entryFirstCluster
    else pure ()
    if ← flushFat env then pure () else raise .ioError
  else raise .directoryNotEmpty

/-- The part of `fat32_rename` that moves the slots: in place where they fit, else to free
slots of the new parent. -/
def moveEntrySlots (oldParentDir newParentDir : DirectoryRef) (oldRef : EntryRef)
    (newEntries : List DirectoryEntry) : Driver Unit :=
  let oldSpanStart := oldRef.entryIndex - oldRef.lfnEntryCount
  let oldSpanCount := oldRef.lfnEntryCount + 1
  if oldParentDir = newParentDir ∧ newEntries.length ≤ oldSpanCount then do
    writeEntrySpanAt env oldParentDir.firstCluster oldSpanStart newEntries
    if newEntries.length < oldSpanCount then
      markEntryRangeDeleted env oldParentDir.firstCluster (oldSpanStart + newEntries.length)
        (oldSpanCount - newEntries.length)
    else pure ()
  else do
    let slot ← findFreeEntryInClusterDir env newParentDir.firstCluster newEntries.length
    writeEntrySpanAt env newParentDir.firstCluster slot newEntries
    markEntryDeleted env oldRef

/-- `fat32_rename`. -/
def fat32Rename (oldPath newPath : CStr) : Driver Unit := do
  checkMounted
  if oldPath = newPath then pure ()
  else do
    let (oldParentDir, oldName, _) ← lookupParentAndName env oldPath
    let (newParentDir, newName, newParentPath) ← lookupParentAndName env newPath
    let oldRef ← findEntryInClusterDir env oldParentDir.firstCluster oldName
    if oldRef.entry.isDirectory ∧ pathIsDescendantOf newParentPath oldPath then
      raise .invalidName
    else
      match ← attempt (findEntryInClusterDir env newParentDir.firstCluster newName) with
      | .ok _ => raise .alreadyExists
      | .error e =>
        if e ≠ .notFound then raise e
        else do
          let newEntries ← buildNameEntries env newParentDir.firstCluster newName
            oldRef.entry.attributes oldRef.entry.entryFirstCluster oldRef.entry.size
            (if oldParentDir = newParentDir then some oldRef.entry.name else none)
          moveEntrySlots env oldParentDir newParentDir oldRef newEntries
          if oldRef.entry.isDirectory then
            updateDirectoryParent env oldRef.entry.entryFirstCluster
              (if newParentDir.isRoot then 0 else newParentDir.firstCluster)
          else pure ()

end

end FunnyOS.Fat32
