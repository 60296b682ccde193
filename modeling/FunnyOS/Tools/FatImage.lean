import FunnyOS.Fat32.Device
import FunnyOS.Lib.Overlay
import FunnyOS.Tools.FatLayout
import FunnyOS.Tools.ShortNames

/-!
# The image tool

`tools/make_fat32_image.py` from the source directory to the bytes of the image. An exception is an
error with its text. The bytes of a `bytearray` are a function with its length beside it; an
assignment to a slice may go beyond the end, as in Python. Clusters are the numbers that
`allocate_clusters` has given out, from `ROOT_CLUSTER` on.

The numbers in the FAT are clusters below `total_clusters`, and so below the number of sectors, for
which the boot sector has had room: `struct.pack_into` never refuses one of them.
-/

namespace FunnyOS.Tools

open Fat32 (leByte)

/-! ## The tree -/

/-- What `Path.iterdir` finds. -/
inductive SourceEntry
  | file (name : List Char) (data : List UInt8)
  | dir (name : List Char) (entries : List SourceEntry)
  | other (name : List Char)

/-- `Path.name`. -/
def SourceEntry.name : SourceEntry → List Char
  | file name _ => name
  | dir name _ => name
  | other name => name

/-- `FileNode` and `DirNode`. -/
inductive ImageNode
  | file (name : List Char) (data : List UInt8) (clusters : List Nat)
  | dir (name : List Char) (children : List ImageNode) (clusters : List Nat)

/-- The field `name`. -/
def ImageNode.name : ImageNode → List Char
  | file name _ _ => name
  | dir name _ _ => name

/-- The field `clusters`. -/
def ImageNode.clusters : ImageNode → List Nat
  | file _ _ clusters => clusters
  | dir _ _ clusters => clusters

/-- The names that `build_tree` skips. -/
def skippedName (name : List Char) : Bool :=
  name = ".DS_Store".toList ∨ "._".toList <+: name

/-- `sorted(children, key=lambda p: p.name.upper())`, which is stable. -/
def sortNodes (u : UnicodeData) (nodes : List ImageNode) : List ImageNode :=
  nodes.mergeSort fun a b => decide (u.strUpper a.name ≤ u.strUpper b.name)

mutual

/-- An entry that `build_tree` has come to. -/
def buildNode (u : UnicodeData) : SourceEntry → List ImageNode
  | .file name data => [.file name data []]
  | .dir name entries => [.dir name (sortNodes u (buildNodes u entries)) []]
  | .other _ => []

/-- The nodes for the entries that are not skipped. The names are sorted behind the recursion, which
leaves them what they are. -/
def buildNodes (u : UnicodeData) : List SourceEntry → List ImageNode
  | [] => []
  | entry :: rest =>
    if skippedName entry.name then buildNodes u rest else buildNode u entry ++ buildNodes u rest

end

/-! ## Clusters -/

/-- `ROOT_CLUSTER`. -/
abbrev rootCluster : Nat := 2

/-- A step of `allocate_clusters`, which keeps `next_cluster`. -/
abbrev Allocation (α : Type) : Type := StateT Nat (Except String) α

/-- `alloc`. -/
def alloc (totalClusters count : Nat) : Allocation (List Nat) := do
  let first ← get
  if count = 0 then pure []
  else if first + count > totalClusters then
    throw "image capacity exceeded while allocating clusters"
  else do
    set (first + count)
    pure (List.range' first count)

/-- The loop over the names of a directory, with those `seen`. -/
def checkNames (u : UnicodeData) (seen : List (List UInt8)) : List ImageNode → Except String Unit
  | [] => pure ()
  | child :: rest => do
    let sn ← shortName11 u child.name
    if sn ∈ seen then throw "duplicate short name in directory" else checkNames u (sn :: seen) rest

/-- `needed_clusters`. -/
def neededClusters (children : Nat) (isRoot : Bool) : Nat :=
  max 1 ((children + (if isRoot then 0 else 2) + 15) / 16)

mutual

/-- `walk_dir`, and what it does with a file. -/
def walkNode (u : UnicodeData) (totalClusters : Nat) (isRoot : Bool) :
    ImageNode → Allocation ImageNode
  | .file name data _ => do
    let clusters ← alloc totalClusters ((data.length + 511) / 512)
    pure (.file name data clusters)
  | .dir name children _ => do
    let clusters ← alloc totalClusters (neededClusters children.length isRoot)
    checkNames u [] children
    let children ← walkNodes u totalClusters children
    pure (.dir name children clusters)

/-- The loop of `walk_dir` over the children. -/
def walkNodes (u : UnicodeData) (totalClusters : Nat) : List ImageNode → Allocation (List ImageNode)
  | [] => pure []
  | child :: rest => do
    let child ← walkNode u totalClusters false child
    let rest ← walkNodes u totalClusters rest
    pure (child :: rest)

end

/-- `allocate_clusters`. -/
def allocateClusters (u : UnicodeData) (totalClusters : Nat) (root : ImageNode) :
    Except String ImageNode := do
  let (root, _) ← walkNode u totalClusters true root rootCluster
  if root.clusters.head? = some rootCluster then pure root
  else throw "root directory cluster is not 2"

/-! ## The FAT -/

/-- `EOC`. -/
abbrev eoc : Nat := 0x0FFFFFFF

/-- `set_fat_chain`, for a `fat` with `entries` entries. -/
def setFatChain (entries : Nat) : List Nat → (Nat → Nat) → Except String (Nat → Nat)
  | [], fat => pure fat
  | cluster :: rest, fat =>
    if cluster ≤ 1 ∨ cluster ≥ entries then throw "cluster out of FAT range"
    else setFatChain entries rest (Function.update fat cluster (rest.headD eoc))

mutual

/-- `register_chains`, and what it does with a file. -/
def registerChains (entries : Nat) : ImageNode → (Nat → Nat) → Except String (Nat → Nat)
  | .file _ _ clusters, fat => setFatChain entries clusters fat
  | .dir _ children clusters, fat => do
    let fat ← setFatChain entries clusters fat
    registerChildren entries children fat

/-- The loop of `register_chains`. -/
def registerChildren (entries : Nat) : List ImageNode → (Nat → Nat) → Except String (Nat → Nat)
  | [], fat => pure fat
  | child :: rest, fat => do
    let fat ← registerChains entries child fat
    registerChildren entries rest fat

end

/-- `fat` before the chains are registered. -/
def emptyFat : Nat → Nat := fun i => if i = 0 then 0x0FFFFFF8 else if i = 1 then eoc else 0

/-! ## Bytes -/

/-- The bytes of the image. -/
structure FatImage where
  size : Nat
  bytes : Nat → UInt8

/-- `image[start:start + count] = chunk`. -/
def FatImage.store (image : FatImage) (start count : Nat) (chunk : Nat → UInt8) : FatImage where
  size := max image.size (min start image.size + count)
  bytes := overlay image.bytes (min start image.size) count chunk

/-- The same with the bytes of a list. -/
def FatImage.storeBytes (image : FatImage) (start : Nat) (chunk : List UInt8) : FatImage :=
  image.store start chunk.length (chunk.getD · 0)

/-- `struct.pack` with `"<H"`, for a number that is masked or small. -/
def packHalf (n : Nat) : List UInt8 := [leByte n 0, leByte n 1]

/-- `struct.pack` with `"<I"`. -/
def packWord (n : Nat) : Except String (List UInt8) :=
  if n < 2 ^ 32 then pure [leByte n 0, leByte n 1, leByte n 2, leByte n 3]
  else throw "'I' format requires 0 <= number <= 4294967295"

/-- `pack_dir_entry`. -/
def packDirEntry (shortName : List UInt8) (attr : UInt8) (firstCluster size : Nat) :
    Except String (List UInt8) := do
  let size ← packWord size
  pure (shortName ++ [attr, 0, 0] ++ packHalf 0 ++ packHalf 0 ++ packHalf 0
    ++ packHalf (firstCluster / 2 ^ 16 % 2 ^ 16) ++ packHalf 0 ++ packHalf 0
    ++ packHalf (firstCluster % 2 ^ 16) ++ size)

/-- `dot_entry`, for the name with its blanks. -/
def dotEntry (raw : List UInt8) (cluster : Nat) : Except String (List UInt8) :=
  packDirEntry raw 0x10 cluster 0

/-- The name of the entry `"."`. -/
def dotName : List UInt8 := 0x2E :: List.replicate 10 0x20

/-- The name of the entry `".."`. -/
def dotDotName : List UInt8 := 0x2E :: 0x2E :: List.replicate 9 0x20

/-! ## Directories and files -/

/-- The loop of `write_cluster_chain`. -/
def storeClusters (dataLba : Nat) : List Nat → List UInt8 → FatImage → FatImage
  | [], _, image => image
  | cluster :: rest, data, image =>
    storeClusters dataLba rest (data.drop 512)
      (image.storeBytes ((dataLba + (cluster - 2)) * 512) (data.take 512))

/-- `write_cluster_chain`. -/
def writeClusterChain (dataLba : Nat) (chain : List Nat) (data : List UInt8) (image : FatImage) :
    Except String FatImage :=
  if chain = [] then pure image
  else if data.length > chain.length * 512 then throw "cluster chain too small for data"
  else pure (storeClusters dataLba chain data image)

/-- `clusters[0]` of a directory. -/
def firstOf : List Nat → Except String Nat
  | [] => throw "list index out of range"
  | cluster :: _ => pure cluster

/-- The entry of a child. -/
def childEntry (u : UnicodeData) (child : ImageNode) : Except String (List UInt8) := do
  let short ← shortName11 u child.name
  match child with
  | .dir _ _ clusters => do
    let firstCluster ← firstOf clusters
    packDirEntry short 0x10 firstCluster 0
  | .file _ data clusters => packDirEntry short 0x20 (clusters.headD 0) data.length

/-- The entries of a directory before those of its children; `parent` is the first cluster of its
parent, `none` for the root. -/
def dotEntries (clusters : List Nat) : Option Nat → Except String (List (List UInt8))
  | none => pure []
  | some parentCluster => do
    let first ← firstOf clusters
    let dot ← dotEntry dotName first
    let dotDot ← dotEntry dotDotName parentCluster
    pure [dot, dotDot]

/-- `payload`, for a directory of `count` clusters. -/
def payload (count : Nat) (slots : List (List UInt8)) : List UInt8 :=
  slots.flatten ++ List.replicate (count * 512 - slots.flatten.length) 0

/-- The entries of a directory. -/
def directorySlots (u : UnicodeData) (parent : Option Nat) (children : List ImageNode)
    (clusters : List Nat) : Except String (List (List UInt8)) := do
  let dots ← dotEntries clusters parent
  let entries ← children.mapM (childEntry u)
  pure (dots ++ entries)

mutual

/-- `write_directories`, and what it does with a file. -/
def writeDirectories (u : UnicodeData) (dataLba : Nat) (parent : Option Nat) :
    ImageNode → FatImage → Except String FatImage
  | .file _ data clusters, image => writeClusterChain dataLba clusters data image
  | .dir _ children clusters, image => do
    let slots ← directorySlots u parent children clusters
    let image ← writeClusterChain dataLba clusters (payload clusters.length slots) image
    writeChildren u dataLba (clusters.headD 0) children image

/-- The second loop of `write_directories`. -/
def writeChildren (u : UnicodeData) (dataLba parent : Nat) :
    List ImageNode → FatImage → Except String FatImage
  | [], image => pure image
  | child :: rest, image => do
    let image ← writeDirectories u dataLba (some parent) child image
    writeChildren u dataLba parent rest image

end

/-! ## The tool -/

/-- Bytes stored one after the other into a sector of zeros. -/
def packSector (fields : List (Nat × List UInt8)) : Nat → UInt8 :=
  fields.foldl (fun sector field => overlay sector field.1 field.2.length (field.2.getD · 0))
    fun _ => 0

/-- `volume_label.upper().encode("ascii")[:11].ljust(11, b" ")`. -/
def labelBytes (u : UnicodeData) (volumeLabel : List Char) : Except String (List UInt8) := do
  let label ← encodeAscii (u.strUpper volumeLabel)
  pure (label.take 11 ++ List.replicate (11 - (label.take 11).length) 0x20)

/-- The bytes of `"MSWIN4.1"`. -/
def oemName : List UInt8 := [0x4D, 0x53, 0x57, 0x49, 0x4E, 0x34, 0x2E, 0x31]

/-- The bytes of `"FAT32   "`. -/
def systemId : List UInt8 := [0x46, 0x41, 0x54, 0x33, 0x32, 0x20, 0x20, 0x20]

/-- `build_boot_sector`. -/
def buildBootSector (u : UnicodeData) (totalSectors sectorsPerFat : Nat)
    (volumeLabel : List Char) : Except String (Nat → UInt8) := do
  let label ← labelBytes u volumeLabel
  let hiddenSectors ← packWord 0
  let total ← packWord totalSectors
  let perFat ← packWord sectorsPerFat
  let root ← packWord rootCluster
  let volumeId ← packWord 0x534F4E46
  pure (packSector
    [(0, [0xEB, 0x58, 0x90]), (3, oemName), (11, packHalf 512), (13, [1]), (14, packHalf 32),
      (16, [2]), (17, packHalf 0), (19, packHalf 0), (21, [0xF8]), (22, packHalf 0),
      (24, packHalf 63), (26, packHalf 255), (28, hiddenSectors), (32, total), (36, perFat),
      (40, packHalf 0), (42, packHalf 0), (44, root), (48, packHalf 1), (50, packHalf 6),
      (64, [0x80]), (66, [0x29]), (67, volumeId), (71, label), (82, systemId),
      (510, [0x55, 0xAA])])

/-- `build_fsinfo_sector`. -/
def buildFsinfoSector : Except String (Nat → UInt8) := do
  let lead ← packWord 0x41615252
  let middle ← packWord 0x61417272
  let unknown ← packWord 0xFFFFFFFF
  let trail ← packWord 0xAA550000
  pure (packSector [(0, lead), (484, middle), (488, unknown), (492, unknown), (508, trail)])

/-- The image before the directories are written. -/
def systemArea (totalSectors sectorsPerFat : Nat) (boot fsinfo : Nat → UInt8) (fat : Nat → Nat) :
    FatImage :=
  let blank : FatImage := ⟨totalSectors * 512, fun _ => 0⟩
  let sectors := (((blank.store 0 512 boot).store 512 512 fsinfo).store (6 * 512) 512 boot).store
    (7 * 512) 512 fsinfo
  (List.range 2).foldl
    (fun image i => image.store ((32 + i * sectorsPerFat) * 512) (sectorsPerFat * 512)
      (Fat32.fatBytes fat)) sectors

/-- `main`, with the image that is written. -/
def makeFat32Image (u : UnicodeData) (src : SourceEntry) (sizeMb : Int) (volumeLabel : List Char) :
    Except String FatImage :=
  match src with
  | .dir _ entries => do
    if sizeMb ≤ 0 then throw "size must be positive"
    let totalSectors := sizeMb * 1024 * 1024 / sectorSize
    let layout ← computeLayout totalSectors
    let sectorsPerFat := layout.sectorsPerFat.toNat
    let dataLba := layout.dataLba.toNat
    let tree := ImageNode.dir [] (sortNodes u (buildNodes u entries)) []
    let root ← allocateClusters u layout.totalClusters.toNat tree
    let boot ← buildBootSector u totalSectors.toNat sectorsPerFat volumeLabel
    let fsinfo ← buildFsinfoSector
    let fat ← registerChains (sectorsPerFat * 512 / 4) root emptyFat
    writeDirectories u dataLba none root
      (systemArea totalSectors.toNat sectorsPerFat boot fsinfo fat)
  | _ => throw "source directory does not exist"

/-- The sectors of the image as those of a disk. -/
def FatImage.disk (image : FatImage) : Nat → Nat → UInt8 := fun lba offset =>
  image.bytes (lba * 512 + offset)

theorem FatImage.disk_eq (image : FatImage) (lba offset : Nat) :
    image.disk lba offset = image.bytes (lba * 512 + offset) := rfl

end FunnyOS.Tools
