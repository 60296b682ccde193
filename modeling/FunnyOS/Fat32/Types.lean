import FunnyOS.Lib.Prog

/-!
# Data of the FAT32 driver

The on-disk structures and global variables of `src/kernel/fat32.c`. A directory
slot is kept as its 32 raw bytes, so that the two views the driver casts it to
(`DirectoryEntry` and `LfnDirectoryEntry`) are functions of the same value. The
globals that `fat32_mount` fixes are collected in `Geometry`, whose propositional
fields are the checks that `fat32_mount` makes; the remaining globals and the
content of the block device form `State`.
-/

namespace FunnyOS.Fat32

/-! ## Constants -/

/-- `FAT32_SECTOR_SIZE`. -/
def sectorSize : Nat := 512
/-- `FAT32_MAX_FAT_SECTORS`. -/
def maxFatSectors : Nat := 4096
/-- `FAT32_MAX_CLUSTER_SECTORS`. -/
def maxClusterSectors : Nat := 8
/-- `FAT32_END_OF_CHAIN`. -/
def endOfChain : Nat := 0x0FFFFFF8
/-- `FAT32_DIRECTORY`. -/
def attrDirectory : UInt8 := 0x10
/-- `FAT32_VOLUME_ID`. -/
def attrVolumeId : UInt8 := 0x08
/-- `FAT32_LFN`. -/
def attrLfn : UInt8 := 0x0F
/-- `FAT32_ARCHIVE`. -/
def attrArchive : UInt8 := 0x20
/-- `FAT32_DELETED`. -/
def deletedMark : UInt8 := 0xE5
/-- `FAT32_LFN_LAST`. -/
def lfnLast : UInt8 := 0x40
/-- `FAT32_LFN_ENTRY_MASK`. -/
def lfnEntryMask : UInt8 := 0x1F
/-- `FAT32_MAX_NAME_ENTRIES`. -/
def maxNameEntries : Nat := 11
/-- `FAT32_NAME_CAPACITY`. -/
def nameCapacity : Nat := 128
/-- The size of the `parent_path` buffers of the public operations. -/
def parentPathCapacity : Nat := 128

/-- `Fat32Result`. -/
inductive Fat32Result where
  | ok
  | notFound
  | alreadyExists
  | notADirectory
  | isADirectory
  | directoryNotEmpty
  | invalidName
  | noSpace
  | ioError
  deriving DecidableEq, Repr

/-- The bytes of a C string, without the terminating NUL. -/
abbrev CStr := List UInt8

/-- `Fat32NodeInfo`. -/
structure Fat32NodeInfo where
  name : CStr
  isDir : Bool
  size : Nat
  deriving DecidableEq, Repr

/-! ## Directory slots -/

/-- A little-endian 16-bit field. -/
def le16 (lo hi : UInt8) : Nat := lo.toNat + 256 * hi.toNat

/-- Byte `k` of a little-endian field that holds `n`. -/
def leByte (n k : Nat) : UInt8 := UInt8.ofNat (n / 256 ^ k % 256)

/-- A 32-byte directory slot: `DirectoryEntry`, or `LfnDirectoryEntry` by a cast. -/
structure DirectoryEntry where
  byte : Fin 32 → UInt8

namespace DirectoryEntry

@[ext] theorem ext {e e' : DirectoryEntry} (h : ∀ i, e.byte i = e'.byte i) : e = e' := by
  cases e; cases e'; congr; funext i; exact h i

instance : DecidableEq DirectoryEntry := fun e e' =>
  decidable_of_iff (∀ i, e.byte i = e'.byte i) ⟨ext, fun h _ => h ▸ rfl⟩

/-- `name[0]`, which is also the `order` byte of a long-name slot. -/
def name0 (e : DirectoryEntry) : UInt8 := e.byte 0

/-- `name`. -/
def name (e : DirectoryEntry) : List UInt8 :=
  List.ofFn fun i : Fin 11 => e.byte (i.castLE (by decide))

/-- `attributes`, at the same place in both views. -/
def attributes (e : DirectoryEntry) : UInt8 := e.byte 11

/-- `size`. -/
def size (e : DirectoryEntry) : Nat :=
  le16 (e.byte 28) (e.byte 29) + 65536 * le16 (e.byte 30) (e.byte 31)

/-- `LfnDirectoryEntry.checksum`. -/
def lfnChecksum (e : DirectoryEntry) : UInt8 := e.byte 13

/-- The thirteen code units `name1`, `name2`, `name3` of `LfnDirectoryEntry`, in order. -/
def lfnUnits (e : DirectoryEntry) : List Nat :=
  [le16 (e.byte 1) (e.byte 2), le16 (e.byte 3) (e.byte 4), le16 (e.byte 5) (e.byte 6),
   le16 (e.byte 7) (e.byte 8), le16 (e.byte 9) (e.byte 10),
   le16 (e.byte 14) (e.byte 15), le16 (e.byte 16) (e.byte 17), le16 (e.byte 18) (e.byte 19),
   le16 (e.byte 20) (e.byte 21), le16 (e.byte 22) (e.byte 23), le16 (e.byte 24) (e.byte 25),
   le16 (e.byte 28) (e.byte 29), le16 (e.byte 30) (e.byte 31)]

/-- `entry_first_cluster`. -/
def entryFirstCluster (e : DirectoryEntry) : Nat :=
  65536 * le16 (e.byte 20) (e.byte 21) + le16 (e.byte 26) (e.byte 27)

/-- Replace one byte. -/
def setByte (e : DirectoryEntry) (i : Fin 32) (b : UInt8) : DirectoryEntry :=
  ⟨fun j => if j = i then b else e.byte j⟩

/-- `entry_set_first_cluster`. -/
def entrySetFirstCluster (e : DirectoryEntry) (cluster : Nat) : DirectoryEntry :=
  (((e.setByte 26 (leByte cluster 0)).setByte 27 (leByte cluster 1)).setByte 20
    (leByte cluster 2)).setByte 21 (leByte cluster 3)

/-- The assignment `entry.size = size`. -/
def setSize (e : DirectoryEntry) (size : Nat) : DirectoryEntry :=
  (((e.setByte 28 (leByte size 0)).setByte 29 (leByte size 1)).setByte 30
    (leByte size 2)).setByte 31 (leByte size 3)

/-- The assignment `entry.attributes = attributes`. -/
def setAttributes (e : DirectoryEntry) (attributes : UInt8) : DirectoryEntry :=
  e.setByte 11 attributes

/-- The assignment `entry.name[0] = FAT32_DELETED`. -/
def setDeleted (e : DirectoryEntry) : DirectoryEntry := e.setByte 0 deletedMark

/-- `k_memcpy(entry.name, name, 11)`. -/
def setName (e : DirectoryEntry) (name : List UInt8) : DirectoryEntry :=
  ⟨fun i => if i.val < 11 then name.getD i.val 0 else e.byte i⟩

/-- A slot cleared by `k_memset`. -/
def zero : DirectoryEntry := ⟨fun _ => 0⟩

instance : Inhabited DirectoryEntry := ⟨zero⟩

/-- The test `(entry->attributes & FAT32_DIRECTORY) != 0`. -/
def isDirectory (e : DirectoryEntry) : Bool := e.attributes &&& attrDirectory != 0

end DirectoryEntry

/-! ## Globals -/

/-- The globals that describe the mounted volume, with what `fat32_mount` has checked.
`g_bytes_per_sector` is always 512, and `g_fat_lba`, `g_data_lba`, `g_cluster_size` are
functions of these fields (`Geometry.fatLba` and so on). `totalSectors` is not a global;
it is the size found in the boot sector. -/
structure Geometry where
  partitionLba : Nat
  sectorsPerCluster : Nat
  fatCount : Nat
  reservedSectors : Nat
  sectorsPerFat : Nat
  rootCluster : Nat
  totalClusters : Nat
  totalSectors : Nat
  partitionLba_lt : partitionLba < 2 ^ 32
  sectorsPerCluster_pos : 0 < sectorsPerCluster
  sectorsPerCluster_le : sectorsPerCluster ≤ maxClusterSectors
  fatCount_pos : 0 < fatCount
  reservedSectors_pos : 0 < reservedSectors
  sectorsPerFat_pos : 0 < sectorsPerFat
  sectorsPerFat_le : sectorsPerFat ≤ maxFatSectors
  totalSectors_lt : totalSectors < 2 ^ 32
  nonData_lt : reservedSectors + fatCount * sectorsPerFat < totalSectors
  totalClusters_eq : totalClusters =
    (totalSectors - (reservedSectors + fatCount * sectorsPerFat)) / sectorsPerCluster + 2
  totalClusters_le : totalClusters ≤ sectorsPerFat * sectorSize / 4
  rootCluster_ge : 2 ≤ rootCluster
  rootCluster_lt : rootCluster < totalClusters

namespace Geometry

variable (g : Geometry)

/-- `g_fat_lba`. -/
def fatLba : Nat := (g.partitionLba + g.reservedSectors) % 2 ^ 32

/-- `g_data_lba`. -/
def dataLba : Nat := (g.fatLba + g.fatCount * g.sectorsPerFat) % 2 ^ 32

/-- `g_cluster_size`. -/
def clusterSize : Nat := g.sectorsPerCluster * sectorSize

/-- `entries_per_cluster`. -/
def entriesPerCluster : Nat := g.clusterSize / 32

/-- `is_valid_data_cluster`. -/
def isValidDataCluster (cluster : Nat) : Bool := 2 ≤ cluster && cluster < g.totalClusters

/-- `cluster_to_lba`. -/
def clusterToLba (cluster : Nat) : Nat :=
  (g.dataLba + (cluster - 2) * g.sectorsPerCluster) % 2 ^ 32

end Geometry

/-- The rest of the driver's globals, and the block device under it: `disk lba offset` is
the byte at `offset` of sector `lba`, `transfers` counts the requests made so far, and
`requests` records them, the last one first: the first sector and the number of sectors. -/
structure State where
  mounted : Bool
  fat : Nat → Nat
  clusterBuffer : Nat → UInt8
  disk : Nat → Nat → UInt8
  transfers : Nat
  requests : List (Nat × Nat) := []

/-- What stays fixed during a call: the geometry of the volume, which requests the block
device fails (by their number), and the fuel given to each loop. -/
structure Env where
  geometry : Geometry
  fails : Nat → Bool
  fuel : Nat

/-- The routines of the driver. -/
abbrev Driver := Prog State Fat32Result

end FunnyOS.Fat32
