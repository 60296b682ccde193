import FunnyOS.Fat32.Types

/-!
# Sectors, clusters and the FAT on disk

The routines of `src/kernel/fat32.c` that talk to the block layer, and `fat32_mount`.
A transfer takes place completely or fails without effect; which transfers fail is
given by `Env.fails`.
-/

namespace FunnyOS.Fat32

open Prog

/-! ## Transfers -/

/-- `block_read_sectors`: the bytes read, `none` where the transfer fails. -/
def blockReadSectors (fails : Nat → Bool) (lba count : Nat) : Driver (Option (Nat → UInt8)) :=
  fun s =>
    let s' := { s with transfers := s.transfers + 1, requests := (lba, count) :: s.requests }
    if fails s.transfers then .ok none s'
    else .ok (some fun o => s.disk (lba + o / sectorSize) (o % sectorSize)) s'

/-- `block_write_sectors`. -/
def blockWriteSectors (fails : Nat → Bool) (lba count : Nat) (data : Nat → UInt8) :
    Driver Bool := fun s =>
  let s' := { s with transfers := s.transfers + 1, requests := (lba, count) :: s.requests }
  if fails s.transfers then .ok false s'
  else .ok true { s' with disk := fun l o =>
    if lba ≤ l ∧ l < lba + count then data ((l - lba) * sectorSize + o) else s.disk l o }

/-- `write_sectors`, at most 255 sectors at a time; `room` bounds the rounds. -/
def writeSectors (fails : Nat → Bool) : Nat → Nat → Nat → (Nat → UInt8) → Driver Bool
  | 0, _, _, _ => pure true
  | room + 1, lba, count, cursor =>
    if count = 0 then pure true
    else do
      let chunk := min count 255
      if ← blockWriteSectors fails lba chunk cursor then
        writeSectors fails room ((lba + chunk) % 2 ^ 32) (count - chunk)
          (fun o => cursor (chunk * sectorSize + o))
      else pure false

/-! ## Clusters -/

/-- `read_cluster`. -/
def readCluster (env : Env) (cluster : Nat) : Driver Bool :=
  let g := env.geometry
  if g.sectorsPerCluster = 0 ∨ g.sectorsPerCluster > maxClusterSectors then pure false
  else if g.isValidDataCluster cluster then do
    match ← blockReadSectors env.fails (g.clusterToLba cluster) g.sectorsPerCluster with
    | none => pure false
    | some bytes =>
      modify fun s => { s with clusterBuffer := fun o =>
        if o < g.clusterSize then bytes o else s.clusterBuffer o }
      pure true
  else pure false

/-- `write_cluster`. -/
def writeCluster (env : Env) (cluster : Nat) : Driver Bool :=
  let g := env.geometry
  if g.sectorsPerCluster = 0 ∨ g.sectorsPerCluster > maxClusterSectors then pure false
  else if g.isValidDataCluster cluster then do
    let s ← get
    blockWriteSectors env.fails (g.clusterToLba cluster) g.sectorsPerCluster s.clusterBuffer
  else pure false

/-- The bytes of `g_fat`. -/
def fatBytes (fat : Nat → Nat) : Nat → UInt8 := fun o => leByte (fat (o / 4)) (o % 4)

/-- The loop of `flush_fat` over the FAT copies from number `i` on. -/
def flushCopies (env : Env) : Nat → Nat → Driver Bool
  | 0, _ => pure true
  | copies + 1, i => do
    let g := env.geometry
    let s ← get
    if ← writeSectors env.fails g.sectorsPerFat ((g.fatLba + i * g.sectorsPerFat) % 2 ^ 32)
        g.sectorsPerFat (fatBytes s.fat) then
      flushCopies env copies (i + 1)
    else pure false

/-- `flush_fat`. -/
def flushFat (env : Env) : Driver Bool := flushCopies env env.geometry.fatCount 0

/-! ## Mounting -/

/-- The geometry that `fat32_mount` reads from a boot sector, `none` where it refuses. -/
def bootGeometry (partitionLbaStart : Nat) (boot : Nat → UInt8) : Option Geometry :=
  let field16 (o : Nat) := le16 (boot o) (boot (o + 1))
  let field32 (o : Nat) := field16 o + 65536 * field16 (o + 2)
  let sectorsPerFat := field32 36
  let sectorsPerCluster := (boot 13).toNat
  let fatCount := (boot 16).toNat
  let reservedSectors := field16 14
  let rootCluster := field32 44
  let totalSectors := if field16 19 ≠ 0 then field16 19 else field32 32
  let nonDataSectors := reservedSectors + fatCount * sectorsPerFat
  let totalClusters := (totalSectors - nonDataSectors) / sectorsPerCluster + 2
  if h : field16 11 = sectorSize
      ∧ (0 < sectorsPerFat ∧ sectorsPerFat ≤ maxFatSectors)
      ∧ (0 < sectorsPerCluster ∧ sectorsPerCluster ≤ maxClusterSectors)
      ∧ (0 < fatCount ∧ 0 < reservedSectors) ∧ 2 ≤ rootCluster
      ∧ nonDataSectors < totalSectors
      ∧ totalClusters ≤ sectorsPerFat * sectorSize / 4 ∧ rootCluster < totalClusters then
    some
      { partitionLba := partitionLbaStart % 2 ^ 32
        sectorsPerCluster, fatCount, reservedSectors, sectorsPerFat, rootCluster
        totalClusters, totalSectors
        partitionLba_lt := Nat.mod_lt _ (by decide)
        sectorsPerCluster_pos := h.2.2.1.1
        sectorsPerCluster_le := h.2.2.1.2
        fatCount_pos := h.2.2.2.1.1
        reservedSectors_pos := h.2.2.2.1.2
        sectorsPerFat_pos := h.2.1.1
        sectorsPerFat_le := h.2.1.2
        totalSectors_lt := by
          have h16 (o : Nat) : field16 o < 65536 := by
            have := (boot o).toNat_lt; have := (boot (o + 1)).toNat_lt
            simp only [field16, le16]; omega
          have := h16 19; have := h16 32; have := h16 (32 + 2)
          simp only [totalSectors, field32]; split <;> omega
        nonData_lt := h.2.2.2.2.2.1
        totalClusters_eq := rfl
        totalClusters_le := h.2.2.2.2.2.2.1
        rootCluster_ge := h.2.2.2.2.1
        rootCluster_lt := h.2.2.2.2.2.2.2 }
  else none

/-- Entry `i` of a block of FAT sectors. -/
def fatEntry (bytes : Nat → UInt8) (i : Nat) : Nat :=
  le16 (bytes (4 * i)) (bytes (4 * i + 1))
    + 65536 * le16 (bytes (4 * i + 2)) (bytes (4 * i + 3))

/-- The call `read_sectors(g_fat_lba, g_sectors_per_fat, g_fat)` of `fat32_mount`, from
sector `done` of the FAT on; `room` bounds the rounds. -/
def readFatSectors (fails : Nat → Bool) : Nat → Nat → Nat → Nat → Driver Bool
  | 0, _, _, _ => pure true
  | room + 1, lba, count, done =>
    if count = 0 then pure true
    else do
      let chunk := min count 255
      match ← blockReadSectors fails lba chunk with
      | none => pure false
      | some bytes =>
        modify fun s => { s with
          fat := fun c =>
            if done * 128 ≤ c ∧ c < (done + chunk) * 128 then fatEntry bytes (c - done * 128)
            else s.fat c }
        readFatSectors fails room ((lba + chunk) % 2 ^ 32) (count - chunk) (done + chunk)

/-- `fat32_mount`: the geometry it sets up, `none` where it returns false. -/
def fat32Mount (fails : Nat → Bool) (partitionLbaStart bytesPerSector : Nat) :
    Driver (Option Geometry) :=
  if bytesPerSector ≠ sectorSize then pure none
  else do
    match ← blockReadSectors fails partitionLbaStart 1 with
    | none => pure none
    | some boot =>
      match bootGeometry partitionLbaStart boot with
      | none => pure none
      | some g =>
        if ← readFatSectors fails g.sectorsPerFat g.fatLba g.sectorsPerFat 0 then
          modify fun s => { s with
            mounted := true
            clusterBuffer := fun _ => 0
            fat := fun c => if c < g.sectorsPerFat * 128 then s.fat c else 0 }
          pure (some g)
        else pure none

end FunnyOS.Fat32
