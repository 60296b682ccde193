import FunnyOS.Fat32.Device

/-!
# Cluster chains

The routines of `src/kernel/fat32.c` that walk, extend and free the chains of the
in-memory FAT `g_fat`, and the one that writes file data along a chain.
-/

namespace FunnyOS.Fat32

open Prog

/-! ## Single links -/

/-- `fat32_next_cluster`. -/
def fat32NextCluster (g : Geometry) (fat : Nat → Nat) (cluster : Nat) : Nat :=
  if g.isValidDataCluster cluster then fat cluster % 0x10000000 else endOfChain

/-- `fat32_set_cluster`. -/
def fat32SetCluster (g : Geometry) (fat : Nat → Nat) (cluster value : Nat) : Nat → Nat :=
  if g.isValidDataCluster cluster then
    fun c => if c = cluster then value % 0x10000000 else fat c
  else fat

/-- The condition of the loops over a chain, `cluster >= 2u && cluster < FAT32_END_OF_CHAIN`. -/
def inChain (cluster : Nat) : Bool := 2 ≤ cluster && cluster < endOfChain

/-- `find_free_cluster`. -/
def findFreeCluster (g : Geometry) (fat : Nat → Nat) : Nat :=
  ((List.range' 2 (g.totalClusters - 2)).find? (fun c => fat c == 0)).getD 0

/-- `get_cluster_at_index`, and the loop of `cluster_for_directory_index`. -/
def getClusterAtIndex (g : Geometry) (fat : Nat → Nat) : Nat → Nat → Nat
  | cluster, 0 => cluster
  | cluster, index + 1 =>
    if inChain cluster then getClusterAtIndex g fat (fat32NextCluster g fat cluster) index
    else cluster

/-- `clusters_for_size`, with its 32-bit sum. -/
def clustersForSize (g : Geometry) (size : Nat) : Nat :=
  if size = 0 then 0 else (size + g.clusterSize - 1) % 2 ^ 32 / g.clusterSize

section

variable (env : Env)

/-! ## Freeing and cutting -/

/-- `free_cluster_chain_in_memory`. -/
def freeClusterChainInMemory (firstCluster : Nat) : Driver Unit :=
  loop (fun cluster =>
    if inChain cluster then do
      let s ← get
      modify fun s => { s with fat := fat32SetCluster env.geometry s.fat cluster 0 }
      pure (.again (fat32NextCluster env.geometry s.fat cluster))
    else pure (.done ())) env.fuel firstCluster

/-- `trim_cluster_chain`; the result is the new value of `*first_cluster`. -/
def trimClusterChain (firstCluster requiredCount : Nat) : Driver Nat :=
  if requiredCount = 0 then do
    if 2 ≤ firstCluster then freeClusterChainInMemory env firstCluster else pure ()
    pure 0
  else if firstCluster < 2 then pure firstCluster
  else do
    let s ← get
    let cluster := getClusterAtIndex env.geometry s.fat firstCluster (requiredCount - 1)
    if inChain cluster then do
      let next := fat32NextCluster env.geometry s.fat cluster
      modify fun s => { s with fat := fat32SetCluster env.geometry s.fat cluster endOfChain }
      if inChain next then freeClusterChainInMemory env next else pure ()
      pure firstCluster
    else raise .ioError

/-! ## Growing -/

/-- `append_cluster_to_chain`; the result is `*new_cluster_out`. -/
def appendClusterToChain (firstCluster : Nat) : Driver Nat := do
  let s ← get
  let freeCluster := findFreeCluster env.geometry s.fat
  if freeCluster = 0 then raise .noSpace
  else do
    modify fun s => { s with fat := fat32SetCluster env.geometry s.fat freeCluster endOfChain }
    if firstCluster = 0 then pure freeCluster
    else do
      let s ← get
      let last ← loop (fun cluster =>
        let next := fat32NextCluster env.geometry s.fat cluster
        if inChain next then pure (.again next) else pure (.done cluster)) env.fuel firstCluster
      modify fun s => { s with fat := fat32SetCluster env.geometry s.fat last freeCluster }
      pure freeCluster

/-- `zero_cluster`. -/
def zeroCluster (cluster : Nat) : Driver Unit := do
  modify fun s => { s with clusterBuffer := fun o =>
    if o < env.geometry.clusterSize then 0 else s.clusterBuffer o }
  if ← writeCluster env cluster then pure () else raise .ioError

/-- The first loop of `allocate_cluster_chain`: take and link `count` more clusters. -/
def allocateLinks : Nat → Nat → Nat → Driver Nat
  | 0, firstCluster, _ => pure firstCluster
  | count + 1, firstCluster, lastCluster => do
    let s ← get
    let cluster := findFreeCluster env.geometry s.fat
    if cluster = 0 then do
      freeClusterChainInMemory env firstCluster
      raise .noSpace
    else do
      modify fun s => { s with fat := fat32SetCluster env.geometry s.fat cluster endOfChain }
      if lastCluster ≠ 0 then do
        modify fun s => { s with fat := fat32SetCluster env.geometry s.fat lastCluster cluster }
        allocateLinks count firstCluster cluster
      else allocateLinks count cluster cluster

/-- The second loop of `allocate_cluster_chain`: clear the clusters just taken. -/
def zeroLinks (firstCluster : Nat) : Nat → Nat → Driver Unit
  | 0, _ => pure ()
  | count + 1, cluster =>
    if inChain cluster then do
      match ← attempt (zeroCluster env cluster) with
      | .error e => do
        freeClusterChainInMemory env firstCluster
        raise e
      | .ok () => do
        let s ← get
        let next := fat32NextCluster env.geometry s.fat cluster
        if next ≥ endOfChain then pure () else zeroLinks firstCluster count next
    else pure ()

/-- `allocate_cluster_chain`; the result is `*first_cluster_out`. -/
def allocateClusterChain (count : Nat) : Driver Nat :=
  if count = 0 then pure 0
  else do
    let firstCluster ← allocateLinks env count 0 0
    zeroLinks env firstCluster count firstCluster
    pure firstCluster

/-- The growing loop of `ensure_cluster_chain_length`. -/
def growChain (firstCluster : Nat) : Nat → Driver Unit
  | 0 => pure ()
  | count + 1 => do
    let newCluster ← appendClusterToChain env firstCluster
    match ← attempt (zeroCluster env newCluster) with
    | .error e => do
      modify fun s => { s with fat := fat32SetCluster env.geometry s.fat newCluster 0 }
      raise e
    | .ok () => growChain firstCluster count

/-- `ensure_cluster_chain_length`; the result is the new value of `*first_cluster`. -/
def ensureClusterChainLength (firstCluster currentCount requiredCount : Nat) : Driver Nat :=
  if requiredCount ≤ currentCount then pure firstCluster
  else if currentCount = 0 then allocateClusterChain env requiredCount
  else do
    growChain env firstCluster (requiredCount - currentCount)
    pure firstCluster

/-! ## Data -/

/-- `write_data_to_chain`. The loop variables are the cluster, the offset in it and the
data still to be written. -/
def writeDataToChain (firstCluster startOffset : Nat) (data : List UInt8) : Driver Unit :=
  let g := env.geometry
  if data = [] then pure ()
  else if firstCluster < 2 then raise .ioError
  else do
    let s ← get
    let cluster := getClusterAtIndex g s.fat firstCluster (startOffset / g.clusterSize)
    if inChain cluster then
      loop (fun (cluster, offset, cursor) => do
        if ← readCluster env cluster then do
          let chunk := min (g.clusterSize - offset) cursor.length
          modify fun s => { s with
            clusterBuffer := fun o =>
              if offset ≤ o ∧ o < offset + chunk then cursor.getD (o - offset) 0
              else s.clusterBuffer o }
          if ← writeCluster env cluster then do
            if cursor.length - chunk = 0 then pure (.done ())
            else do
              let s ← get
              let next := fat32NextCluster g s.fat cluster
              if inChain next then pure (.again (next, 0, cursor.drop chunk))
              else raise .ioError
          else raise .ioError
        else raise .ioError) (data.length + 1) (cluster, startOffset % g.clusterSize, data)
    else raise .ioError

end

end FunnyOS.Fat32
