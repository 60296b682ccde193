import FunnyOS.Fat32.FatOnDisk
import FunnyOS.Tools.ImageBytes
import FunnyOS.Tools.ImageSlots

/-!
# The volume in the image

What `fat32_mount` finds in an image: the FAT that the tool has registered, and in the data clusters
the bytes that it has written. `HoldsTree` says so in terms of the volume alone.
-/

namespace FunnyOS.Tools

open Fat32

/-! ## The system area -/

section

variable {u : UnicodeData} {totalSectors sectorsPerFat dataLba a : Nat} {boot fsinfo : Nat → UInt8}
  {fat : Nat → Nat} {image image' : FatImage} {start count : Nat} {chunk : Nat → UInt8}
  {clusters : List Nat}

theorem le_store_size : image.size ≤ (image.store start count chunk).size := le_max_left _ _

theorem store_inside (hstart : start ≤ image.size) (ha : start ≤ a ∧ a < start + count) :
    (image.store start count chunk).bytes a = chunk (a - start) := by
  change overlay image.bytes (min start image.size) count chunk a = _
  rw [min_eq_left hstart, overlay_inside ha]

theorem store_outside (hstart : start ≤ image.size) (ha : ¬ (start ≤ a ∧ a < start + count)) :
    (image.store start count chunk).bytes a = image.bytes a := by
  change overlay image.bytes (min start image.size) count chunk a = _
  rw [min_eq_left hstart, overlay_outside ha]

variable (boot fsinfo fat) in
/-- The first copy of the FAT is in its sectors, and the image is as large as the volume. -/
theorem systemArea_fat (hsectors : 32 + 2 * sectorsPerFat ≤ totalSectors) :
    totalSectors * 512 ≤ (systemArea totalSectors sectorsPerFat boot fsinfo fat).size ∧
      ∀ o < sectorsPerFat * 512,
        (systemArea totalSectors sectorsPerFat boot fsinfo fat).bytes (32 * 512 + o)
          = fatBytes fat o := by
  unfold systemArea
  extract_lets blank sectors
  have hblank : blank.size ≤ (blank.store 0 512 boot).size := le_store_size
  have hsize : totalSectors * 512 ≤ sectors.size :=
    ((hblank.trans le_store_size).trans le_store_size).trans le_store_size
  clear_value sectors
  rw [show List.range 2 = [0, 1] from rfl, List.foldl_cons, List.foldl_cons, List.foldl_nil]
  refine ⟨(hsize.trans le_store_size).trans le_store_size, fun o ho => ?_⟩
  rw [store_outside, store_inside]
  · congr 1
    omega
  · exact (Nat.mul_le_mul_right 512 (by omega)).trans hsize
  · omega
  · exact (Nat.mul_le_mul_right 512 (by omega)).trans (hsize.trans le_store_size)
  · omega

/-- What is written behind the system area leaves it. -/
theorem KeepsOutside.low (h : KeepsOutside dataLba clusters image image')
    (ha : a < dataLba * 512) : image'.bytes a = image.bytes a := by
  refine h.bytes a fun c _ hin => ?_
  unfold InCluster at hin
  omega

end

/-! ## The volume -/

/-- The clusters hold the bytes, 512 each. -/
def HoldsBytes (v : Volume) : List Nat → List UInt8 → Prop
  | [], _ => True
  | cluster :: rest, data =>
    (∀ o < 512, o < data.length → v.data cluster o = data.getD o 0) ∧
    HoldsBytes v rest (data.drop 512)

/-- The clusters of a node in the directory with the first cluster `parent` hold its bytes. -/
def HoldsNode (u : UnicodeData) (v : Volume) (parent : Option Nat) : ImageNode → Prop
  | .file _ data clusters => HoldsBytes v clusters data
  | .dir _ children clusters => ∃ slots, directorySlots u parent children clusters = .ok slots ∧
    HoldsBytes v clusters (payload clusters.length slots)

/-- The volume holds the tree and nothing else. -/
structure HoldsTree (u : UnicodeData) (root : ImageNode) (g : Geometry) (v : Volume) : Prop where
  mounted : v.mounted = true
  sectorsPerCluster : g.sectorsPerCluster = 1
  isDir : root.isDir = true
  first : root.clusters.head? = some g.rootCluster
  valid : ∀ c ∈ treeClusters root, g.isValidDataCluster c = true
  nodup : (treeClusters root).Nodup
  free : ∀ c, 2 ≤ c → c ∉ treeClusters root → v.fat c = 0
  sized : ∀ p ∈ nodesOf u root, Sized u p.parent.isNone p.node
  linked : ∀ p ∈ nodesOf u root, LinkedIn v.fat p.node.clusters
  node : ∀ p ∈ nodesOf u root, HoldsNode u v p.parent p.node

section

variable {u : UnicodeData} {g : Geometry} {v : Volume} {image : FatImage} {dataLba : Nat}
  {clusters : List Nat} {data : List UInt8} {fat : Nat → Nat} {parent : Option Nat}
  {node root : ImageNode} {s s' : Fat32.State} {layout : FatLayout} {src : SourceEntry}
  {sizeMb : Int} {volumeLabel : List Char} {boot : Nat → UInt8}

/-- The bytes of the clusters in the volume are those in the image. -/
theorem Stores.holdsBytes (h : Stores image dataLba clusters data)
    (hdata : ∀ c ∈ clusters, ∀ o < 512,
      v.data c o = image.bytes ((dataLba + (c - 2)) * 512 + o)) : HoldsBytes v clusters data := by
  induction clusters generalizing data with
  | nil => trivial
  | cons cluster rest ih =>
    refine ⟨fun o ho hlt => ?_, ih h.2 fun c hc => hdata c (List.mem_cons_of_mem _ hc)⟩
    rw [hdata cluster List.mem_cons_self o ho]
    exact h.1 o ho hlt

theorem Written.holdsNode (h : Written u dataLba image parent node)
    (hdata : ∀ c ∈ node.clusters, ∀ o < 512,
      v.data c o = image.bytes ((dataLba + (c - 2)) * 512 + o)) : HoldsNode u v parent node := by
  cases node with
  | file name bytes clusters => exact Stores.holdsBytes h hdata
  | dir name children clusters =>
    obtain ⟨slots, hslots, hstores⟩ := h
    exact ⟨slots, hslots, hstores.holdsBytes hdata⟩

/-- A linked cluster leads to another one of its node, or is the last. -/
theorem LinkedIn.value {c : Nat} (h : LinkedIn fat clusters) (hc : c ∈ clusters) :
    fat c = eoc ∨ fat c ∈ clusters := by
  induction clusters with
  | nil => cases hc
  | cons cluster rest ih =>
    rcases List.mem_cons.mp hc with rfl | hc
    · rw [h.1]
      cases rest with
      | nil => exact .inl rfl
      | cons next rest => exact .inr (by simp)
    · exact (ih h.2 hc).imp_right (List.mem_cons_of_mem _)

/-- The clusters that the tool has given out. -/
theorem MadeImage.allotted (h : MadeImage u src sizeMb volumeLabel image layout root boot fat)
    (htop : 2 ≤ layout.totalClusters.toNat) :
    root.isDir = true ∧ root.clusters.head? = some rootCluster ∧ (treeClusters root).Nodup ∧
      (∀ c ∈ treeClusters root, 2 ≤ c ∧ c < layout.totalClusters.toNat) ∧
      ∀ p ∈ nodesOf u root, Sized u p.parent.isNone p.node := by
  obtain ⟨name, entries, -, halloc⟩ := h.allocated
  unfold allocateClusters at halloc
  obtain ⟨⟨root', next⟩, hwalk, halloc⟩ := ok_of_bind halloc
  dsimp only at halloc
  split at halloc
  · next hfirst =>
    obtain rfl := Except.ok.inj halloc
    obtain ⟨hend, count, rfl, hclusters⟩ := walkNode_clusters htop hwalk
    refine ⟨?_, hfirst, ?_, ?_, walkNode_sized htop rfl hwalk⟩
    · obtain ⟨_, _, _, -, -, -, rfl⟩ := walkNode_dir hwalk
      rfl
    · rw [hclusters]
      exact List.nodup_range'
    · intro c hc
      rw [hclusters, List.mem_range'_1] at hc
      omega
  · cases halloc

/-- The geometry and the state that mounting an image leads to. -/
theorem MadeImage.mounted (h : MadeImage u src sizeMb volumeLabel image layout root boot fat)
    (hdisk : s.disk = image.disk) (hmount : fat32Mount neverFails 0 512 s = .ok (some g) s') :
    Describes (sizeMb * 1024 * 1024 / sectorSize).toNat layout.sectorsPerFat.toNat g ∧
      s'.disk = image.disk ∧ s'.mounted = true ∧
      s'.fat = fun c => if c < g.sectorsPerFat * 128 then fatEntry (fatCopy g s) c else 0 := by
  obtain ⟨s₁, hrun⟩ := fat32Mount_ok (s := s)
  rw [hmount, hdisk] at hrun
  have hboot := (Outcome.ok.inj hrun).1.symm
  have hsector : bootGeometry 0 (bootSector s 0) = some g := by
    rw [← hboot, ← hdisk]
    rfl
  obtain ⟨s₂, hrun₂, hdisk₂, hmounted, hfat⟩ := fat32Mount_run (fun _ => rfl) hsector
  obtain rfl := (Outcome.ok.inj (hmount.symm.trans hrun₂)).2
  exact ⟨h.fields.describes hboot, hdisk₂.trans hdisk, hmounted, hfat⟩

/-- The numbers of the layout. -/
theorem MadeImage.sizes (h : MadeImage u src sizeMb volumeLabel image layout root boot fat) :
    layout.dataLba.toNat = 32 + 2 * layout.sectorsPerFat.toNat ∧
      32 + 2 * layout.sectorsPerFat.toNat < (sizeMb * 1024 * 1024 / sectorSize).toNat ∧
      layout.totalClusters.toNat = (sizeMb * 1024 * 1024 / sectorSize).toNat
        - (32 + 2 * layout.sectorsPerFat.toNat) + 2 ∧
      layout.totalClusters.toNat ≤ 128 * layout.sectorsPerFat.toNat := by
  have hpos := h.positive
  obtain ⟨hdata, -, hhigh, htotal, hentries, hlba⟩ := computeLayout_exact h.computed
  simp only [sectorSize] at hdata hhigh htotal ⊢
  refine ⟨?_, ?_, ?_, ?_⟩ <;> omega

/-- The FAT that the tool has registered. -/
theorem MadeImage.fat_spec (h : MadeImage u src sizeMb volumeLabel image layout root boot fat)
    (hnd : (treeClusters root).Nodup) :
    (∀ p ∈ nodesOf u root, LinkedIn fat p.node.clusters) ∧
      ∀ c ∉ treeClusters root, fat c = emptyFat c :=
  ⟨registerChains_linked hnd h.registered, registerChains_outside h.registered⟩

/-- Its entries fit in their fields. -/
theorem fat_lt {total : Nat} (htotal : total ≤ 2 ^ 32)
    (hlt : ∀ c ∈ treeClusters root, c < total)
    (hlinked : ∀ p ∈ nodesOf u root, LinkedIn fat p.node.clusters)
    (hfree : ∀ c ∉ treeClusters root, fat c = emptyFat c) (c : Nat) : fat c < 2 ^ 32 := by
  by_cases hc : c ∈ treeClusters root
  · obtain ⟨p, hp, hc⟩ := mem_treeClusters.mp hc
    rcases (hlinked p hp).value hc with heq | hmem
    · rw [heq]
      decide
    · exact (hlt _ (mem_treeClusters.mpr ⟨p, hp, hmem⟩)).trans_le htotal
  · rw [hfree c hc]
    unfold emptyFat
    split_ifs <;> decide

/-- The image holds the first copy of the FAT where the kernel looks for it. -/
theorem onDisk_image {perFat totalSectors : Nat} (hg : Describes totalSectors perFat g)
    (hdisk : s.disk = image.disk)
    (hbytes : ∀ o < perFat * 512, image.bytes (32 * 512 + o) = fatBytes fat o) :
    OnDisk g fat s := by
  intro k hk o ho
  have hle := g.sectorsPerFat_le
  rw [hg.sectorsPerFat] at hk hle
  have hsector : g.fatSector k = 32 + k := by
    simp only [maxFatSectors] at hle
    simp only [Geometry.fatSector, hg.partitionLba, hg.reservedSectors]
    omega
  simp only [Fat32.sectorSize] at ho ⊢
  have hin : k * 512 + o < perFat * 512 := by omega
  rw [← hbytes _ hin, hdisk, hsector, image.disk_eq, Nat.add_mul, Nat.add_assoc]

/-- The bytes of a cluster where the kernel looks for them. -/
theorem data_image {perFat totalSectors c o : Nat} (hg : Describes totalSectors perFat g)
    (hdisk : s.disk = image.disk) (hc : g.isValidDataCluster c = true) (ho : o < 512) :
    (s.volume g).data c o = image.bytes ((32 + 2 * perFat + (c - 2)) * 512 + o) := by
  have harea := g.cluster_area hc g.sectorsPerCluster_pos
  have hlt := g.totalSectors_lt
  have hlba : g.clusterToLba c = 32 + 2 * perFat + (c - 2) := by
    rw [g.clusterToLba_eq]
    simp only [hg.partitionLba, hg.reservedSectors, hg.fatCount, hg.sectorsPerFat,
      hg.sectorsPerCluster] at harea ⊢
    omega
  have hsize : o < g.clusterSize := by
    rwa [Geometry.clusterSize, hg.sectorsPerCluster, Nat.one_mul]
  change (if g.isValidDataCluster c ∧ o < g.clusterSize then
    s.disk (g.clusterToLba c + o / 512) (o % 512) else 0) = _
  rw [if_pos ⟨hc, hsize⟩, hdisk, hlba, Nat.div_eq_of_lt ho, Nat.mod_eq_of_lt ho, Nat.add_zero,
    image.disk_eq]

/-- The volume that is mounted holds the tree. -/
theorem MadeImage.holdsTree (h : MadeImage u src sizeMb volumeLabel image layout root boot fat)
    (hdisk : s.disk = image.disk) (hmount : fat32Mount neverFails 0 512 s = .ok (some g) s') :
    HoldsTree u root g (s'.volume g) := by
  obtain ⟨hg, hdisk', hmounted, hfat⟩ := h.mounted hdisk hmount
  obtain ⟨hlba, harea, htotal, hentries⟩ := h.sizes
  obtain ⟨fsinfo, hrun⟩ := h.written
  rw [hlba] at hrun
  have hclusters : g.totalClusters = layout.totalClusters.toNat :=
    hg.totalClusters.trans htotal.symm
  obtain ⟨hdir, hfirst, hnd, hrange, hsized⟩ := h.allotted (by omega)
  obtain ⟨hlinked, hfree⟩ := h.fat_spec hnd
  have hvalid : ∀ c ∈ treeClusters root, g.isValidDataCluster c = true := by
    intro c hc
    rw [g.isValidDataCluster_iff, hclusters]
    exact hrange c hc
  -- the clusters are in the image, behind the system area
  obtain ⟨hsize, hbytes⟩ := systemArea_fat boot fsinfo fat harea.le
  have hroom : HasClusters (32 + 2 * layout.sectorsPerFat.toNat) (treeClusters root)
      (systemArea (sizeMb * 1024 * 1024 / sectorSize).toNat layout.sectorsPerFat.toNat boot fsinfo
        fat) := by
    intro c hc
    have hlt := (hrange c hc).2
    rw [← Nat.succ_mul]
    exact (Nat.mul_le_mul_right 512 (by omega)).trans hsize
  have hkeeps := writeDirectories_keeps hroom hrun
  have hwritten : ∀ p ∈ nodesOf u root, Written u (32 + 2 * layout.sectorsPerFat.toNat) image
      p.parent p.node := writeDirectories_written (fun c hc => (hrange c hc).1) hnd hroom hrun
  -- the FAT is read from its first copy
  have hondisk : OnDisk g fat s := by
    refine onDisk_image hg hdisk fun o ho => ?_
    rw [hkeeps.low (by omega), hbytes o ho]
  have htop : 128 * layout.sectorsPerFat.toNat ≤ 2 ^ 32 := by
    have hle := g.sectorsPerFat_le
    rw [hg.sectorsPerFat, maxFatSectors] at hle
    omega
  have hfit : ∀ c, fat c < 2 ^ 32 :=
    fat_lt htop (fun c hc => (hrange c hc).2.trans_le hentries) hlinked hfree
  have hsame : ∀ c, 2 ≤ c → s'.fat c = fat c := by
    intro c hc
    simp only [hfat]
    split
    · next hlt => exact hondisk.fatEntry_eq (hfit c) hlt
    · next hge =>
      rw [hg.sectorsPerFat] at hge
      have hout : c ∉ treeClusters root := fun hmem => by
        have := (hrange c hmem).2
        omega
      rw [hfree c hout, emptyFat, if_neg (by omega), if_neg (by omega)]
  have htree : ∀ p ∈ nodesOf u root, ∀ c ∈ p.node.clusters, c ∈ treeClusters root :=
    fun p hp c hc => mem_treeClusters.mpr ⟨p, hp, hc⟩
  refine ⟨hmounted, hg.sectorsPerCluster, hdir, hg.rootCluster ▸ hfirst, hvalid, hnd, ?_, hsized,
    ?_, ?_⟩
  · intro c hc hout
    refine (hsame c hc).trans ?_
    rw [hfree c hout, emptyFat, if_neg (by omega), if_neg (by omega)]
  · intro p hp
    exact (hlinked p hp).congr fun c hc => hsame c (hrange c (htree p hp c hc)).1
  · intro p hp
    exact (hwritten p hp).holdsNode fun c hc o ho =>
      data_image hg hdisk' (hvalid c (htree p hp c hc)) ho

end

end FunnyOS.Tools
