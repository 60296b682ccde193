import FunnyOS.Tools.FatImage

/-!
# The mounted image

The geometry of an image is computed twice: `compute_layout` of the tool rounds up to a FAT that has
an entry for every cluster, and `fat32_mount` takes the boot sector apart. The boot sector that the
kernel reads is the one the tool has built, whatever is written behind it, and the two agree. The
kernel keeps the FAT in an array of `FAT32_MAX_FAT_SECTORS` sectors, which the tool knows nothing
of: images of more than 260 MiB are written and then refused.
-/

namespace FunnyOS.Tools

open Fat32 (leByte le16 Geometry fat32Mount bootGeometry readFatSectors blockReadSectors)

variable {u : UnicodeData} {image image' : FatImage} {boot : Nat → UInt8} {start count o : Nat}
  {chunk : Nat → UInt8} {dataLba : Nat}

/-! ## The first sector -/

/-- The first sector of the image is the boot sector. -/
structure Boots (boot : Nat → UInt8) (image : FatImage) : Prop where
  size : 512 ≤ image.size
  bytes : ∀ o < 512, image.bytes o = boot o

theorem Boots.store (h : Boots boot image) (hstart : 512 ≤ start) :
    Boots boot (image.store start count chunk) := by
  have hsize := h.size
  constructor
  · exact hsize.trans (le_max_left _ _)
  · intro o ho
    exact (overlay_outside (by omega)).trans (h.bytes o ho)

theorem Boots.storeClusters (hlba : 1 ≤ dataLba) {chain : List Nat} {data : List UInt8}
    (h : Boots boot image) : Boots boot (storeClusters dataLba chain data image) := by
  induction chain generalizing data image with
  | nil => exact h
  | cons cluster rest ih => exact ih (h.store (by omega))

theorem Boots.writeClusterChain (hlba : 1 ≤ dataLba) {chain : List Nat} {data : List UInt8}
    (h : Boots boot image) (hrun : writeClusterChain dataLba chain data image = .ok image') :
    Boots boot image' := by
  unfold Tools.writeClusterChain at hrun
  split at hrun
  · obtain rfl := Except.ok.inj hrun
    exact h
  · split at hrun
    · cases hrun
    · obtain rfl := Except.ok.inj hrun
      exact h.storeClusters hlba

/-- What follows a step that has not raised an exception. -/
theorem ok_of_bind {α β : Type} {x : Except String α} {f : α → Except String β} {b : β}
    (h : (x >>= f) = .ok b) : ∃ a, x = .ok a ∧ f a = .ok b := by
  cases x with
  | error e => cases h
  | ok a => exact ⟨a, rfl, h⟩

mutual

theorem Boots.writeDirectories (hlba : 1 ≤ dataLba) {parent : Option Nat} :
    ∀ {node : ImageNode} {image image' : FatImage}, Boots boot image →
      writeDirectories u dataLba parent node image = .ok image' → Boots boot image'
  | .file _ _ _, _, _, h, hrun => by
    rw [Tools.writeDirectories] at hrun
    exact h.writeClusterChain hlba hrun
  | .dir _ _ _, _, _, h, hrun => by
    rw [Tools.writeDirectories] at hrun
    obtain ⟨slots, -, hrun⟩ := ok_of_bind hrun
    obtain ⟨image₁, hchain, hrun⟩ := ok_of_bind hrun
    exact Boots.writeChildren hlba (h.writeClusterChain hlba hchain) hrun

theorem Boots.writeChildren (hlba : 1 ≤ dataLba) {parent : Nat} :
    ∀ {nodes : List ImageNode} {image image' : FatImage}, Boots boot image →
      writeChildren u dataLba parent nodes image = .ok image' → Boots boot image'
  | [], _, _, h, hrun => by
    rw [Tools.writeChildren] at hrun
    obtain rfl := Except.ok.inj hrun
    exact h
  | _ :: _, _, _, h, hrun => by
    rw [Tools.writeChildren] at hrun
    obtain ⟨image₁, hchild, hrun⟩ := ok_of_bind hrun
    exact Boots.writeChildren hlba (Boots.writeDirectories hlba h hchild) hrun

end

/-- The areas before the directories. -/
theorem boots_systemArea {totalSectors sectorsPerFat : Nat} {fsinfo : Nat → UInt8}
    {fat : Nat → Nat} (hsectors : 1 ≤ totalSectors) :
    Boots boot (systemArea totalSectors sectorsPerFat boot fsinfo fat) := by
  have hfirst : Boots boot (FatImage.store ⟨totalSectors * 512, fun _ => 0⟩ 0 512 boot) := by
    constructor
    · change 512 ≤ max (totalSectors * 512) _
      omega
    · intro o ho
      change overlay _ (min 0 _) 512 boot o = boot o
      rw [Nat.zero_min, overlay_inside (by omega), Nat.sub_zero]
  have hsectors : Boots boot (((FatImage.store ⟨totalSectors * 512, fun _ => 0⟩ 0 512 boot).store
      512 512 fsinfo).store (6 * 512) 512 boot |>.store (7 * 512) 512 fsinfo) :=
    ((hfirst.store le_rfl).store (by omega)).store (by omega)
  exact (hsectors.store (by omega)).store (by omega)

/-! ## The boot sector -/

theorem packWord_ok {n : Nat} {bytes : List UInt8} (h : packWord n = .ok bytes) :
    n < 2 ^ 32 ∧ bytes = [leByte n 0, leByte n 1, leByte n 2, leByte n 3] := by
  unfold packWord at h
  split at h
  · exact ⟨‹_›, (Except.ok.inj h).symm⟩
  · cases h

theorem le16_word {n : Nat} (h : n < 2 ^ 32) :
    le16 (leByte n 0) (leByte n 1) + 65536 * le16 (leByte n 2) (leByte n 3) = n := by
  simp only [le16, leByte, UInt8.toNat_ofNat']
  omega

/-- The fields of a boot sector that `fat32_mount` looks at. -/
structure SectorFields (totalSectors perFat : Nat) (boot : Nat → UInt8) : Prop where
  bytesPerSector : le16 (boot 11) (boot 12) = 512
  sectorsPerCluster : boot 13 = 1
  reservedSectors : le16 (boot 14) (boot 15) = 32
  fatCount : boot 16 = 2
  totalSectors16 : le16 (boot 19) (boot 20) = 0
  totalSectors32 : le16 (boot 32) (boot 33) + 65536 * le16 (boot 34) (boot 35) = totalSectors
  sectorsPerFat : le16 (boot 36) (boot 37) + 65536 * le16 (boot 38) (boot 39) = perFat
  rootCluster : le16 (boot 44) (boot 45) + 65536 * le16 (boot 46) (boot 47) = 2

theorem SectorFields.congr {totalSectors sectorsPerFat : Nat} {boot' : Nat → UInt8}
    (h : SectorFields totalSectors sectorsPerFat boot) (heq : ∀ o < 512, boot' o = boot o) :
    SectorFields totalSectors sectorsPerFat boot' := by
  obtain ⟨h11, h13, h14, h16, h19, h32, h36, h44⟩ := h
  constructor
  · rwa [heq _ (by decide), heq _ (by decide)]
  · rwa [heq _ (by decide)]
  · rwa [heq _ (by decide), heq _ (by decide)]
  · rwa [heq _ (by decide)]
  · rwa [heq _ (by decide), heq _ (by decide)]
  · rwa [heq _ (by decide), heq _ (by decide), heq _ (by decide), heq _ (by decide)]
  · rwa [heq _ (by decide), heq _ (by decide), heq _ (by decide), heq _ (by decide)]
  · rwa [heq _ (by decide), heq _ (by decide), heq _ (by decide), heq _ (by decide)]

theorem sectorFields_of_build {totalSectors sectorsPerFat : Nat} {volumeLabel : List Char}
    (h : buildBootSector u totalSectors sectorsPerFat volumeLabel = .ok boot) :
    SectorFields totalSectors sectorsPerFat boot := by
  unfold buildBootSector at h
  obtain ⟨label, -, h⟩ := ok_of_bind h
  obtain ⟨hiddenSectors, hhidden, h⟩ := ok_of_bind h
  obtain ⟨total, htotal, h⟩ := ok_of_bind h
  obtain ⟨perFat, hperFat, h⟩ := ok_of_bind h
  obtain ⟨root, hroot, h⟩ := ok_of_bind h
  obtain ⟨volumeId, hvolume, h⟩ := ok_of_bind h
  obtain ⟨-, rfl⟩ := packWord_ok hhidden
  obtain ⟨ht, rfl⟩ := packWord_ok htotal
  obtain ⟨hs, rfl⟩ := packWord_ok hperFat
  obtain ⟨-, rfl⟩ := packWord_ok hroot
  obtain ⟨-, rfl⟩ := packWord_ok hvolume
  obtain rfl := Except.ok.inj h
  exact ⟨rfl, rfl, rfl, rfl, rfl, le16_word ht, le16_word hs, rfl⟩

/-- The geometry that `fat32_mount` sets up for the first sector of a disk. -/
structure Describes (totalSectors perFat : Nat) (g : Geometry) : Prop where
  partitionLba : g.partitionLba = 0
  reservedSectors : g.reservedSectors = 32
  fatCount : g.fatCount = 2
  sectorsPerFat : g.sectorsPerFat = perFat
  totalClusters : g.totalClusters = totalSectors - (32 + 2 * perFat) + 2
  sectorsPerCluster : g.sectorsPerCluster = 1
  rootCluster : g.rootCluster = 2

section

variable {totalSectors sectorsPerFat : Nat}

/-- Where the kernel accepts the sector, it takes over what the tool has put there. -/
theorem SectorFields.describes {g : Geometry} (h : SectorFields totalSectors sectorsPerFat boot)
    (hg : bootGeometry 0 boot = some g) : Describes totalSectors sectorsPerFat g := by
  obtain ⟨h11, h13, h14, h16, h19, h32, h36, h44⟩ := h
  revert hg
  unfold bootGeometry
  extract_lets field16 field32 perFat perCluster fatCount reserved root total nonData clusters
  have hperFat : perFat = sectorsPerFat := h36
  have hperCluster : perCluster = 1 := congrArg UInt8.toNat h13
  have hcount : fatCount = 2 := congrArg UInt8.toNat h16
  have hreserved : reserved = 32 := h14
  have hroot : root = 2 := h44
  have htotal : total = totalSectors := (if_neg (not_not.2 h19)).trans h32
  have hclusters : clusters = totalSectors - (32 + 2 * sectorsPerFat) + 2 := by
    simp only [clusters, nonData, htotal, hreserved, hcount, hperFat, hperCluster, Nat.div_one]
  intro hg
  split at hg
  · obtain rfl := Option.some.inj hg
    exact ⟨rfl, hreserved, hcount, hperFat, hclusters, hperCluster, hroot⟩
  · cases hg

/-- A FAT that fits in the kernel's array is accepted. -/
theorem SectorFields.accepted (h : SectorFields totalSectors sectorsPerFat boot)
    (hpos : 0 < sectorsPerFat) (hfits : sectorsPerFat ≤ Fat32.maxFatSectors)
    (hdata : 32 + 2 * sectorsPerFat < totalSectors)
    (hentries : totalSectors - (32 + 2 * sectorsPerFat) + 2 ≤ 128 * sectorsPerFat) :
    ∃ g, bootGeometry 0 boot = some g ∧ Describes totalSectors sectorsPerFat g := by
  suffices hsome : (bootGeometry 0 boot).isSome = true by
    obtain ⟨g, hg⟩ := Option.isSome_iff_exists.mp hsome
    exact ⟨g, hg, h.describes hg⟩
  obtain ⟨h11, h13, h14, h16, h19, h32, h36, h44⟩ := h
  unfold bootGeometry
  extract_lets field16 field32 perFat perCluster fatCount reserved root total nonData clusters
  have hperFat : perFat = sectorsPerFat := h36
  have hperCluster : perCluster = 1 := congrArg UInt8.toNat h13
  have hcount : fatCount = 2 := congrArg UInt8.toNat h16
  have hreserved : reserved = 32 := h14
  have hroot : root = 2 := h44
  have htotal : total = totalSectors := (if_neg (not_not.2 h19)).trans h32
  have hnonData : nonData = 32 + 2 * sectorsPerFat := by
    simp only [nonData, hreserved, hcount, hperFat]
  have hclusters : clusters = totalSectors - (32 + 2 * sectorsPerFat) + 2 := by
    simp only [clusters, htotal, hnonData, hperCluster, Nat.div_one]
  rw [dif_pos]
  · rfl
  · simp only [Fat32.maxFatSectors] at hfits
    simp only [Fat32.maxFatSectors, Fat32.maxClusterSectors, Fat32.sectorSize, hperFat, hperCluster,
      hcount, hreserved, hroot, htotal, hnonData, hclusters]
    exact ⟨h11, by omega, by omega, by omega, by omega, hdata, by omega, by omega⟩

/-- A FAT that does not fit in the kernel's array is refused. -/
theorem SectorFields.refused (h : SectorFields totalSectors sectorsPerFat boot)
    (hlarge : Fat32.maxFatSectors < sectorsPerFat) : bootGeometry 0 boot = none := by
  unfold bootGeometry
  extract_lets field16 field32 perFat perCluster fatCount reserved root total nonData clusters
  have hperFat : perFat = sectorsPerFat := h.sectorsPerFat
  rw [dif_neg]
  intro hchecks
  have hle := hchecks.2.1.2
  omega

end

/-! ## Mounting -/

/-- A device that never fails. -/
abbrev neverFails : Nat → Bool := fun _ => false

theorem blockReadSectors_ok (lba count : Nat) (s : Fat32.State) :
    ∃ s', blockReadSectors neverFails lba count s =
        .ok (some fun o => s.disk (lba + o / Fat32.sectorSize) (o % Fat32.sectorSize)) s' ∧
      s'.disk = s.disk :=
  ⟨_, rfl, rfl⟩

theorem readFatSectors_ok (room lba count done : Nat) (s : Fat32.State) :
    ∃ s', readFatSectors neverFails room lba count done s = .ok true s' := by
  induction room generalizing lba count done s with
  | zero => exact ⟨s, rfl⟩
  | succ room ih =>
    rw [readFatSectors]
    split
    · exact ⟨s, rfl⟩
    · obtain ⟨s₁, hread, -⟩ := blockReadSectors_ok lba (min count 255) s
      rw [Prog.bind_of_ok hread]
      exact ih ..

/-- Without failures the boot sector alone decides whether a volume is mounted. -/
theorem fat32Mount_ok {s : Fat32.State} :
    ∃ s', fat32Mount neverFails 0 512 s =
      .ok (bootGeometry 0 fun o => s.disk (0 + o / 512) (o % 512)) s' := by
  have hread : blockReadSectors neverFails 0 1 s = .ok
      (some fun o => s.disk (0 + o / 512) (o % 512)) _ := rfl
  unfold fat32Mount
  rw [if_neg (by decide), Prog.bind_of_ok hread]
  dsimp only
  cases bootGeometry 0 fun o => s.disk (0 + o / 512) (o % 512) with
  | none => exact ⟨_, rfl⟩
  | some g =>
    obtain ⟨s₁, hfat⟩ := readFatSectors_ok g.sectorsPerFat g.fatLba g.sectorsPerFat 0 _
    exact ⟨_, Prog.bind_of_ok hfat⟩

/-! ## The two geometries -/

/-- The rounds end at a size that leaves sectors for data and that a round needs exactly. -/
theorem fatRounds_exact {total s x : Int} {rounds : Nat} (h : fatRounds total rounds x = .ok s) :
    0 < dataSectors total s ∧ newSectorsPerFat total s = s := by
  induction rounds generalizing x with
  | zero => cases h
  | succ rounds ih =>
    rw [fatRounds] at h
    split at h
    · cases h
    · rename_i hdata
      split at h
      · rename_i hexact
        obtain rfl := Except.ok.inj h
        exact ⟨not_le.1 hdata, hexact⟩
      · exact ih h

/-- What is known of a layout when the tool goes on with it. -/
structure Exact (total : Int) (layout : FatLayout) : Prop where
  data : 32 + 2 * layout.sectorsPerFat < total
  low : 130 * layout.sectorsPerFat ≤ total + 97
  high : total + 97 < 130 * layout.sectorsPerFat + 128
  totalClusters : layout.totalClusters = total - (32 + 2 * layout.sectorsPerFat) + 2
  entries : layout.totalClusters ≤ 128 * layout.sectorsPerFat
  dataLba : layout.dataLba = 32 + 2 * layout.sectorsPerFat

theorem computeLayout_exact {total : Int} {layout : FatLayout}
    (h : computeLayout total = .ok layout) : Exact total layout := by
  unfold computeLayout at h
  obtain ⟨s, hrounds, h⟩ := ok_of_bind h
  obtain ⟨hdata, hexact⟩ := fatRounds_exact hrounds
  rw [newSectorsPerFat_eq] at hexact
  simp only [dataSectors, sectorsPerCluster, sectorSize, reservedSectors, fatCount,
    Int.ediv_one] at h hdata
  split at h
  · cases h
  · obtain rfl := Except.ok.inj h
    constructor <;> dsimp only <;> omega

section

variable {src : SourceEntry} {sizeMb : Int} {volumeLabel : List Char}

/-- The steps of the tool that lead to an image. -/
structure MadeImage (u : UnicodeData) (src : SourceEntry) (sizeMb : Int) (volumeLabel : List Char)
    (image : FatImage) (layout : FatLayout) (root : ImageNode) (boot : Nat → UInt8)
    (fat : Nat → Nat) : Prop where
  positive : 0 < sizeMb
  computed : computeLayout (sizeMb * 1024 * 1024 / sectorSize) = .ok layout
  allocated : ∃ name entries, src = .dir name entries ∧
    allocateClusters u layout.totalClusters.toNat (.dir [] (sortNodes u (buildNodes u entries)) [])
      = .ok root
  built : buildBootSector u (sizeMb * 1024 * 1024 / sectorSize).toNat layout.sectorsPerFat.toNat
    volumeLabel = .ok boot
  registered : registerChains (layout.sectorsPerFat.toNat * 512 / 4) root emptyFat = .ok fat
  written : ∃ fsinfo, writeDirectories u layout.dataLba.toNat none root
    (systemArea (sizeMb * 1024 * 1024 / sectorSize).toNat layout.sectorsPerFat.toNat boot fsinfo
      fat) = .ok image

theorem makeFat32Image_made (h : makeFat32Image u src sizeMb volumeLabel = .ok image) :
    ∃ layout root boot fat, MadeImage u src sizeMb volumeLabel image layout root boot fat := by
  unfold makeFat32Image at h
  split at h
  · next name entries =>
    split at h
    · cases h
    · next hpos =>
      obtain ⟨layout, hlayout, h⟩ := ok_of_bind h
      obtain ⟨root, hroot, h⟩ := ok_of_bind h
      obtain ⟨boot, hboot, h⟩ := ok_of_bind h
      obtain ⟨fsinfo, -, h⟩ := ok_of_bind h
      obtain ⟨fat, hfat, h⟩ := ok_of_bind h
      exact ⟨layout, root, boot, fat, not_le.1 hpos, hlayout, ⟨name, entries, rfl, hroot⟩, hboot,
        hfat, fsinfo, h⟩
  · cases h

/-- The boot sector of the image is the one that the tool has built. -/
theorem MadeImage.fields {layout : FatLayout} {root : ImageNode} {fat : Nat → Nat}
    (h : MadeImage u src sizeMb volumeLabel image layout root boot fat) :
    SectorFields (sizeMb * 1024 * 1024 / sectorSize).toNat layout.sectorsPerFat.toNat
      (fun o => image.disk (0 + o / 512) (o % 512)) := by
  obtain ⟨fsinfo, hrun⟩ := h.written
  have hpos := h.positive
  have hlba := (computeLayout_exact h.computed).dataLba
  have hhigh := (computeLayout_exact h.computed).high
  simp only [sectorSize] at hhigh
  have hboots : Boots boot image := by
    refine Boots.writeDirectories ?_ (boots_systemArea ?_) hrun
    · omega
    · simp only [sectorSize]
      omega
  refine (sectorFields_of_build h.built).congr fun o ho => ?_
  rw [← hboots.bytes o ho]
  exact congrArg image.bytes (by omega)

/-- What `fat32_mount` makes of the image is what it makes of the tool's boot sector. -/
theorem fat32Mount_image (h : makeFat32Image u src sizeMb volumeLabel = .ok image) :
    ∃ layout boot, computeLayout (sizeMb * 1024 * 1024 / sectorSize) = .ok layout ∧
      SectorFields (sizeMb * 1024 * 1024 / sectorSize).toNat layout.sectorsPerFat.toNat boot ∧
      ∀ s : Fat32.State, s.disk = image.disk →
        ∃ s', fat32Mount neverFails 0 512 s = .ok (bootGeometry 0 boot) s' := by
  obtain ⟨layout, root, boot, fat, hmade⟩ := makeFat32Image_made h
  refine ⟨layout, _, hmade.computed, hmade.fields, ?_⟩
  rintro s hdisk
  rw [← hdisk]
  exact fat32Mount_ok

/-- The kernel mounts an image of up to 260 MiB with the geometry that the tool has computed. A
larger one has a FAT of more sectors than the kernel takes, and is refused. -/
theorem image_mounted (h : makeFat32Image u src sizeMb volumeLabel = .ok image) :
    ∃ layout, computeLayout (sizeMb * 1024 * 1024 / sectorSize) = .ok layout ∧
      ∀ s : Fat32.State, s.disk = image.disk →
        (sizeMb ≤ 260 → ∃ g s', fat32Mount neverFails 0 512 s = .ok (some g) s' ∧
          (g.totalClusters : Int) = layout.totalClusters ∧ (g.fatLba : Int) = reservedSectors ∧
          (g.dataLba : Int) = layout.dataLba) ∧
        (260 < sizeMb → (Fat32.maxFatSectors : Int) < layout.sectorsPerFat ∧
          ∃ s', fat32Mount neverFails 0 512 s = .ok none s') := by
  obtain ⟨layout, boot, hlayout, hfields, hmount⟩ := fat32Mount_image h
  refine ⟨layout, hlayout, ?_⟩
  intro s hdisk
  obtain ⟨s', hrun⟩ := hmount s hdisk
  obtain ⟨hdata, hlow, hhigh, hclusters, hentries, hlba⟩ := computeLayout_exact hlayout
  simp only [sectorSize] at hdata hlow hhigh hclusters
  constructor
  · intro hsmall
    obtain ⟨g, hsome, hzero, hreserved, hcount, hperFat, htotal, -, -⟩ :=
      hfields.accepted (by omega) (by simp only [Fat32.maxFatSectors]; omega)
        (by simp only [sectorSize]; omega) (by simp only [sectorSize]; omega)
    refine ⟨g, s', hsome ▸ hrun, ?_, ?_, ?_⟩
    · simp only [htotal, sectorSize]
      omega
    · simp only [Geometry.fatLba, hzero, hreserved, reservedSectors]
      rfl
    · simp only [Geometry.dataLba, Geometry.fatLba, hzero, hreserved, hcount, hperFat]
      omega
  · intro hlarge
    have hmany : (Fat32.maxFatSectors : Int) < layout.sectorsPerFat := by
      simp only [Fat32.maxFatSectors]
      omega
    have hnone := hfields.refused (by omega)
    exact ⟨hmany, s', hnone ▸ hrun⟩

end

/-- A source directory that holds a directory with a file. -/
def sampleSource : SourceEntry := .dir [] [.dir ['B', 'I', 'N'] [.file ['H', 'I'] [0x68, 0x69]]]

theorem exists_of_isOk {α : Type} {x : Except String α} (h : x.isOk = true) : ∃ a, x = .ok a := by
  cases x with
  | error e => cases h
  | ok a => exact ⟨a, rfl⟩

/-- In an image of 1 MiB the kernel finds the clusters that the tool has counted. -/
theorem image_mounted_small :
    ∃ image layout, makeFat32Image sampleUnicode sampleSource 1 [] = .ok image ∧
      computeLayout (1 * 1024 * 1024 / sectorSize) = .ok layout ∧
      ∀ s : Fat32.State, s.disk = image.disk →
        ∃ g s', fat32Mount neverFails 0 512 s = .ok (some g) s' ∧
          (g.totalClusters : Int) = layout.totalClusters ∧ (g.fatLba : Int) = reservedSectors ∧
          (g.dataLba : Int) = layout.dataLba := by
  obtain ⟨image, himage⟩ := exists_of_isOk
    (x := makeFat32Image sampleUnicode sampleSource 1 []) (by decide +kernel)
  obtain ⟨layout, hlayout, hmounted⟩ := image_mounted himage
  refine ⟨image, layout, himage, hlayout, ?_⟩
  intro s hdisk
  exact (hmounted s hdisk).1 (by decide)

/-- For 261 MiB an image is written, with a FAT of 4112 sectors, and refused. -/
theorem image_refused :
    ∃ image, makeFat32Image sampleUnicode sampleSource 261 [] = .ok image ∧
      ∀ s : Fat32.State, s.disk = image.disk →
        ∃ s', fat32Mount neverFails 0 512 s = .ok none s' := by
  obtain ⟨image, himage⟩ := exists_of_isOk
    (x := makeFat32Image sampleUnicode sampleSource 261 []) (by decide +kernel)
  obtain ⟨layout, boot, hlayout, hfields, hmount⟩ := fat32Mount_image himage
  have hlow := (computeLayout_exact hlayout).high
  simp only [sectorSize] at hlow
  have hnone := hfields.refused (by simp only [Fat32.maxFatSectors]; omega)
  refine ⟨image, himage, ?_⟩
  intro s hdisk
  rw [← hnone]
  exact hmount s hdisk

end FunnyOS.Tools
