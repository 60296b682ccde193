import FunnyOS.Fat32.ReadBack
import FunnyOS.Tools.ImageFiles

/-!
# From the source directory to the kernel

Of every image that the kernel mounts: it reads the bytes of every file of the source directory,
lists the children of every directory, and the clusters of both are just those that are in use.
-/

namespace FunnyOS.Tools

open Fat32

/-! ## The source directory -/

/-- The entry becomes a node: a file or a directory with a name that is not skipped. -/
def SourceEntry.kept : SourceEntry → Bool
  | file name _ => !skippedName name
  | dir name _ => !skippedName name
  | other _ => false

/-- What is found below the source directory at a path of the names that the kernel shows. -/
inductive SourceAt (u : UnicodeData) (src : SourceEntry) : List CStr → SourceEntry → Prop
  | root : SourceAt u src [] src
  | child {cs : List CStr} {name : List Char} {entries : List SourceEntry} {entry : SourceEntry}
      (dir : SourceAt u src cs (.dir name entries)) (mem : entry ∈ entries)
      (kept : entry.kept = true) : SourceAt u src (cs ++ [kernelName u entry.name]) entry

/-- What `fat32_list_dir` is to say of a file or a directory. -/
def entryInfo (u : UnicodeData) : SourceEntry → Fat32NodeInfo
  | .file name data => ⟨kernelName u name, false, data.length⟩
  | entry => ⟨kernelName u entry.name, true, 0⟩

/-- What it is to say of a directory with these entries. -/
def childInfos (u : UnicodeData) (entries : List SourceEntry) : List Fat32NodeInfo :=
  (entries.filter SourceEntry.kept).map (entryInfo u)

/-- The clusters of what a path leads to. -/
def pathClusters (g : Geometry) (v : Volume) (cs : List CStr) : List Nat :=
  match resolve g v cs with
  | .error _ => []
  | .ok r => clusterChain g v.fat (dirCluster g r)

/-- The kernel finds the source directory in the volume. -/
structure Reproduces (u : UnicodeData) (src : SourceEntry) (env : Env) (s : Fat32.State) :
    Prop where
  read : ∀ {cs : List CStr} {name : List Char} {data : List UInt8},
    SourceAt u src cs (.file name data) →
      (fat32ReadFile env (joinPath cs) gather [] s).result = some (.ok data)
  chunks : ∀ {cs : List CStr} {name : List Char} {data : List UInt8},
    SourceAt u src cs (.file name data) →
      ∀ {κ : Type} (callback : κ → List UInt8 → κ × Bool) (context : κ),
        (fat32ReadFile env (joinPath cs) callback context s).result
          = some (readAnswer env.geometry callback context (.ok data))
  list : ∀ {cs : List CStr} {name : List Char} {entries : List SourceEntry},
    SourceAt u src cs (.dir name entries) → ∃ infos, infos.Perm (childInfos u entries) ∧
      ∀ {κ : Type} (callback : κ → Fat32NodeInfo → κ × Bool) (context : κ),
        (fat32ListDir env (joinPath cs) callback context s).result
          = some (.ok (report callback context infos))
  used : ∀ c, 2 ≤ c → (s.fat c ≠ 0 ↔ ∃ cs entry, SourceAt u src cs entry ∧
    c ∈ pathClusters env.geometry (s.volume env.geometry) cs)
  disjoint : ∀ {cs cs' : List CStr} {entry entry' : SourceEntry}, SourceAt u src cs entry →
    SourceAt u src cs' entry' → cs ≠ cs' →
      (pathClusters env.geometry (s.volume env.geometry) cs).Disjoint
        (pathClusters env.geometry (s.volume env.geometry) cs')

/-! ## Nodes and entries -/

/-- The node is what becomes of the entry. -/
def StandsFor (u : UnicodeData) : SourceEntry → ImageNode → Prop
  | .file _ data, .file _ data' _ => data' = data
  | .dir _ entries, .dir _ children _ =>
    bareAll children = bareAll (sortNodes u (buildNodes u entries))
  | _, _ => False

section

variable {u : UnicodeData} {src entry : SourceEntry} {entries : List SourceEntry}
  {node child root : ImageNode} {children nodes : List ImageNode} {name name' : List Char}
  {clusters : List Nat} {cs : List CStr} {p : Placed} {k : Nat} {g : Geometry} {v : Volume}

theorem mem_buildNodes : node ∈ buildNodes u entries ↔
    ∃ entry ∈ entries, entry.kept = true ∧ node ∈ buildNode u entry := by
  induction entries with
  | nil => simp [buildNodes]
  | cons entry rest ih =>
    have hkept : entry.kept = true ∧ node ∈ buildNode u entry ↔
        skippedName entry.name = false ∧ node ∈ buildNode u entry := by
      cases entry <;> simp [SourceEntry.kept, SourceEntry.name, buildNode]
    rw [buildNodes]
    simp only [List.mem_cons, exists_eq_or_imp, hkept, ← ih]
    split
    · next hskip => simp [hskip]
    · next hskip => simp [hskip]

/-- A node that differs from one in its clusters only has the same name and is listed alike. -/
theorem bare_alike (h : node.bare = child.bare) :
    node.name = child.name ∧ nodeInfo u node = nodeInfo u child := by
  cases node <;> cases child <;> simp_all [ImageNode.bare, nodeInfo, ImageNode.name,
    ImageNode.isDir, ImageNode.size]

/-- A node that is built for an entry stands for it, whatever clusters it gets. -/
theorem standsFor_of_build (hkept : entry.kept = true) (hbuilt : node ∈ buildNode u entry)
    (hbare : child.bare = node.bare) : child.name = entry.name ∧ StandsFor u entry child := by
  refine (bare_alike (u := u) hbare).1 ▸ ?_
  cases entry with
  | file name data =>
    rw [buildNode, List.mem_singleton] at hbuilt
    subst hbuilt
    cases child <;> simp_all [ImageNode.bare, StandsFor, ImageNode.name, SourceEntry.name]
  | dir name entries =>
    rw [buildNode, List.mem_singleton] at hbuilt
    subst hbuilt
    cases child <;> simp_all [ImageNode.bare, StandsFor, ImageNode.name, SourceEntry.name]
  | other name => cases hkept

/-- The children of a node, among the entries of the directory that it stands for. -/
theorem StandsFor.exists_entry (h : StandsFor u (.dir name entries) (.dir name' children clusters))
    (hk : children[k]? = some child) :
    ∃ entry ∈ entries, entry.kept = true ∧ child.name = entry.name ∧ StandsFor u entry child := by
  have hmem : child.bare ∈ bareAll (sortNodes u (buildNodes u entries)) := by
    have h : bareAll children = bareAll (sortNodes u (buildNodes u entries)) := h
    rw [← h, bareAll_eq]
    exact List.mem_map_of_mem (List.mem_of_getElem? hk)
  rw [bareAll_eq] at hmem
  obtain ⟨node, hnode, hbare⟩ := List.mem_map.mp hmem
  obtain ⟨entry, hentry, hkept, hbuilt⟩ := mem_buildNodes.mp (List.mem_mergeSort.mp hnode)
  exact ⟨entry, hentry, hkept, standsFor_of_build hkept hbuilt hbare.symm⟩

/-- Every entry that is kept has its child. -/
theorem StandsFor.exists_child (h : StandsFor u (.dir name entries) (.dir name' children clusters))
    (hentry : entry ∈ entries) (hkept : entry.kept = true) :
    ∃ (k : Nat) (child : ImageNode), children[k]? = some child ∧ child.name = entry.name ∧
      StandsFor u entry child := by
  obtain ⟨node, hbuilt⟩ : ∃ node, node ∈ buildNode u entry := by
    cases entry with
    | file name data => exact ⟨_, by rw [buildNode]; exact List.mem_singleton_self _⟩
    | dir name entries => exact ⟨_, by rw [buildNode]; exact List.mem_singleton_self _⟩
    | other name => cases hkept
  have hnode : node ∈ sortNodes u (buildNodes u entries) :=
    List.mem_mergeSort.mpr (mem_buildNodes.mpr ⟨entry, hentry, hkept, hbuilt⟩)
  have h : bareAll children = bareAll (sortNodes u (buildNodes u entries)) := h
  have hmem : node.bare ∈ bareAll children := by
    rw [h, bareAll_eq]
    exact List.mem_map_of_mem hnode
  rw [bareAll_eq] at hmem
  obtain ⟨child, hchild, hbare⟩ := List.mem_map.mp hmem
  obtain ⟨k, hk⟩ := List.mem_iff_getElem?.mp hchild
  exact ⟨k, child, hk, standsFor_of_build hkept hbuilt hbare⟩

theorem nodeInfo_bareAll : (bareAll nodes).map (nodeInfo u) = nodes.map (nodeInfo u) := by
  rw [bareAll_eq, List.map_map]
  refine List.map_congr_left fun node _ => ?_
  cases node <;> simp [ImageNode.bare, nodeInfo, ImageNode.name, ImageNode.isDir, ImageNode.size]

theorem nodeInfo_buildNodes : (buildNodes u entries).map (nodeInfo u) = childInfos u entries := by
  induction entries with
  | nil => simp [buildNodes, childInfos]
  | cons entry rest ih =>
    unfold childInfos at ih ⊢
    rw [buildNodes, List.filter_cons]
    cases entry <;> split <;> simp_all [SourceEntry.kept, SourceEntry.name, buildNode, entryInfo,
      nodeInfo, ImageNode.name, ImageNode.isDir, ImageNode.size]

/-- The children of a node are listed as the entries of the directory are to be. -/
theorem StandsFor.infos (h : StandsFor u (.dir name entries) (.dir name' children clusters)) :
    (children.map (nodeInfo u)).Perm (childInfos u entries) := by
  have h : bareAll children = bareAll (sortNodes u (buildNodes u entries)) := h
  rw [← nodeInfo_bareAll, h, nodeInfo_bareAll, ← nodeInfo_buildNodes]
  exact (List.mergeSort_perm _ _).map _

/-! ## Places and paths -/

/-- What is found at a path has a node there. -/
theorem SourceAt.placed (hroot : StandsFor u src root) (h : SourceAt u src cs entry) :
    ∃ p ∈ nodesOf u root, p.path = cs ∧ StandsFor u entry p.node := by
  induction h with
  | root => exact ⟨_, placedAt_self, rfl, hroot⟩
  | @child cs name entries entry dir mem kept ih =>
    obtain ⟨p, hp, rfl, hstands⟩ := ih
    rcases hnode : p.node with ⟨name', data, clusters⟩ | ⟨name', children, clusters⟩
    · rw [hnode] at hstands
      exact hstands.elim
    · rw [hnode] at hstands
      obtain ⟨k, child, hk, hname, hchild⟩ := hstands.exists_child mem kept
      exact ⟨_, placedAt_child hp hnode hk, by rw [hname], hchild⟩

/-- Every node stands for what is found at its path. -/
theorem sourceAt_of_placed (hroot : StandsFor u src root) (hp : p ∈ nodesOf u root) :
    ∃ entry, SourceAt u src p.path entry ∧ StandsFor u entry p.node := by
  refine placedAt_induction (P := fun p => ∃ entry, SourceAt u src p.path entry ∧
    StandsFor u entry p.node) ?_ ⟨src, .root, hroot⟩ p hp
  rintro q name children clusters k child ⟨entry, hat, hstands⟩ hnode hk
  rw [hnode] at hstands
  cases entry with
  | dir name' entries =>
    obtain ⟨entry, hentry, hkept, hname, hchild⟩ := hstands.exists_entry hk
    refine ⟨entry, ?_, hchild⟩
    rw [hname]
    exact .child hat hentry hkept
  | file name' data => exact hstands.elim
  | other name' => exact hstands.elim

/-- The tree that the tool has built stands for the source directory. -/
theorem MadeImage.standsFor {sizeMb : Int} {volumeLabel : List Char} {image : FatImage}
    {layout : FatLayout} {boot : Nat → UInt8} {fat : Nat → Nat}
    (h : MadeImage u src sizeMb volumeLabel image layout root boot fat) : StandsFor u src root := by
  obtain ⟨name, entries, rfl, halloc⟩ := h.allocated
  unfold allocateClusters at halloc
  obtain ⟨⟨root', next⟩, hwalk, halloc⟩ := ok_of_bind halloc
  dsimp only at halloc
  split at halloc
  · obtain rfl := Except.ok.inj halloc
    obtain ⟨clusters, n, nodes', -, -, hnodes, rfl⟩ := walkNode_dir hwalk
    exact walkNodes_bare hnodes
  · cases halloc

end

/-! ## What the kernel answers -/

section

variable {u : UnicodeData} {src entry : SourceEntry} {root : ImageNode} {env : Env}
  {s s' : Fat32.State} {p : Placed} {name : List Char} {children : List ImageNode}
  {clusters : List Nat} {data : List UInt8} {r : Option DirectoryEntry} {image : FatImage}
  {sizeMb : Int} {volumeLabel : List Char}

/-- The clusters of the path of a node are the clusters of the node. -/
theorem HoldsTree.pathClusters_eq {g : Geometry} {v : Volume} (hu : u.Uppercase)
    (h : HoldsTree u root g v) (hp : p ∈ nodesOf u root) :
    pathClusters g v p.path = p.node.clusters := by
  obtain ⟨r, hr⟩ := h.leadsTo hu hp
  rw [pathClusters, hr.resolved]
  dsimp only
  rw [hr.first, h.chain_eq hp]

/-- A file is read. -/
theorem HoldsTree.reads {κ : Type} {callback : κ → List UInt8 → κ × Bool} {context : κ}
    (hu : u.Uppercase) (h : HoldsTree u root env.geometry (s.volume env.geometry))
    (hfuel : env.geometry.totalClusters < env.fuel) (hrel : ¬ env.Faulty)
    (hp : p ∈ nodesOf u root) (hnode : p.node = .file name data clusters) :
    (fat32ReadFile env (joinPath p.path) callback context s).result
      = some (readAnswer env.geometry callback context (.ok data)) := by
  obtain ⟨r, hr⟩ := h.leadsTo hu hp
  have hdir : Fat32.isDir r = false := by rw [hr.dir, hnode]; rfl
  rw [fat32ReadFile_result hfuel hrel (h.wellFormed hu).sound, contents,
    joinPath_components hr.components, hr.resolved]
  cases r with
  | none => cases hdir
  | some e =>
    have hshows := hr.shows e rfl
    have hsize : e.size = data.length := by rw [hshows.size, hnode]; rfl
    have hchain : clusterChain env.geometry (s.volume env.geometry).fat e.entryFirstCluster
        = clusters := by
      rw [hshows.first, h.chain_eq hp, hnode]
      rfl
    have hcluster : env.geometry.clusterSize = 512 := by
      rw [Geometry.clusterSize, h.sectorsPerCluster]
      rfl
    have hfits : data.length ≤ clusters.length * 512 := by
      rw [(h.fileSized hp hnode).1]
      omega
    have hholds := h.node p hp
    rw [hnode] at hholds
    have hcontent := HoldsBytes.content hcluster hholds hfits
    have hisDir : e.isDirectory = false := hdir
    simp only [hisDir, Bool.false_eq_true, if_false]
    rw [fileContent, hchain, hsize, hcluster, if_pos hfits, hcontent]

/-- A directory is listed. -/
theorem HoldsTree.lists_children {κ : Type} {callback : κ → Fat32NodeInfo → κ × Bool} {context : κ}
    (hu : u.Uppercase) (h : HoldsTree u root env.geometry (s.volume env.geometry))
    (hfuel : env.geometry.totalClusters < env.fuel) (hrel : ¬ env.Faulty)
    (hp : p ∈ nodesOf u root) (hnode : p.node = .dir name children clusters) :
    (fat32ListDir env (joinPath p.path) callback context s).result
      = some (.ok (report callback context (children.map (nodeInfo u)))) := by
  obtain ⟨r, hr⟩ := h.leadsTo hu hp
  have hdir : Fat32.isDir r = true := by rw [hr.dir, hnode]; rfl
  have hfirst : dirCluster env.geometry r = clusters.headD 0 := by rw [hr.first, hnode]; rfl
  rw [fat32ListDir_result hfuel hrel (h.wellFormed hu).sound, listing,
    joinPath_components hr.components, hr.resolved]
  simp only [hdir, if_true, hfirst]
  rw [(h.lists hu hp hnode).infos, listAnswer]

/-- The kernel finds in an image that it mounts what the tool was given. -/
theorem image_reproduced (hu : u.Uppercase)
    (himage : makeFat32Image u src sizeMb volumeLabel = .ok image) (hdisk : s.disk = image.disk)
    (hmount : fat32Mount neverFails 0 512 s = .ok (some env.geometry) s')
    (hfuel : env.geometry.totalClusters < env.fuel) (hrel : ¬ env.Faulty) :
    Reproduces u src env s' := by
  obtain ⟨layout, root, boot, fat, hmade⟩ := makeFat32Image_made himage
  have hholds := hmade.holdsTree hdisk hmount
  have hroot := hmade.standsFor
  have hread : ∀ {cs : List CStr} {name : List Char} {data : List UInt8},
      SourceAt u src cs (.file name data) →
        ∀ {κ : Type} (callback : κ → List UInt8 → κ × Bool) (context : κ),
          (fat32ReadFile env (joinPath cs) callback context s').result
            = some (readAnswer env.geometry callback context (.ok data)) := by
    intro cs name data hat κ callback context
    obtain ⟨p, hp, rfl, hstands⟩ := hat.placed hroot
    rcases hnode : p.node with ⟨name', data', clusters⟩ | ⟨name', children, clusters⟩
    · rw [hnode] at hstands
      obtain rfl : data' = data := hstands
      exact hholds.reads hu hfuel hrel hp hnode
    · rw [hnode] at hstands
      exact hstands.elim
  refine ⟨fun hat => readAnswer_gather (hread hat gather []), hread, ?_, ?_, ?_⟩
  · intro cs name entries hat
    obtain ⟨p, hp, rfl, hstands⟩ := hat.placed hroot
    rcases hnode : p.node with ⟨name', data', clusters⟩ | ⟨name', children, clusters⟩
    · rw [hnode] at hstands
      exact hstands.elim
    · rw [hnode] at hstands
      exact ⟨_, hstands.infos, fun _ _ => hholds.lists_children hu hfuel hrel hp hnode⟩
  · intro c hc
    constructor
    · intro hused
      have hmem : c ∈ treeClusters root := by
        by_contra hout
        exact hused (hholds.free c hc hout)
      obtain ⟨p, hp, hin⟩ := mem_treeClusters.mp hmem
      obtain ⟨entry, hat, -⟩ := sourceAt_of_placed hroot hp
      exact ⟨p.path, entry, hat, by rwa [hholds.pathClusters_eq hu hp]⟩
    · rintro ⟨cs, entry, hat, hin⟩
      obtain ⟨p, hp, rfl, -⟩ := hat.placed hroot
      rw [hholds.pathClusters_eq hu hp] at hin
      rcases hholds.chain hp with ⟨hnil, -⟩ | ⟨-, hchain⟩
      · rw [hnil] at hin
        cases hin
      · exact hchain.fat_ne_zero c hin
  · intro cs cs' entry entry' hat hat' hne c hin hin'
    obtain ⟨p, hp, rfl, -⟩ := hat.placed hroot
    obtain ⟨q, hq, rfl, -⟩ := hat'.placed hroot
    rw [hholds.pathClusters_eq hu hp] at hin
    rw [hholds.pathClusters_eq hu hq] at hin'
    exact hne (congrArg Placed.path (hholds.eq_of_cluster hp hq hin hin'))

end

theorem sortNodes_sorted {u : UnicodeData} {nodes : List ImageNode}
    (h : nodes.Pairwise fun a b => u.strUpper a.name ≤ u.strUpper b.name) :
    sortNodes u nodes = nodes :=
  List.mergeSort_of_pairwise (h.imp fun h => decide_eq_true h)

/-- A cluster of bytes. -/
def sampleData : List UInt8 := List.replicate 512 0x41

/-- The names of 14 files. -/
def sampleNames : List Char :=
  ['a', 'b', 'c', 'd', 'e', 'f', 'g', 'h', 'i', 'j', 'k', 'l', 'm', 'n']

/-- Entries of the source directory: a directory with a file of just one cluster and a name that is
skipped, one that fills its cluster, an empty file, and an empty directory. -/
def sampleEntries : List SourceEntry :=
  [.dir ['b', 'i', 'n'] [.file ['.', '_', 'h', 'i'] [], .file ['h', 'i'] sampleData],
    .dir ['f', 'u', 'l', 'l'] (sampleNames.map fun c => .file [c] []),
    .file ['n', 'o', 'n', 'e'] [], .dir ['t', 'm', 'p'] []]

/-- The nodes that they become. -/
def sampleNodes : List ImageNode :=
  [.dir ['b', 'i', 'n'] [.file ['h', 'i'] sampleData []] [],
    .dir ['f', 'u', 'l', 'l'] (sampleNames.map fun c => .file [c] [] []) [],
    .file ['n', 'o', 'n', 'e'] [] [], .dir ['t', 'm', 'p'] [] []]

theorem sortNodes_sample :
    sortNodes sampleUnicode (buildNodes sampleUnicode sampleEntries) = sampleNodes := by
  have hfull : sortNodes sampleUnicode (sampleNames.map fun c => .file [c] [] [])
      = sampleNames.map fun c => .file [c] [] [] := sortNodes_sorted (by decide +kernel)
  have hfile : sortNodes sampleUnicode [.file ['h', 'i'] sampleData []]
      = [.file ['h', 'i'] sampleData []] := sortNodes_sorted (List.pairwise_singleton _ _)
  have hempty : sortNodes sampleUnicode [] = [] := sortNodes_sorted .nil
  have hnames : buildNodes sampleUnicode (sampleNames.map fun c => .file [c] [])
      = sampleNames.map fun c => .file [c] [] [] := by
    simp [sampleNames, buildNodes, buildNode, skippedName, SourceEntry.name]
  have hnodes : buildNodes sampleUnicode sampleEntries = sampleNodes := by
    simp [sampleEntries, sampleNodes, buildNodes, buildNode, skippedName, SourceEntry.name, hnames,
      hfull, hfile, hempty]
  rw [hnodes]
  exact sortNodes_sorted (by decide +kernel)

theorem sampleUnicode_uppercase : sampleUnicode.Uppercase := by
  intro c hc d hd
  change d ∈ (if c = 'ß' then ['S', 'S'] else [c]) at hd
  split at hd
  · fin_cases hd <;> rfl
  · obtain rfl := List.mem_singleton.mp hd
    unfold Char.toUpper
    rw [dif_neg]
    rintro ⟨-, hle⟩
    have hle : d.toNat ≤ 122 := hle
    omega

/-- In an image of 1 MiB the kernel finds them. -/
theorem image_reproduced_sample :
    ∃ image g s s', makeFat32Image sampleUnicode (.dir [] sampleEntries) 1 [] = .ok image ∧
      s.disk = image.disk ∧ fat32Mount neverFails 0 512 s = .ok (some g) s' ∧
      let env : Env := ⟨g, neverFails, g.totalClusters + 1⟩
      (fat32ReadFile env (joinPath [[0x42, 0x49, 0x4E], [0x48, 0x49]]) gather [] s').result
        = some (.ok sampleData) ∧
      (fat32ReadFile env (joinPath [[0x4E, 0x4F, 0x4E, 0x45]]) gather [] s').result
        = some (.ok []) ∧
      (∃ infos, (fat32ListDir env (joinPath [[0x46, 0x55, 0x4C, 0x4C]]) collect [] s').result
        = some (.ok infos) ∧ infos.length = 14) ∧
      (fat32ListDir env (joinPath [[0x54, 0x4D, 0x50]]) collect [] s').result = some (.ok []) := by
  have hok : (makeFat32Image sampleUnicode (.dir [] sampleEntries) 1 []).isOk = true := by
    unfold makeFat32Image
    dsimp only
    rw [sortNodes_sample]
    decide +kernel
  obtain ⟨image, himage⟩ := exists_of_isOk hok
  obtain ⟨layout, -, hmounted⟩ := image_mounted himage
  obtain ⟨g, s', hmount, -⟩ := (hmounted ⟨false, fun _ => 0, fun _ => 0, image.disk, 0, []⟩ rfl).1
    (by decide)
  refine ⟨image, g, _, s', himage, rfl, hmount, ?_⟩
  intro env
  have h : Reproduces sampleUnicode (.dir [] sampleEntries) env s' :=
    image_reproduced sampleUnicode_uppercase himage rfl hmount (Nat.lt_succ_self _)
      (by rintro ⟨_, ht⟩; cases ht)
  have hbin : kernelName sampleUnicode ['b', 'i', 'n'] = [0x42, 0x49, 0x4E] := by decide +kernel
  have hhi : kernelName sampleUnicode ['h', 'i'] = [0x48, 0x49] := by decide +kernel
  have hnone : kernelName sampleUnicode ['n', 'o', 'n', 'e'] = [0x4E, 0x4F, 0x4E, 0x45] := by
    decide +kernel
  have hfull : kernelName sampleUnicode ['f', 'u', 'l', 'l'] = [0x46, 0x55, 0x4C, 0x4C] := by
    decide +kernel
  have htmp : kernelName sampleUnicode ['t', 'm', 'p'] = [0x54, 0x4D, 0x50] := by decide +kernel
  have hentry : ∀ entry ∈ sampleEntries, entry.kept = true →
      SourceAt sampleUnicode (.dir [] sampleEntries) [kernelName sampleUnicode entry.name] entry :=
    fun entry hmem hkept => .child .root hmem hkept
  refine ⟨?_, ?_, ?_, ?_⟩
  · have hat := hentry _ (.head _) rfl
    have hfile := hat.child (.tail _ (.head _)) rfl
    rw [SourceEntry.name, SourceEntry.name, hbin, hhi] at hfile
    exact h.read hfile
  · have hat := hentry _ (.tail _ (.tail _ (.head _))) rfl
    rw [SourceEntry.name, hnone] at hat
    exact h.read hat
  · have hat := hentry _ (.tail _ (.head _)) rfl
    rw [SourceEntry.name, hfull] at hat
    obtain ⟨infos, hperm, hlist⟩ := h.list hat
    refine ⟨infos, ?_, hperm.length_eq⟩
    rw [hlist, report_collect, List.nil_append]
  · have hat := hentry _ (.tail _ (.tail _ (.tail _ (.head _)))) rfl
    rw [SourceEntry.name, htmp] at hat
    obtain ⟨infos, hperm, hlist⟩ := h.list hat
    have hnil : infos = [] := hperm.eq_nil
    rw [hlist, report_collect, hnil, List.append_nil]

end FunnyOS.Tools
