import FunnyOS.Fat32.Space
import FunnyOS.Tools.ImageVolume

/-!
# Files and directories of an image

A volume that holds a tree is well formed, and the kernel finds in it what the tree has: the bytes
of every file, the entries of every directory, and every node at its path.
-/

namespace FunnyOS.Tools

open Fat32

/-! ## Clusters -/

section

variable {u : UnicodeData} {root : ImageNode} {g : Geometry} {v : Volume} {p q : Placed}
  {clusters : List Nat} {data : List UInt8} {fat : Nat → Nat}

/-- Linked clusters are a chain. -/
theorem LinkedIn.chain (h : LinkedIn fat clusters)
    (hvalid : ∀ c ∈ clusters, g.isValidDataCluster c = true) (hne : clusters ≠ []) :
    Chain g fat (clusters.headD 0) clusters := by
  induction clusters with
  | nil => exact absurd rfl hne
  | cons cluster rest ih =>
    obtain ⟨hlink, hrest⟩ := h
    have hcluster := hvalid cluster List.mem_cons_self
    refine chain_cons.mpr ⟨rfl, hcluster, ?_⟩
    rw [fat32NextCluster_of_valid hcluster, hlink]
    cases rest with
    | nil =>
      rw [chain_nil]
      decide
    | cons next rest =>
      have hnext := ih hrest (fun c hc => hvalid c (List.mem_cons_of_mem _ hc))
        (List.cons_ne_nil _ _)
      change Chain g fat (next % 0x10000000) (next :: rest)
      rwa [valid_mod (hvalid next (by simp))]

/-- Byte `i` of what the clusters hold. -/
theorem HoldsBytes.byte {i : Nat} (hg : g.clusterSize = 512) (h : HoldsBytes v clusters data)
    (hi : i < data.length) (hfits : i < clusters.length * 512) :
    chainByte g v clusters i = data.getD i 0 := by
  induction clusters generalizing data i with
  | nil =>
    rw [List.length_nil] at hfits
    omega
  | cons cluster rest ih =>
    obtain ⟨hfirst, hrest⟩ := h
    by_cases hlt : i < 512
    · rw [← hfirst i hlt hi, chainByte, hg, Nat.div_eq_of_lt hlt, Nat.mod_eq_of_lt hlt]
      rfl
    · rw [List.length_cons] at hfits
      obtain ⟨j, rfl⟩ := Nat.exists_eq_add_of_le (not_lt.mp hlt)
      have hdiv : (512 + j) / 512 = j / 512 + 1 := Nat.add_div_left _ (by decide)
      have hbyte := ih hrest (i := j) (by rw [List.length_drop]; omega) (by omega)
      rw [chainByte, hg] at hbyte ⊢
      rw [hdiv, Nat.add_mod_left, List.getD_cons_succ, hbyte]
      simp only [List.getD_eq_getElem?_getD, List.getElem?_drop]

/-- The content of clusters that hold just the bytes. -/
theorem HoldsBytes.content (hg : g.clusterSize = 512) (h : HoldsBytes v clusters data)
    (hfits : data.length ≤ clusters.length * 512) :
    chainContent g v clusters data.length = data := by
  refine List.ext_getElem chainContent_length fun i hi hi' => ?_
  simp only [chainContent, List.getElem_map, List.getElem_range]
  rw [h.byte hg hi' (by omega), List.getD_eq_getElem _ _ hi']

/-! ### Slots -/

theorem flatten_getD {slots : List (List UInt8)} (hlength : ∀ raw ∈ slots, raw.length = 32)
    {i j : Nat} (hj : j < 32) :
    slots.flatten.getD (32 * i + j) 0 = (slots.getD i []).getD j 0 := by
  induction slots generalizing i with
  | nil => rfl
  | cons raw slots ih =>
    have hraw := hlength raw List.mem_cons_self
    rw [List.flatten_cons]
    cases i with
    | zero =>
      rw [Nat.mul_zero, Nat.zero_add, List.getD_append _ _ _ _ (by omega)]
      rfl
    | succ i =>
      rw [List.getD_append_right _ _ _ _ (by omega), List.getD_cons_succ,
        ← ih fun x hx => hlength x (List.mem_cons_of_mem _ hx)]
      congr 1
      omega

theorem payload_getD {slots : List (List UInt8)} {count i : Nat} :
    (payload count slots).getD i 0 = slots.flatten.getD i 0 := by
  unfold payload
  by_cases hi : i < slots.flatten.length
  · rw [List.getD_append _ _ _ _ hi]
  · rw [List.getD_append_right _ _ _ _ (not_lt.mp hi), List.getD_eq_default _ _ (not_lt.mp hi),
      List.getD_eq_getElem?_getD, List.getElem?_getD_replicate_default_eq]

/-- The slots that the clusters of a directory hold. -/
theorem HoldsBytes.entries {slots : List (List UInt8)} (hg : g.sectorsPerCluster = 1)
    (hlength : ∀ raw ∈ slots, raw.length = 32) (hfits : slots.length ≤ clusters.length * 16)
    (h : HoldsBytes v clusters (payload clusters.length slots)) :
    chainEntries g v clusters
      = slots.map slotEntry ++ List.replicate (clusters.length * 16 - slots.length) .zero := by
  have hsize : g.clusterSize = 512 := by rw [Geometry.clusterSize, hg]; rfl
  have hentries : g.entriesPerCluster = 16 := by rw [g.entriesPerCluster_eq, hg]
  have hflatten : slots.flatten.length = slots.length * 32 := by
    rw [List.length_flatten, List.map_congr_left hlength, List.map_const', List.sum_replicate]
    rfl
  have hpayload : (payload clusters.length slots).length = clusters.length * 512 := by
    rw [payload, List.length_append, List.length_replicate, hflatten]
    omega
  refine List.ext_getElem? fun i => ?_
  by_cases hi : i < clusters.length * 16
  · have hlt : i / g.entriesPerCluster < clusters.length := by
      rw [hentries]
      omega
    have hentry : bufferEntry (v.data clusters[i / g.entriesPerCluster]) (i % g.entriesPerCluster)
        = slotEntry (slots.getD i []) := by
      refine DirectoryEntry.ext fun j => ?_
      have hj := j.isLt
      have hbyte := h.byte hsize (i := 32 * i + j.val) (by omega) (by omega)
      rw [payload_getD, flatten_getD hlength hj, chainByte, hsize] at hbyte
      have hdiv : (32 * i + j.val) / 512 = i / g.entriesPerCluster := by
        rw [hentries]
        omega
      have hmod : (32 * i + j.val) % 512 = 32 * (i % g.entriesPerCluster) + j.val := by
        rw [hentries]
        omega
      rw [hdiv, hmod, List.getD_eq_getElem _ _ hlt] at hbyte
      exact hbyte
    rw [chainEntries_getElem? hlt, hentry]
    by_cases hslot : i < slots.length
    · rw [List.getElem?_append_left (by rwa [List.length_map]), List.getElem?_map,
        List.getElem?_eq_getElem hslot, List.getD_eq_getElem _ _ hslot]
      rfl
    · rw [List.getElem?_append_right (by rw [List.length_map]; omega), List.length_map,
        List.getElem?_replicate_of_lt (by omega), List.getD_eq_default _ _ (not_lt.mp hslot)]
      rfl
  · rw [List.getElem?_eq_none, List.getElem?_eq_none]
    · rw [List.length_append, List.length_map, List.length_replicate]
      omega
    · rw [chainEntries_length, hentries]
      omega

end

/-! ## The tree -/

/-- Who owns the clusters of a node. -/
def Placed.owner (p : Placed) : Owner :=
  match p.parent with
  | none => .root
  | some d => .slot d p.slot

section

variable {u : UnicodeData} {root : ImageNode} {g : Geometry} {v : Volume} {p q : Placed}
  {name : List Char} {children : List ImageNode} {clusters : List Nat} {data : List UInt8}
  {c d i : Nat} {e : DirectoryEntry} {o : Owner}

theorem HoldsTree.mem (hp : p ∈ nodesOf u root) (hc : c ∈ p.node.clusters) :
    c ∈ treeClusters root := mem_treeClusters.mpr ⟨p, hp, hc⟩

theorem HoldsTree.validAt (h : HoldsTree u root g v) (hp : p ∈ nodesOf u root) :
    ∀ c ∈ p.node.clusters, g.isValidDataCluster c = true := fun c hc => h.valid c (mem hp hc)

theorem HoldsTree.small (h : HoldsTree u root g v) (hp : p ∈ nodesOf u root) :
    ∀ c ∈ p.node.clusters, c < 2 ^ 32 := by
  intro c hc
  have hlt := (g.isValidDataCluster_iff.mp (h.validAt hp c hc)).2
  have hle := g.totalClusters_lt
  omega

/-- The clusters of a node are a chain. -/
theorem HoldsTree.chain (h : HoldsTree u root g v) (hp : p ∈ nodesOf u root) :
    FileChain g v.fat (p.node.clusters.headD 0) p.node.clusters := by
  by_cases hnil : p.node.clusters = []
  · rw [hnil]
    exact .inl ⟨rfl, rfl⟩
  · exact .inr ⟨hnil, (h.linked p hp).chain (h.validAt hp) hnil⟩

theorem HoldsTree.chain_eq (h : HoldsTree u root g v) (hp : p ∈ nodesOf u root) :
    clusterChain g v.fat (p.node.clusters.headD 0) = p.node.clusters :=
  (h.chain hp).clusterChain_eq

/-- A directory has clusters, enough for its slots, and the names in it differ. -/
theorem HoldsTree.dirSized (h : HoldsTree u root g v) (hp : p ∈ nodesOf u root)
    (hnode : p.node = .dir name children clusters) :
    clusters ≠ [] ∧ dotCount p.parent + children.length ≤ clusters.length * 16 ∧
      checkNames u [] children = .ok () := by
  have hsized := h.sized p hp
  rw [hnode] at hsized
  obtain ⟨hlength, hnames⟩ := hsized
  have hcount : dotCount p.parent = if p.parent.isNone then 0 else 2 := by
    cases p.parent <;> rfl
  unfold neededClusters at hlength
  refine ⟨List.ne_nil_of_length_pos (by omega), ?_, hnames⟩
  rw [hcount]
  omega

theorem HoldsTree.dirChain (h : HoldsTree u root g v) (hp : p ∈ nodesOf u root)
    (hnode : p.node = .dir name children clusters) :
    Chain g v.fat (clusters.headD 0) clusters := by
  have hne := (h.dirSized hp hnode).1
  have hlinked := h.linked p hp
  have hvalid := h.validAt hp
  rw [hnode] at hlinked hvalid
  exact LinkedIn.chain hlinked hvalid hne

/-- The slots of a directory are those of its children. -/
theorem HoldsTree.lists (hu : u.Uppercase) (h : HoldsTree u root g v) (hp : p ∈ nodesOf u root)
    (hnode : p.node = .dir name children clusters) :
    Lists u (dotCount p.parent) children (dirEntries g v (clusters.headD 0)) := by
  have hparent : ∀ d, p.parent = some d → d < 2 ^ 32 := by
    intro d hd
    rcases nodesOf_cases hp with rfl | ⟨q, hq, name', children', clusters', k, hnode', -, heq⟩
    · cases hd
    · rw [heq] at hd
      obtain rfl := Option.some.inj hd
      have hne := (h.dirSized hq hnode').1
      refine h.small hq _ ?_
      rw [hnode']
      cases clusters' with
      | nil => exact absurd rfl hne
      | cons c rest => exact List.mem_cons_self
  have hclusters := h.small hp
  have hchildren : ∀ child ∈ children, ∀ c ∈ child.clusters, c < 2 ^ 32 := by
    intro child hchild
    obtain ⟨k, hk, rfl⟩ := List.getElem_of_mem hchild
    exact h.small (placedAt_child hp hnode (List.getElem?_eq_getElem hk))
  have hholds := h.node p hp
  rw [hnode] at hclusters hholds
  obtain ⟨slots, hslots, hbytes⟩ := hholds
  obtain ⟨hcount, hlength, hlists⟩ :=
    directorySlots_ok hu hparent hclusters hchildren hslots
  rw [dirEntries_eq (h.dirChain hp hnode),
    hbytes.entries h.sectorsPerCluster hlength (hcount ▸ (h.dirSized hp hnode).2.1)]
  exact hlists _

theorem ImageNode.exists_of_isDir {node : ImageNode} (h : node.isDir = true) :
    ∃ name children clusters, node = .dir name children clusters := by
  cases node with
  | file name data clusters => cases h
  | dir name children clusters => exact ⟨name, children, clusters, rfl⟩

theorem ImageNode.exists_of_file {node : ImageNode} (h : node.isDir = false) :
    ∃ name data clusters, node = .file name data clusters := by
  cases node with
  | file name data clusters => exact ⟨name, data, clusters, rfl⟩
  | dir name children clusters => cases h

/-- An entry in use in a directory of the tree is that of a node in it. -/
theorem HoldsTree.child (hu : u.Uppercase) (h : HoldsTree u root g v) (hp : p ∈ nodesOf u root)
    (hdir : p.node.isDir = true) (he : liveEntries g v (p.node.clusters.headD 0) i = some e) :
    ∃ q ∈ nodesOf u root, q.parent = some (p.node.clusters.headD 0) ∧ q.slot = i ∧
      ShowsNode u q.node e := by
  obtain ⟨name, children, clusters, hnode⟩ := ImageNode.exists_of_isDir hdir
  rw [hnode] at he ⊢
  obtain ⟨k, child, rfl, hk, hshows⟩ := (h.lists hu hp hnode).live he
  exact ⟨_, placedAt_child hp hnode hk, rfl, rfl, hshows⟩

/-- The directories of the volume are those of the tree. -/
theorem HoldsTree.reachable (hu : u.Uppercase) (h : HoldsTree u root g v)
    (hd : Reachable g v d) :
    ∃ p ∈ nodesOf u root, p.node.isDir = true ∧ p.node.clusters.headD 0 = d := by
  induction hd with
  | root =>
    refine ⟨_, placedAt_self, h.isDir, ?_⟩
    rw [List.headD_eq_head?_getD, h.first]
    rfl
  | step _ entry dir ih =>
    obtain ⟨p, hp, hdir, rfl⟩ := ih
    obtain ⟨q, hq, -, -, hshows⟩ := h.child hu hp hdir entry
    exact ⟨q, hq, hshows.dir.symm.trans dir, hshows.first.symm⟩

theorem HoldsTree.live (hu : u.Uppercase) (h : HoldsTree u root g v) (hl : LiveIn g v d i e) :
    ∃ q ∈ nodesOf u root, q.parent = some d ∧ q.slot = i ∧ ShowsNode u q.node e := by
  obtain ⟨p, hp, hdir, rfl⟩ := h.reachable hu hl.1
  exact h.child hu hp hdir hl.2

/-- Whoever has a cluster on his chain is a node with this cluster. -/
theorem HoldsTree.onChain (hu : u.Uppercase) (h : HoldsTree u root g v) (hc : OnChain g v c o) :
    ∃ p ∈ nodesOf u root, c ∈ p.node.clusters ∧ p.owner = o := by
  cases hc with
  | root hc =>
    refine ⟨_, placedAt_self, ?_, rfl⟩
    have heq := h.chain_eq placedAt_self
    rw [List.headD_eq_head?_getD, h.first] at heq
    rwa [← heq]
  | slot live hc =>
    obtain ⟨q, hq, hparent, hslot, hshows⟩ := h.live hu live
    refine ⟨q, hq, ?_, ?_⟩
    · rwa [← h.chain_eq hq, ← hshows.first]
    · rw [Placed.owner, hparent, hslot]

theorem HoldsTree.eq_of_cluster (h : HoldsTree u root g v) (hp : p ∈ nodesOf u root)
    (hq : q ∈ nodesOf u root) (hc : c ∈ p.node.clusters) (hc' : c ∈ q.node.clusters) : p = q :=
  placed_eq_of_cluster h.nodup hp hq hc hc'

/-- A file has the clusters that its size needs. -/
theorem HoldsTree.fileSized (h : HoldsTree u root g v) (hp : p ∈ nodesOf u root)
    (hnode : p.node = .file name data clusters) :
    clusters.length = (data.length + 511) / 512 ∧
      clustersForSize g data.length = clusters.length := by
  have hsized := h.sized p hp
  have hchain := h.chain hp
  rw [hnode] at hsized hchain
  have hlength : clusters.length = (data.length + 511) / 512 := hsized
  have hcapacity := hchain.capacity
  have hg : g.clusterSize = 512 := by
    rw [Geometry.clusterSize, h.sectorsPerCluster]
    rfl
  refine ⟨hlength, ?_⟩
  change clusters.length * g.clusterSize + g.clusterSize ≤ 2 ^ 31 at hcapacity
  unfold clustersForSize
  rw [hg] at hcapacity ⊢
  split
  · omega
  · rw [Nat.mod_eq_of_lt (by omega)]
    omega

/-- The first cluster of a node tells whether it has any. -/
theorem HoldsTree.first_eq_zero (h : HoldsTree u root g v) (hp : p ∈ nodesOf u root) :
    p.node.clusters.headD 0 = 0 ↔ p.node.clusters = [] := by
  have hvalid := h.validAt hp
  generalize p.node.clusters = clusters at hvalid
  cases clusters with
  | nil => exact ⟨fun _ => rfl, fun _ => rfl⟩
  | cons c rest =>
    have hc := (g.isValidDataCluster_iff.mp (hvalid c List.mem_cons_self)).1
    rw [List.headD_cons]
    exact ⟨fun h0 => by omega, fun h0 => by cases h0⟩

/-- Entries of directories lead to different places. -/
theorem HoldsTree.head_mem (h : HoldsTree u root g v) (hp : p ∈ nodesOf u root)
    (hdir : p.node.isDir = true) : p.node.clusters.headD 0 ∈ p.node.clusters := by
  obtain ⟨name, children, clusters, hnode⟩ := ImageNode.exists_of_isDir hdir
  have hne := (h.dirSized hp hnode).1
  rw [hnode]
  cases clusters with
  | nil => exact absurd rfl hne
  | cons c rest => exact List.mem_cons_self

/-- A volume that holds a tree is well formed. -/
theorem HoldsTree.wellFormed (hu : u.Uppercase) (h : HoldsTree u root g v) : WellFormed g v where
  mounted := h.mounted
  root := by
    have hroot := h.chain placedAt_self
    have hhead : root.clusters.headD 0 = g.rootCluster := by
      rw [List.headD_eq_head?_getD, h.first]
      rfl
    rcases hroot with ⟨hnil, -⟩ | ⟨hne, hchain⟩
    · have hfirst := h.first
      rw [hnil] at hfirst
      cases hfirst
    · exact ⟨_, hne, hhead ▸ hchain⟩
  dirs {d i e} he hdir := by
    obtain ⟨q, hq, -, -, hshows⟩ := h.live hu he
    have hqdir := hshows.dir.symm.trans hdir
    obtain ⟨name, children, clusters, hnode⟩ := ImageNode.exists_of_isDir hqdir
    have hchain := h.dirChain hq hnode
    have hfirst := hshows.first
    rw [hnode] at hfirst
    exact ⟨clusters, (h.dirSized hq hnode).1, hfirst ▸ hchain⟩
  files {d i e} he hfile := by
    obtain ⟨q, hq, -, -, hshows⟩ := h.live hu he
    have hqfile := hshows.dir.symm.trans hfile
    have hzero := h.first_eq_zero hq
    have hchain := h.chain hq
    have hfirst := hshows.first
    have hsize := hshows.size
    obtain ⟨name, data, clusters, hnode⟩ := ImageNode.exists_of_file hqfile
    obtain ⟨hlength, hclusters⟩ := h.fileSized hq hnode
    rw [hnode] at hzero hchain hfirst hsize
    rw [hfirst, hsize]
    refine ⟨hzero.trans ?_, fun h0 => ?_⟩
    · rw [← List.length_eq_zero_iff]
      change clusters.length = 0 ↔ data.length = 0
      omega
    · rcases hchain with ⟨-, h0'⟩ | ⟨hne, hchain⟩
      · exact absurd h0' h0
      · exact ⟨_, hne, hchain, hclusters.le⟩
  disjoint {c o o'} hc hc' := by
    obtain ⟨p, hp, hmem, rfl⟩ := h.onChain hu hc
    obtain ⟨q, hq, hmem', rfl⟩ := h.onChain hu hc'
    rw [h.eq_of_cluster hp hq hmem hmem']
  tree {d i e} he hdir := by
    obtain ⟨q, hq, hparent, hslot, hshows⟩ := h.live hu he
    have hmem := h.head_mem hq (hshows.dir.symm.trans hdir)
    rw [← hshows.first] at hmem
    refine ⟨fun hroot => ?_, fun {d' i' e'} he' hdir' hsame => ?_⟩
    · have hroot' : e.entryFirstCluster ∈ root.clusters := by
        rw [hroot]
        exact List.mem_of_head? h.first
      rw [h.eq_of_cluster hq placedAt_self hmem hroot'] at hparent
      cases hparent
    · obtain ⟨q', hq', hparent', hslot', hshows'⟩ := h.live hu he'
      have hmem' := h.head_mem hq' (hshows'.dir.symm.trans hdir')
      rw [← hshows'.first, hsame] at hmem'
      rw [h.eq_of_cluster hq' hq hmem' hmem, hparent] at hparent'
      rw [h.eq_of_cluster hq' hq hmem' hmem, hslot] at hslot'
      exact ⟨(Option.some.inj hparent').symm, hslot'.symm⟩
  slots {d} hd := by
    obtain ⟨p, hp, hdir, rfl⟩ := h.reachable hu hd
    obtain ⟨name, children, clusters, hnode⟩ := ImageNode.exists_of_isDir hdir
    have horderly := (h.lists hu hp hnode).orderly
    rw [hnode]
    exact horderly

/-! ## Paths -/

/-- A path leads to a node: to the root, or to its entry. -/
structure LeadsTo (u : UnicodeData) (g : Geometry) (v : Volume) (p : Placed)
    (r : Option DirectoryEntry) : Prop where
  components : ∀ c ∈ p.path, CanonicalComponent c
  resolved : resolve g v p.path = .ok r
  dir : Fat32.isDir r = p.node.isDir
  first : dirCluster g r = p.node.clusters.headD 0
  shows : ∀ e, r = some e → ShowsNode u p.node e

/-- Every node is found at its path. -/
theorem HoldsTree.leadsTo (hu : u.Uppercase) (h : HoldsTree u root g v) (hp : p ∈ nodesOf u root) :
    ∃ r, LeadsTo u g v p r := by
  have hroot : LeadsTo u g v ⟨none, 0, [], root⟩ none := by
    refine ⟨fun _ hc => absurd hc List.not_mem_nil, rfl, h.isDir.symm, ?_, fun _ he => nomatch he⟩
    change g.rootCluster = root.clusters.headD 0
    rw [List.headD_eq_head?_getD, h.first]
    rfl
  have hall := placedAt_induction (u := u)
    (P := fun p => p ∈ nodesOf u root ∧ ∃ r, LeadsTo u g v p r) ?_
    ⟨placedAt_self, none, hroot⟩
  · exact (hall p hp).2
  · rintro q name children clusters k child ⟨hq, r, hr⟩ hnode hk
    have hdir : Fat32.isDir r = true := by rw [hr.dir, hnode]; rfl
    have hfirst : dirCluster g r = clusters.headD 0 := by rw [hr.first, hnode]; rfl
    obtain ⟨it, hfound, hshows⟩ :=
      (h.lists hu hq hnode).lookup_child hu (h.dirSized hq hnode).2.2 hk
    refine ⟨placedAt_child hq hnode hk, some it.entry, ⟨?_, ?_, hshows.dir, hshows.first, ?_⟩⟩
    · intro c hc
      rcases List.mem_append.mp hc with hc | hc
      · exact hr.components c hc
      · rw [List.mem_singleton.mp hc]
        exact hshows.name.component
    · rw [resolve_snoc, hr.resolved]
      dsimp only
      rw [if_neg (by simp [hdir]), if_neg (by simp [hshows.name.valid]), hfirst, hfound]
    · rintro e heq
      obtain rfl := Option.some.inj heq
      exact hshows

end

end FunnyOS.Tools
