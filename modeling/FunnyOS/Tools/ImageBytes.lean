import FunnyOS.Tools.ImageTree

/-!
# The FAT and the bytes of the tree

What `register_chains` and `write_directories` leave to each node of a tree whose clusters all
differ: the FAT links its clusters, and the sectors of these hold its bytes. What a visit does for
one node the visits of the others do not touch.
-/

namespace FunnyOS.Tools

open Fat32

/-! ## Links -/

/-- The FAT links the clusters, each with the next, and ends with the last. -/
def LinkedIn (fat : Nat → Nat) : List Nat → Prop
  | [] => True
  | cluster :: rest => fat cluster = rest.headD eoc ∧ LinkedIn fat rest

section

variable {u : UnicodeData} {fat fat' : Nat → Nat} {entries : Nat} {clusters : List Nat}

theorem LinkedIn.congr (h : LinkedIn fat clusters) (same : ∀ c ∈ clusters, fat' c = fat c) :
    LinkedIn fat' clusters := by
  induction clusters with
  | nil => trivial
  | cons cluster rest ih =>
    obtain ⟨hlink, hrest⟩ := h
    refine ⟨(same cluster List.mem_cons_self).trans hlink, ih hrest fun c hc => ?_⟩
    exact same c (List.mem_cons_of_mem _ hc)

theorem setFatChain_outside (h : setFatChain entries clusters fat = .ok fat') :
    ∀ c ∉ clusters, fat' c = fat c := by
  induction clusters generalizing fat with
  | nil =>
    obtain rfl := Except.ok.inj h
    exact fun _ _ => rfl
  | cons cluster rest ih =>
    rw [setFatChain] at h
    split at h
    · cases h
    · intro c hc
      rw [List.mem_cons, not_or] at hc
      rw [ih h c hc.2, Function.update_of_ne hc.1]

theorem setFatChain_linked (hnd : clusters.Nodup)
    (h : setFatChain entries clusters fat = .ok fat') : LinkedIn fat' clusters := by
  induction clusters generalizing fat with
  | nil => trivial
  | cons cluster rest ih =>
    obtain ⟨hnot, hnd⟩ := List.nodup_cons.mp hnd
    rw [setFatChain] at h
    split at h
    · cases h
    · refine ⟨?_, ih hnd h⟩
      rw [setFatChain_outside h cluster hnot, Function.update_self]

mutual

/-- A visit links only clusters of the tree. -/
theorem registerChains_outside : ∀ {node : ImageNode} {fat fat' : Nat → Nat},
    registerChains entries node fat = .ok fat' → ∀ c ∉ treeClusters node, fat' c = fat c
  | .file _ _ _, _, _, h, c, hc => by
    rw [treeClusters] at hc
    rw [registerChains] at h
    exact setFatChain_outside h c hc
  | .dir _ _ _, _, _, h, c, hc => by
    rw [treeClusters, List.mem_append, not_or] at hc
    rw [registerChains] at h
    obtain ⟨fat₁, hchain, h⟩ := ok_of_bind h
    rw [registerChildren_outside h c hc.2, setFatChain_outside hchain c hc.1]

theorem registerChildren_outside : ∀ {nodes : List ImageNode} {fat fat' : Nat → Nat},
    registerChildren entries nodes fat = .ok fat' → ∀ c ∉ childClusters nodes, fat' c = fat c
  | [], _, _, h, _, _ => by
    rw [registerChildren] at h
    obtain rfl := Except.ok.inj h
    rfl
  | _ :: _, _, _, h, c, hc => by
    rw [childClusters, List.mem_append, not_or] at hc
    rw [registerChildren] at h
    obtain ⟨fat₁, hchild, h⟩ := ok_of_bind h
    rw [registerChildren_outside h c hc.2, registerChains_outside hchild c hc.1]

end

mutual

/-- It links the clusters of every node. -/
theorem registerChains_linked : ∀ {node : ImageNode} {fat fat' : Nat → Nat}
    {parent : Option Nat} {slot : Nat} {path : List CStr}, (treeClusters node).Nodup →
    registerChains entries node fat = .ok fat' →
    ∀ p ∈ placedAt u parent slot path node, LinkedIn fat' p.node.clusters
  | .file _ _ _, _, _, _, _, _, hnd, h, p, hp => by
    rw [treeClusters] at hnd
    rw [registerChains] at h
    rw [placedAt, List.mem_singleton] at hp
    subst hp
    exact setFatChain_linked hnd h
  | .dir _ _ _, _, _, _, _, _, hnd, h, p, hp => by
    rw [treeClusters] at hnd
    obtain ⟨hself, hchildren, hdisjoint⟩ := List.nodup_append'.mp hnd
    rw [registerChains] at h
    obtain ⟨fat₁, hchain, h⟩ := ok_of_bind h
    rw [placedAt, List.mem_cons] at hp
    rcases hp with rfl | hp
    · exact (setFatChain_linked hself hchain).congr fun c hc =>
        registerChildren_outside h c (hdisjoint hc)
    · exact registerChildren_linked hchildren h p hp

theorem registerChildren_linked : ∀ {nodes : List ImageNode} {fat fat' : Nat → Nat}
    {d slot : Nat} {path : List CStr}, (childClusters nodes).Nodup →
    registerChildren entries nodes fat = .ok fat' →
    ∀ p ∈ placedIn u d slot path nodes, LinkedIn fat' p.node.clusters
  | [], _, _, _, _, _, _, _, p, hp => by
    rw [placedIn] at hp
    cases hp
  | _ :: _, _, _, _, _, _, hnd, h, p, hp => by
    rw [childClusters] at hnd
    obtain ⟨hchild, hrest, hdisjoint⟩ := List.nodup_append'.mp hnd
    rw [registerChildren] at h
    obtain ⟨fat₁, hrun, h⟩ := ok_of_bind h
    rw [placedIn, List.mem_append] at hp
    rcases hp with hp | hp
    · refine (registerChains_linked hchild hrun p hp).congr fun c hc => ?_
      exact registerChildren_outside h c (hdisjoint (mem_treeClusters.mpr ⟨p, hp, hc⟩))
    · exact registerChildren_linked hrest h p hp

end

end

/-! ## Bytes -/

/-- Byte `a` of the image belongs to a cluster. -/
def InCluster (dataLba cluster a : Nat) : Prop :=
  (dataLba + (cluster - 2)) * 512 ≤ a ∧ a < (dataLba + (cluster - 2)) * 512 + 512

/-- The clusters hold the bytes, 512 each. -/
def Stores (image : FatImage) (dataLba : Nat) : List Nat → List UInt8 → Prop
  | [], _ => True
  | cluster :: rest, data =>
    (∀ o < 512, o < data.length →
      image.bytes ((dataLba + (cluster - 2)) * 512 + o) = data.getD o 0) ∧
    Stores image dataLba rest (data.drop 512)

/-- Nothing has changed outside the clusters. -/
structure KeepsOutside (dataLba : Nat) (clusters : List Nat) (image image' : FatImage) : Prop where
  size : image'.size = image.size
  bytes : ∀ a, (∀ c ∈ clusters, ¬ InCluster dataLba c a) → image'.bytes a = image.bytes a

/-- The image has the sectors of the clusters. -/
def HasClusters (dataLba : Nat) (clusters : List Nat) (image : FatImage) : Prop :=
  ∀ c ∈ clusters, (dataLba + (c - 2)) * 512 + 512 ≤ image.size

/-- Clusters of the data area. -/
def AreClusters (clusters : List Nat) : Prop := ∀ c ∈ clusters, 2 ≤ c

/-- What `write_directories` leaves to a node in the directory with the first cluster `parent`. -/
def Written (u : UnicodeData) (dataLba : Nat) (image : FatImage) (parent : Option Nat) :
    ImageNode → Prop
  | .file _ data clusters => Stores image dataLba clusters data
  | .dir _ children clusters => ∃ slots, directorySlots u parent children clusters = .ok slots ∧
    Stores image dataLba clusters (payload clusters.length slots)

section

variable {u : UnicodeData} {dataLba : Nat} {clusters clusters' : List Nat} {data : List UInt8}
  {image image' image'' : FatImage} {parent : Option Nat} {node : ImageNode}

theorem InCluster.unique {a c c' : Nat} (hc : 2 ≤ c) (hc' : 2 ≤ c') (h : InCluster dataLba c a)
    (h' : InCluster dataLba c' a) : c = c' := by
  unfold InCluster at h h'
  omega

theorem KeepsOutside.refl : KeepsOutside dataLba clusters image image := ⟨rfl, fun _ _ => rfl⟩

theorem KeepsOutside.trans (h : KeepsOutside dataLba clusters image image')
    (h' : KeepsOutside dataLba clusters' image' image'') :
    KeepsOutside dataLba (clusters ++ clusters') image image'' := by
  refine ⟨h'.size.trans h.size, fun a ha => ?_⟩
  rw [h'.bytes a fun c hc => ha c (List.mem_append_right _ hc),
    h.bytes a fun c hc => ha c (List.mem_append_left _ hc)]

theorem HasClusters.left (h : HasClusters dataLba (clusters ++ clusters') image) :
    HasClusters dataLba clusters image := fun c hc => h c (List.mem_append_left _ hc)

theorem HasClusters.right (h : HasClusters dataLba (clusters ++ clusters') image)
    (hkeeps : KeepsOutside dataLba clusters image image') :
    HasClusters dataLba clusters' image' := by
  intro c hc
  rw [hkeeps.size]
  exact h c (List.mem_append_right _ hc)

/-- What clusters hold does not depend on the others. -/
theorem Stores.keep (h : Stores image dataLba clusters data) (hclusters : AreClusters clusters)
    (hclusters' : AreClusters clusters') (hdisjoint : clusters.Disjoint clusters')
    (hkeeps : KeepsOutside dataLba clusters' image image') :
    Stores image' dataLba clusters data := by
  induction clusters generalizing data with
  | nil => trivial
  | cons cluster rest ih =>
    obtain ⟨hfirst, hrest⟩ := h
    refine ⟨fun o ho hlt => ?_, ih hrest (fun c hc => hclusters c (List.mem_cons_of_mem _ hc))
      (List.disjoint_of_disjoint_cons_left hdisjoint)⟩
    rw [← hfirst o ho hlt]
    refine hkeeps.bytes _ fun c hc hin => ?_
    have hself : InCluster dataLba cluster ((dataLba + (cluster - 2)) * 512 + o) := by
      unfold InCluster
      omega
    have heq := hself.unique (hclusters cluster List.mem_cons_self) (hclusters' c hc) hin
    exact hdisjoint (heq ▸ List.mem_cons_self) hc

theorem Written.keep (h : Written u dataLba image parent node)
    (hclusters : AreClusters node.clusters) (hclusters' : AreClusters clusters')
    (hdisjoint : node.clusters.Disjoint clusters')
    (hkeeps : KeepsOutside dataLba clusters' image image') :
    Written u dataLba image' parent node := by
  cases node with
  | file name data clusters => exact Stores.keep h hclusters hclusters' hdisjoint hkeeps
  | dir name children clusters =>
    obtain ⟨slots, hslots, hstores⟩ := h
    exact ⟨slots, hslots, hstores.keep hclusters hclusters' hdisjoint hkeeps⟩

theorem getD_take {n o : Nat} (h : o < n) : (data.take n).getD o 0 = data.getD o 0 := by
  rw [List.getD_eq_getElem?_getD, List.getElem?_take_of_lt h, List.getD_eq_getElem?_getD]

theorem storeBytes_bytes {start : Nat} : (image.storeBytes start data).bytes =
    overlay image.bytes (min start image.size) data.length (data.getD · 0) := rfl

/-- The bytes of one cluster. -/
theorem storeBytes_keeps {cluster : Nat} (hroom : HasClusters dataLba [cluster] image)
    (hlength : data.length ≤ 512) : KeepsOutside dataLba [cluster] image
      (image.storeBytes ((dataLba + (cluster - 2)) * 512) data) := by
  have hfits := hroom cluster (List.mem_singleton_self _)
  constructor
  · change max image.size (min _ image.size + data.length) = image.size
    omega
  · intro a ha
    have hout := ha cluster (List.mem_singleton_self _)
    unfold InCluster at hout
    rw [storeBytes_bytes, overlay_outside]
    omega

theorem storeClusters_keeps (hroom : HasClusters dataLba clusters image) :
    KeepsOutside dataLba clusters image (storeClusters dataLba clusters data image) := by
  induction clusters generalizing data image with
  | nil => exact .refl
  | cons cluster rest ih =>
    rw [← List.singleton_append] at hroom ⊢
    have hkeeps := storeBytes_keeps hroom.left (List.length_take_le 512 data)
    exact hkeeps.trans (ih (hroom.right hkeeps))

theorem storeClusters_stores (hclusters : AreClusters clusters) (hnd : clusters.Nodup)
    (hroom : HasClusters dataLba clusters image) :
    Stores (storeClusters dataLba clusters data image) dataLba clusters data := by
  induction clusters generalizing data image with
  | nil => trivial
  | cons cluster rest ih =>
    obtain ⟨hnot, hnd⟩ := List.nodup_cons.mp hnd
    have hrest : AreClusters rest := fun c hc => hclusters c (List.mem_cons_of_mem _ hc)
    have hfits := hroom cluster List.mem_cons_self
    rw [← List.singleton_append] at hroom
    have hkeeps := storeBytes_keeps hroom.left (List.length_take_le 512 data)
    have hroom' := hroom.right hkeeps
    refine ⟨fun o ho hlt => ?_, ih hrest hnd hroom'⟩
    rw [storeClusters, (storeClusters_keeps hroom').bytes]
    · -- the byte is in the chunk just stored
      have hstart := (Nat.le_add_right _ 512).trans hfits
      have hin : (dataLba + (cluster - 2)) * 512 ≤ (dataLba + (cluster - 2)) * 512 + o ∧
          (dataLba + (cluster - 2)) * 512 + o
            < (dataLba + (cluster - 2)) * 512 + (data.take 512).length := by
        rw [List.length_take]
        omega
      rw [storeBytes_bytes, Nat.min_eq_left hstart, overlay_inside hin, Nat.add_sub_cancel_left]
      exact getD_take ho
    · intro c hc hin
      have hself : InCluster dataLba cluster ((dataLba + (cluster - 2)) * 512 + o) := by
        unfold InCluster
        omega
      exact hnot (hself.unique (hclusters cluster List.mem_cons_self) (hrest c hc) hin ▸ hc)

theorem writeClusterChain_keeps (hroom : HasClusters dataLba clusters image)
    (h : writeClusterChain dataLba clusters data image = .ok image') :
    KeepsOutside dataLba clusters image image' := by
  unfold writeClusterChain at h
  split at h
  · obtain rfl := Except.ok.inj h
    exact .refl
  · split at h
    · cases h
    · obtain rfl := Except.ok.inj h
      exact storeClusters_keeps hroom

theorem writeClusterChain_stores (hclusters : AreClusters clusters) (hnd : clusters.Nodup)
    (hroom : HasClusters dataLba clusters image)
    (h : writeClusterChain dataLba clusters data image = .ok image') :
    Stores image' dataLba clusters data := by
  unfold writeClusterChain at h
  split at h
  · next hnil =>
    rw [hnil]
    trivial
  · split at h
    · cases h
    · obtain rfl := Except.ok.inj h
      exact storeClusters_stores hclusters hnd hroom

mutual

/-- A visit writes only to clusters of the tree. -/
theorem writeDirectories_keeps : ∀ {node : ImageNode} {parent : Option Nat}
    {image image' : FatImage}, HasClusters dataLba (treeClusters node) image →
    writeDirectories u dataLba parent node image = .ok image' →
    KeepsOutside dataLba (treeClusters node) image image'
  | .file _ _ _, _, _, _, hroom, h => by
    rw [treeClusters] at hroom ⊢
    rw [writeDirectories] at h
    exact writeClusterChain_keeps hroom h
  | .dir _ _ _, _, _, _, hroom, h => by
    rw [treeClusters] at hroom ⊢
    rw [writeDirectories] at h
    obtain ⟨slots, -, h⟩ := ok_of_bind h
    obtain ⟨image₁, hchain, h⟩ := ok_of_bind h
    have hkeeps := writeClusterChain_keeps hroom.left hchain
    exact hkeeps.trans (writeChildren_keeps (hroom.right hkeeps) h)

theorem writeChildren_keeps : ∀ {nodes : List ImageNode} {d : Nat} {image image' : FatImage},
    HasClusters dataLba (childClusters nodes) image →
    writeChildren u dataLba d nodes image = .ok image' →
    KeepsOutside dataLba (childClusters nodes) image image'
  | [], _, _, _, _, h => by
    rw [writeChildren] at h
    obtain rfl := Except.ok.inj h
    exact .refl
  | _ :: _, _, _, _, hroom, h => by
    rw [childClusters] at hroom ⊢
    rw [writeChildren] at h
    obtain ⟨image₁, hchild, h⟩ := ok_of_bind h
    have hkeeps := writeDirectories_keeps hroom.left hchild
    exact hkeeps.trans (writeChildren_keeps (hroom.right hkeeps) h)

end

theorem AreClusters.left (h : AreClusters (clusters ++ clusters')) : AreClusters clusters :=
  fun c hc => h c (List.mem_append_left _ hc)

theorem AreClusters.right (h : AreClusters (clusters ++ clusters')) : AreClusters clusters' :=
  fun c hc => h c (List.mem_append_right _ hc)

mutual

/-- It writes the bytes of every node. -/
theorem writeDirectories_written : ∀ {node : ImageNode} {parent : Option Nat}
    {image image' : FatImage} {slot : Nat} {path : List CStr}, AreClusters (treeClusters node) →
    (treeClusters node).Nodup → HasClusters dataLba (treeClusters node) image →
    writeDirectories u dataLba parent node image = .ok image' →
    ∀ p ∈ placedAt u parent slot path node, Written u dataLba image' p.parent p.node
  | .file _ _ _, _, _, _, _, _, hclusters, hnd, hroom, h, p, hp => by
    rw [treeClusters] at hclusters hnd hroom
    rw [writeDirectories] at h
    rw [placedAt, List.mem_singleton] at hp
    subst hp
    exact writeClusterChain_stores hclusters hnd hroom h
  | .dir _ _ _, _, _, _, _, _, hclusters, hnd, hroom, h, p, hp => by
    rw [treeClusters] at hclusters hnd hroom
    obtain ⟨hself, hchildren, hdisjoint⟩ := List.nodup_append'.mp hnd
    rw [writeDirectories] at h
    obtain ⟨slots, hslots, h⟩ := ok_of_bind h
    obtain ⟨image₁, hchain, h⟩ := ok_of_bind h
    have hkeeps := writeClusterChain_keeps hroom.left hchain
    rw [placedAt, List.mem_cons] at hp
    rcases hp with rfl | hp
    · have hstores := writeClusterChain_stores hclusters.left hself hroom.left hchain
      exact ⟨slots, hslots, hstores.keep hclusters.left hclusters.right hdisjoint
        (writeChildren_keeps (hroom.right hkeeps) h)⟩
    · exact writeChildren_written hclusters.right hchildren (hroom.right hkeeps) h p hp

theorem writeChildren_written : ∀ {nodes : List ImageNode} {d : Nat}
    {image image' : FatImage} {slot : Nat} {path : List CStr},
    AreClusters (childClusters nodes) → (childClusters nodes).Nodup →
    HasClusters dataLba (childClusters nodes) image →
    writeChildren u dataLba d nodes image = .ok image' →
    ∀ p ∈ placedIn u d slot path nodes, Written u dataLba image' p.parent p.node
  | [], _, _, _, _, _, _, _, _, _, p, hp => by
    rw [placedIn] at hp
    cases hp
  | _ :: _, _, _, _, _, _, hclusters, hnd, hroom, h, p, hp => by
    rw [childClusters] at hclusters hnd hroom
    obtain ⟨hchild, hrest, hdisjoint⟩ := List.nodup_append'.mp hnd
    rw [writeChildren] at h
    obtain ⟨image₁, hrun, h⟩ := ok_of_bind h
    have hkeeps := writeDirectories_keeps hroom.left hrun
    rw [placedIn, List.mem_append] at hp
    rcases hp with hp | hp
    · have hsub : ∀ c ∈ p.node.clusters, c ∈ treeClusters _ := fun c hc =>
        mem_treeClusters.mpr ⟨p, hp, hc⟩
      exact (writeDirectories_written hclusters.left hchild hroom.left hrun p hp).keep
        (fun c hc => hclusters.left c (hsub c hc)) hclusters.right
        (fun c hc hc' => hdisjoint (hsub c hc) hc') (writeChildren_keeps (hroom.right hkeeps) h)
    · exact writeChildren_written hclusters.right hrest (hroom.right hkeeps) h p hp

end

end

end FunnyOS.Tools
