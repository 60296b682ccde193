import FunnyOS.Tools.MountedImage
import FunnyOS.Tools.ShownNames

/-!
# The tree in the image

The tool visits the tree three times, each time a directory before its children: to allocate
clusters, to link them in the FAT, and to write their bytes. `placedAt` lists the nodes in this
order, each with its place. The clusters that are allocated follow one after the other, so those of
different nodes differ, and each visit leaves to every node what it has got from the visit.
-/

namespace FunnyOS.Tools

open Fat32

/-! ## Places -/

/-- A node with its place: the first cluster of the directory that it is in, `none` for the root,
its slot there, and its path. -/
structure Placed where
  parent : Option Nat
  slot : Nat
  path : List CStr
  node : ImageNode

/-- The number of slots in front of those of the children. -/
def dotCount : Option Nat → Nat
  | none => 0
  | some _ => 2

mutual

/-- A node and those below it. -/
def placedAt (u : UnicodeData) (parent : Option Nat) (slot : Nat) (path : List CStr) :
    ImageNode → List Placed
  | .file name data clusters => [⟨parent, slot, path, .file name data clusters⟩]
  | .dir name children clusters =>
    ⟨parent, slot, path, .dir name children clusters⟩
      :: placedIn u (clusters.headD 0) (dotCount parent) path children

/-- The nodes of a directory from the slot on, and those below them. -/
def placedIn (u : UnicodeData) (parent slot : Nat) (path : List CStr) :
    List ImageNode → List Placed
  | [] => []
  | child :: rest =>
    placedAt u (some parent) slot (path ++ [kernelName u child.name]) child
      ++ placedIn u parent (slot + 1) path rest

end

/-- The nodes of the tree. -/
abbrev nodesOf (u : UnicodeData) (root : ImageNode) : List Placed := placedAt u none 0 [] root

mutual

/-- The clusters of a node and of those below it. -/
def treeClusters : ImageNode → List Nat
  | .file _ _ clusters => clusters
  | .dir _ children clusters => clusters ++ childClusters children

/-- The same for the children of a directory. -/
def childClusters : List ImageNode → List Nat
  | [] => []
  | child :: rest => treeClusters child ++ childClusters rest

end

section

variable {u : UnicodeData} {parent : Option Nat} {d slot k : Nat} {path : List CStr}
  {node child : ImageNode} {nodes children : List ImageNode} {name : List Char}
  {clusters : List Nat} {p q : Placed}

theorem placedAt_self : ⟨parent, slot, path, node⟩ ∈ placedAt u parent slot path node := by
  cases node with
  | file name data clusters => rw [placedAt]; exact List.mem_singleton_self _
  | dir name children clusters => rw [placedAt]; exact List.mem_cons_self

/-- The nodes in a directory, each with those below it. -/
theorem mem_placedIn : p ∈ placedIn u d slot path nodes ↔ ∃ k child, nodes[k]? = some child ∧
    p ∈ placedAt u (some d) (slot + k) (path ++ [kernelName u child.name]) child := by
  induction nodes generalizing slot with
  | nil => simp [placedIn]
  | cons child rest ih =>
    rw [placedIn, List.mem_append, ih]
    constructor
    · rintro (hp | ⟨k, child', hk, hp⟩)
      · exact ⟨0, child, rfl, hp⟩
      · refine ⟨k + 1, child', hk, ?_⟩
        rwa [Nat.add_assoc, Nat.add_comm 1] at hp
    · rintro ⟨_ | k, child', hk, hp⟩
      · obtain rfl := Option.some.inj hk
        exact .inl hp
      · refine .inr ⟨k, child', hk, ?_⟩
        rwa [Nat.add_assoc, Nat.add_comm 1]

mutual

/-- A child of a node in the tree is one. -/
theorem placedAt_child : ∀ {node : ImageNode} {parent : Option Nat} {slot : Nat}
    {path : List CStr}, p ∈ placedAt u parent slot path node →
    p.node = .dir name children clusters → children[k]? = some child →
    ⟨some (clusters.headD 0), dotCount p.parent + k, p.path ++ [kernelName u child.name], child⟩
      ∈ placedAt u parent slot path node
  | .file _ _ _, _, _, _, hp, hnode, _ => by
    rw [placedAt, List.mem_singleton] at hp
    subst hp
    cases hnode
  | .dir _ _ _, _, _, _, hp, hnode, hk => by
    rw [placedAt, List.mem_cons] at hp ⊢
    rcases hp with rfl | hp
    · cases hnode
      exact .inr (mem_placedIn.mpr ⟨k, child, hk, placedAt_self⟩)
    · exact .inr (placedIn_child hp hnode hk)

theorem placedIn_child : ∀ {nodes : List ImageNode} {d slot : Nat} {path : List CStr},
    p ∈ placedIn u d slot path nodes →
    p.node = .dir name children clusters → children[k]? = some child →
    ⟨some (clusters.headD 0), dotCount p.parent + k, p.path ++ [kernelName u child.name], child⟩
      ∈ placedIn u d slot path nodes
  | [], _, _, _, hp, _, _ => by
    rw [placedIn] at hp
    cases hp
  | _ :: _, _, _, _, hp, hnode, hk => by
    rw [placedIn, List.mem_append] at hp ⊢
    rcases hp with hp | hp
    · exact .inl (placedAt_child hp hnode hk)
    · exact .inr (placedIn_child hp hnode hk)

end

mutual

/-- What holds of a node, and of the children of every node of which it holds, holds of all below
it. -/
theorem placedAt_induction {P : Placed → Prop}
    (step : ∀ p name children clusters k child, P p → p.node = .dir name children clusters →
      children[k]? = some child → P ⟨some (clusters.headD 0), dotCount p.parent + k,
        p.path ++ [kernelName u child.name], child⟩) :
    ∀ {node : ImageNode} {parent : Option Nat} {slot : Nat} {path : List CStr},
      P ⟨parent, slot, path, node⟩ → ∀ p ∈ placedAt u parent slot path node, P p
  | .file _ _ _, _, _, _, h, p, hp => by
    rw [placedAt, List.mem_singleton] at hp
    subst hp
    exact h
  | .dir name children clusters, _, _, _, h, p, hp => by
    rw [placedAt, List.mem_cons] at hp
    rcases hp with rfl | hp
    · exact h
    · exact placedIn_induction step (fun k child hk => step _ _ _ _ k child h rfl hk) p hp

theorem placedIn_induction {P : Placed → Prop}
    (step : ∀ p name children clusters k child, P p → p.node = .dir name children clusters →
      children[k]? = some child → P ⟨some (clusters.headD 0), dotCount p.parent + k,
        p.path ++ [kernelName u child.name], child⟩) :
    ∀ {nodes : List ImageNode} {d slot : Nat} {path : List CStr},
      (∀ k child, nodes[k]? = some child →
        P ⟨some d, slot + k, path ++ [kernelName u child.name], child⟩) →
      ∀ p ∈ placedIn u d slot path nodes, P p
  | [], _, _, _, _, p, hp => by
    rw [placedIn] at hp
    cases hp
  | child :: rest, _, slot, _, h, p, hp => by
    rw [placedIn, List.mem_append] at hp
    rcases hp with hp | hp
    · exact placedAt_induction step (h 0 child rfl) p hp
    · refine placedIn_induction step (fun k child' hk => ?_) p hp
      rw [Nat.add_assoc, Nat.add_comm 1]
      exact h (k + 1) child' hk

end

/-- A node is the root, or a child of another one. -/
theorem nodesOf_cases {root : ImageNode} (hp : p ∈ nodesOf u root) : p = ⟨none, 0, [], root⟩ ∨
    ∃ q ∈ nodesOf u root, ∃ name children clusters k, q.node = .dir name children clusters ∧
      children[k]? = some p.node ∧ p = ⟨some (clusters.headD 0), dotCount q.parent + k,
        q.path ++ [kernelName u p.node.name], p.node⟩ := by
  have hall := placedAt_induction (u := u) (P := fun p => p ∈ nodesOf u root ∧
    (p = ⟨none, 0, [], root⟩ ∨ ∃ q ∈ nodesOf u root, ∃ name children clusters k,
      q.node = .dir name children clusters ∧ children[k]? = some p.node ∧
        p = ⟨some (clusters.headD 0), dotCount q.parent + k,
          q.path ++ [kernelName u p.node.name], p.node⟩))
    (fun q name children clusters k child hq hnode hk => ⟨placedAt_child hq.1 hnode hk,
      .inr ⟨q, hq.1, name, children, clusters, k, hnode, hk, rfl⟩⟩)
    ⟨placedAt_self, .inl rfl⟩
  exact (hall p hp).2

mutual

theorem treeClusters_eq : ∀ {node : ImageNode} {parent : Option Nat} {slot : Nat}
    {path : List CStr},
    (placedAt u parent slot path node).flatMap (·.node.clusters) = treeClusters node
  | .file _ _ _, _, _, _ => by
    rw [placedAt, treeClusters]
    exact List.flatMap_singleton ..
  | .dir _ _ _, _, _, _ => by
    rw [placedAt, treeClusters, List.flatMap_cons, childClusters_eq]
    rfl

theorem childClusters_eq : ∀ {nodes : List ImageNode} {d slot : Nat} {path : List CStr},
    (placedIn u d slot path nodes).flatMap (·.node.clusters) = childClusters nodes
  | [], _, _, _ => by
    rw [placedIn, childClusters]
    rfl
  | _ :: _, _, _, _ => by
    rw [placedIn, childClusters, List.flatMap_append, treeClusters_eq, childClusters_eq]

end

/-- Whose clusters they are. -/
theorem mem_treeClusters {c : Nat} : c ∈ treeClusters node ↔
    ∃ p ∈ placedAt u parent slot path node, c ∈ p.node.clusters := by
  have heq : (placedAt u parent slot path node).flatMap (·.node.clusters) = treeClusters node :=
    treeClusters_eq
  rw [← heq, List.mem_flatMap]

/-- Nodes that share a cluster are the same. -/
theorem placed_eq_of_cluster {c : Nat} (hnd : (treeClusters node).Nodup)
    (hp : p ∈ placedAt u parent slot path node) (hq : q ∈ placedAt u parent slot path node)
    (hc : c ∈ p.node.clusters) (hc' : c ∈ q.node.clusters) : p = q := by
  have heq : (placedAt u parent slot path node).flatMap (·.node.clusters) = treeClusters node :=
    treeClusters_eq
  rw [← heq, List.nodup_flatMap] at hnd
  have : Std.Symm (Function.onFun List.Disjoint fun p : Placed => p.node.clusters) :=
    ⟨fun _ _ h => h.symm⟩
  by_contra hne
  exact hnd.2.forall hp hq hne hc hc'

end

/-! ## Allocation -/

/-- What a node has been given. -/
def Sized (u : UnicodeData) (isRoot : Bool) : ImageNode → Prop
  | .file _ data clusters => clusters.length = (data.length + 511) / 512
  | .dir _ children clusters => clusters.length = neededClusters children.length isRoot ∧
    checkNames u [] children = .ok ()

mutual

/-- A node before it has been given clusters. -/
def ImageNode.bare : ImageNode → ImageNode
  | .file name data _ => .file name data []
  | .dir name children _ => .dir name (bareAll children) []

/-- The nodes of a list in this state. -/
def bareAll : List ImageNode → List ImageNode
  | [] => []
  | child :: rest => child.bare :: bareAll rest

end

section

variable {u : UnicodeData} {total next next' count : Nat} {isRoot : Bool} {clusters : List Nat}
  {name : List Char} {data : List UInt8} {node node' : ImageNode} {nodes nodes' : List ImageNode}

theorem bareAll_eq : bareAll nodes = nodes.map ImageNode.bare := by
  induction nodes with
  | nil => rw [bareAll, List.map_nil]
  | cons child rest ih => rw [bareAll, ih, List.map_cons]

theorem ImageNode.bare_name : node.bare.name = node.name := by
  cases node <;> rw [bare] <;> rfl

/-- The names in a directory do not depend on what its nodes have been given. -/
theorem checkNames_bareAll {seen : List (List UInt8)} :
    checkNames u seen (bareAll nodes) = checkNames u seen nodes := by
  induction nodes generalizing seen with
  | nil => rw [bareAll]
  | cons child rest ih =>
    rw [bareAll, checkNames, checkNames, ImageNode.bare_name]
    simp only [ih]

theorem alloc_eq : alloc total count next =
    if count = 0 then .ok ([], next)
    else if next + count > total then .error "image capacity exceeded while allocating clusters"
    else .ok (List.range' next count, next + count) := by
  change (if count = 0 then _ else if next + count > total then _ else _ : Allocation _) next = _
  split
  · rfl
  · split <;> rfl

theorem alloc_ok (hnext : next ≤ total) (h : alloc total count next = .ok (clusters, next')) :
    clusters = List.range' next count ∧ next' = next + count ∧ next' ≤ total := by
  rw [alloc_eq] at h
  split at h
  · next h0 =>
    obtain ⟨rfl, rfl⟩ := Prod.mk.inj (Except.ok.inj h)
    rw [h0]
    exact ⟨rfl, rfl, hnext⟩
  · split at h
    · cases h
    · next hroom =>
      obtain ⟨rfl, rfl⟩ := Prod.mk.inj (Except.ok.inj h)
      exact ⟨rfl, rfl, not_lt.mp hroom⟩

theorem walkNode_file {old : List Nat}
    (h : walkNode u total isRoot (.file name data old) next = .ok (node', next')) :
    ∃ clusters, alloc total ((data.length + 511) / 512) next = .ok (clusters, next') ∧
      node' = .file name data clusters := by
  rw [walkNode] at h
  obtain ⟨⟨clusters, n⟩, halloc, h⟩ := ok_of_bind h
  obtain ⟨rfl, rfl⟩ := Prod.mk.inj (Except.ok.inj h)
  exact ⟨clusters, halloc, rfl⟩

theorem walkNode_dir {old : List Nat}
    (h : walkNode u total isRoot (.dir name nodes old) next = .ok (node', next')) :
    ∃ clusters n nodes', alloc total (neededClusters nodes.length isRoot) next = .ok (clusters, n) ∧
      checkNames u [] nodes = .ok () ∧ walkNodes u total nodes n = .ok (nodes', next') ∧
      node' = .dir name nodes' clusters := by
  rw [walkNode] at h
  obtain ⟨⟨clusters, n⟩, halloc, h⟩ := ok_of_bind h
  obtain ⟨⟨⟨⟩, n'⟩, hnames, h⟩ := ok_of_bind h
  obtain ⟨⟨⟩, hcheck, hn⟩ := ok_of_bind hnames
  obtain ⟨-, rfl⟩ := Prod.mk.inj (Except.ok.inj hn)
  obtain ⟨⟨nodes', n₂⟩, hwalk, h⟩ := ok_of_bind h
  obtain ⟨rfl, rfl⟩ := Prod.mk.inj (Except.ok.inj h)
  exact ⟨clusters, n, nodes', halloc, hcheck, hwalk, rfl⟩

theorem walkNodes_cons (h : walkNodes u total (node :: nodes) next = .ok (nodes', next')) :
    ∃ node' n rest', walkNode u total false node next = .ok (node', n) ∧
      walkNodes u total nodes n = .ok (rest', next') ∧ nodes' = node' :: rest' := by
  rw [walkNodes] at h
  obtain ⟨⟨node', n⟩, hnode, h⟩ := ok_of_bind h
  obtain ⟨⟨rest', n'⟩, hrest, h⟩ := ok_of_bind h
  obtain ⟨rfl, rfl⟩ := Prod.mk.inj (Except.ok.inj h)
  exact ⟨node', n, rest', hnode, hrest, rfl⟩

theorem walkNodes_nil (h : walkNodes u total [] next = .ok (nodes', next')) :
    nodes' = [] ∧ next' = next := by
  rw [walkNodes] at h
  obtain ⟨rfl, rfl⟩ := Prod.mk.inj (Except.ok.inj h)
  exact ⟨rfl, rfl⟩

mutual

/-- A visit gives out the clusters one after the other. -/
theorem walkNode_clusters : ∀ {node node' : ImageNode} {isRoot : Bool} {next next' : Nat},
    next ≤ total → walkNode u total isRoot node next = .ok (node', next') →
    next' ≤ total ∧ ∃ count, next' = next + count ∧ treeClusters node' = List.range' next count
  | .file _ _ _, _, _, _, _, hnext, h => by
    obtain ⟨clusters, halloc, rfl⟩ := walkNode_file h
    obtain ⟨rfl, hend, htop⟩ := alloc_ok hnext halloc
    refine ⟨htop, _, hend, ?_⟩
    rw [treeClusters]
  | .dir _ _ _, _, _, next, _, hnext, h => by
    obtain ⟨clusters, n, nodes', halloc, -, hwalk, rfl⟩ := walkNode_dir h
    obtain ⟨rfl, rfl, htop⟩ := alloc_ok hnext halloc
    obtain ⟨htop', count, rfl, hchildren⟩ := walkNodes_clusters htop hwalk
    refine ⟨htop', _, Nat.add_assoc .., ?_⟩
    rw [treeClusters, hchildren, List.range'_append_1]

theorem walkNodes_clusters : ∀ {nodes nodes' : List ImageNode} {next next' : Nat},
    next ≤ total → walkNodes u total nodes next = .ok (nodes', next') →
    next' ≤ total ∧ ∃ count, next' = next + count ∧ childClusters nodes' = List.range' next count
  | [], _, _, _, hnext, h => by
    obtain ⟨rfl, rfl⟩ := walkNodes_nil h
    exact ⟨hnext, 0, rfl, by rw [childClusters]; rfl⟩
  | _ :: _, _, _, _, hnext, h => by
    obtain ⟨node', n, rest', hnode, hrest, rfl⟩ := walkNodes_cons h
    obtain ⟨htop, count, rfl, hclusters⟩ := walkNode_clusters hnext hnode
    obtain ⟨htop', count', rfl, hclusters'⟩ := walkNodes_clusters htop hrest
    refine ⟨htop', _, Nat.add_assoc .., ?_⟩
    rw [childClusters, hclusters, hclusters', List.range'_append_1]

end

mutual

/-- A visit changes nothing but the clusters. -/
theorem walkNode_bare : ∀ {node node' : ImageNode} {isRoot : Bool} {next next' : Nat},
    walkNode u total isRoot node next = .ok (node', next') → node'.bare = node.bare
  | .file _ _ _, _, _, _, _, h => by
    obtain ⟨clusters, -, rfl⟩ := walkNode_file h
    rw [ImageNode.bare, ImageNode.bare]
  | .dir _ _ _, _, _, _, _, h => by
    obtain ⟨clusters, n, nodes', -, -, hwalk, rfl⟩ := walkNode_dir h
    rw [ImageNode.bare, ImageNode.bare, walkNodes_bare hwalk]

theorem walkNodes_bare : ∀ {nodes nodes' : List ImageNode} {next next' : Nat},
    walkNodes u total nodes next = .ok (nodes', next') → bareAll nodes' = bareAll nodes
  | [], _, _, _, h => by
    obtain ⟨rfl, -⟩ := walkNodes_nil h
    rfl
  | _ :: _, _, _, _, h => by
    obtain ⟨node', n, rest', hnode, hrest, rfl⟩ := walkNodes_cons h
    rw [bareAll, bareAll, walkNode_bare hnode, walkNodes_bare hrest]

end

mutual

/-- Every node gets the clusters that it needs. -/
theorem walkNode_sized : ∀ {node node' : ImageNode} {isRoot : Bool} {next next' : Nat}
    {parent : Option Nat} {slot : Nat} {path : List CStr}, next ≤ total → parent.isNone = isRoot →
    walkNode u total isRoot node next = .ok (node', next') →
    ∀ p ∈ placedAt u parent slot path node', Sized u p.parent.isNone p.node
  | .file _ _ _, _, _, _, _, _, _, _, hnext, _, h, p, hp => by
    obtain ⟨clusters, halloc, rfl⟩ := walkNode_file h
    obtain ⟨rfl, -, -⟩ := alloc_ok hnext halloc
    rw [placedAt, List.mem_singleton] at hp
    subst hp
    exact List.length_range'
  | .dir _ nodes _, _, _, _, _, _, _, _, hnext, hroot, h, p, hp => by
    obtain ⟨clusters, n, nodes', halloc, hnames, hwalk, rfl⟩ := walkNode_dir h
    obtain ⟨rfl, rfl, htop⟩ := alloc_ok hnext halloc
    rw [placedAt, List.mem_cons] at hp
    rcases hp with rfl | hp
    · have hbare := walkNodes_bare hwalk
      have hlength : nodes'.length = nodes.length := by
        rw [← List.length_map ImageNode.bare, ← bareAll_eq, hbare, bareAll_eq, List.length_map]
      refine ⟨?_, ?_⟩
      · rw [List.length_range', hlength, hroot]
      · rw [← checkNames_bareAll, hbare, checkNames_bareAll, hnames]
    · exact walkNodes_sized htop hwalk p hp

theorem walkNodes_sized : ∀ {nodes nodes' : List ImageNode} {next next' d slot : Nat}
    {path : List CStr}, next ≤ total → walkNodes u total nodes next = .ok (nodes', next') →
    ∀ p ∈ placedIn u d slot path nodes', Sized u p.parent.isNone p.node
  | [], _, _, _, _, _, _, _, h, p, hp => by
    obtain ⟨rfl, -⟩ := walkNodes_nil h
    rw [placedIn] at hp
    cases hp
  | _ :: _, _, _, _, _, _, _, hnext, h, p, hp => by
    obtain ⟨node', n, rest', hnode, hrest, rfl⟩ := walkNodes_cons h
    rw [placedIn, List.mem_append] at hp
    rcases hp with hp | hp
    · exact walkNode_sized hnext Option.isNone_some hnode p hp
    · exact walkNodes_sized (walkNode_clusters hnext hnode).1 hrest p hp

end

end

end FunnyOS.Tools
