import FunnyOS.Fat32.Account
import FunnyOS.Fat32.LongNameSets

/-!
# Well-formed volumes

`WellFormed g v` says in terms of the FAT and the slots alone when the volume `v` is well formed:
the live entries of the directories that are reachable from the root have disjoint finite chains
that are long enough for their sizes, the directories form a tree, and the slots of every directory
are in order. Such a volume has an account (`WellFormed.sound`), and a volume with an account
whose directories are in order is well formed (`Sound.wellFormed`).
-/

namespace FunnyOS.Fat32

/-! ## Reachable directories -/

/-- The directories that are reached from `root` through the entries `L`. -/
inductive Reach (L : Entries) (root : Nat) : Nat → Prop
  | root : Reach L root root
  | step {d i : Nat} {e : DirectoryEntry} (parent : Reach L root d) (entry : L d i = some e)
      (dir : e.isDirectory = true) : Reach L root e.entryFirstCluster

/-- The directories of a volume. -/
def Reachable (g : Geometry) (v : Volume) : Nat → Prop := Reach (liveEntries g v) g.rootCluster

section

variable {L L' : Entries} {root d d' i : Nat}

/-- More entries reach more. -/
theorem Reach.mono (h : Reach L root d)
    (hL : ∀ d i e, Reach L root d → L d i = some e → e.isDirectory = true →
      ∃ i' e', L' d i' = some e' ∧ e'.isDirectory = true ∧
        e'.entryFirstCluster = e.entryFirstCluster) : Reach L' root d := by
  induction h with
  | root => exact .root
  | step parent entry dir ih =>
    obtain ⟨i', e', he', hdir', hfirst⟩ := hL _ _ _ parent entry dir
    exact hfirst ▸ ih.step he' hdir'

/-- Only the entries of the directories reached matter. -/
theorem Reach.congr (hL : ∀ d, Reach L root d → ∀ i, L' d i = L d i) :
    Reach L' root d ↔ Reach L root d := by
  constructor
  · intro h
    induction h with
    | root => exact .root
    | step _ entry dir ih => exact ih.step (hL _ ih _ ▸ entry) dir
  · intro h
    exact h.mono fun d i e hd he hdir => ⟨i, e, (hL d hd i).trans he, hdir, rfl⟩

end

/-! ## The definition -/

/-- Entry `e` is live in slot `i` of the directory `d` of the volume. -/
def LiveIn (g : Geometry) (v : Volume) (d i : Nat) (e : DirectoryEntry) : Prop :=
  Reachable g v d ∧ liveEntries g v d i = some e

/-- Cluster `c` lies on the chain of the root or of a live entry. -/
inductive OnChain (g : Geometry) (v : Volume) (c : Nat) : Owner → Prop
  | root (mem : c ∈ clusterChain g v.fat g.rootCluster) : OnChain g v c .root
  | slot {d i : Nat} {e : DirectoryEntry} (live : LiveIn g v d i e)
      (mem : c ∈ clusterChain g v.fat e.entryFirstCluster) : OnChain g v c (.slot d i)

/-- A well-formed mounted volume. -/
structure WellFormed (g : Geometry) (v : Volume) : Prop where
  mounted : v.mounted = true
  root : ∃ l, l ≠ [] ∧ Chain g v.fat g.rootCluster l
  dirs : ∀ {d i e}, LiveIn g v d i e → e.isDirectory = true →
    ∃ l, l ≠ [] ∧ Chain g v.fat e.entryFirstCluster l
  files : ∀ {d i e}, LiveIn g v d i e → e.isDirectory = false →
    (e.entryFirstCluster = 0 ↔ e.size = 0) ∧ (e.entryFirstCluster ≠ 0 →
      ∃ l, l ≠ [] ∧ Chain g v.fat e.entryFirstCluster l ∧ clustersForSize g e.size ≤ l.length)
  disjoint : ∀ {c o o'}, OnChain g v c o → OnChain g v c o' → o = o'
  tree : ∀ {d i e}, LiveIn g v d i e → e.isDirectory = true →
    e.entryFirstCluster ≠ g.rootCluster ∧ ∀ {d' i' e'}, LiveIn g v d' i' e' →
      e'.isDirectory = true → e'.entryFirstCluster = e.entryFirstCluster → d' = d ∧ i' = i
  slots : ∀ {d}, Reachable g v d → Orderly (dirEntries g v d)

section

variable {ok : List DirectoryEntry → Prop} {g : Geometry} {v v' : Volume}
  {D : Nat → Prop} {own : Owner → List Nat} {d i c : Nat} {e : DirectoryEntry} {o : Owner}

theorem clusterChain_invalid {fat : Nat → Nat} (h : g.isValidDataCluster c = false) :
    clusterChain g fat c = [] := by
  unfold clusterChain
  cases g.totalClusters with
  | zero => rfl
  | succ n => rw [walkClusters, if_neg (by simp [h])]

theorem clusterChain_zero {fat : Nat → Nat} : clusterChain g fat 0 = [] :=
  clusterChain_invalid (by simp [Geometry.isValidDataCluster])

/-! ## From an account -/

/-- Every reachable directory is in the account. -/
theorem Account.reachable (h : Account ok g v (liveEntries g v) D own) (hd : Reachable g v d) :
    D d := by
  induction hd with
  | root => exact h.cert.rootDir
  | step _ entry dir ih => exact h.cert.closed ih entry dir

/-- The chain of a live entry is the one that the account gives it. -/
theorem Account.chain_eq (h : Account ok g v (liveEntries g v) D own) (hd : D d)
    (he : liveEntries g v d i = some e) :
    own (.slot d i) = clusterChain g v.fat e.entryFirstCluster := by
  rcases (h.cert.entry hd he).chain with ⟨hnil, h0⟩ | ⟨-, hch⟩
  · rw [hnil, h0, clusterChain_zero]
  · exact hch.clusterChain_eq.symm

theorem Account.mem_own (h : Account ok g v (liveEntries g v) D own) (hc : OnChain g v c o) :
    c ∈ own o := by
  cases hc with
  | root mem => rwa [h.cert.root.clusterChain_eq] at mem
  | slot live mem => rwa [h.chain_eq (h.reachable live.1) live.2]

/-- The directories of a volume with an account form a tree. -/
theorem Sound.tree (h : Sound ok g v D own) (he : LiveIn g v d i e) (hdir : e.isDirectory = true) :
    e.entryFirstCluster ≠ g.rootCluster ∧ ∀ {d' i' e'}, LiveIn g v d' i' e' →
      e'.isDirectory = true → e'.entryFirstCluster = e.entryFirstCluster → d' = d ∧ i' = i := by
  refine ⟨h.cert.entry_ne_root (h.reachable he.1) he.2, fun {d' i' e'} he' _ heq => ?_⟩
  refine h.cert.entry_unique (h.reachable he.1) (h.reachable he'.1) he.2 he'.2 ?_ heq
  obtain ⟨hch, hne⟩ := h.cert.dir_chain_of_entry (h.reachable he.1) he.2 hdir
  have := (g.isValidDataCluster_iff.mp (hch.head_valid hne)).1
  omega

/-- A volume with an account is well formed if the slots of its directories are in order. -/
theorem Sound.wellFormed (h : Sound ok g v D own)
    (hslots : ∀ d, Reachable g v d → Orderly (dirEntries g v d)) : WellFormed g v where
  mounted := h.mounted
  root := ⟨own .root, h.cert.root_ne_nil, h.cert.root⟩
  dirs {d i e} he hdir := by
    obtain ⟨hch, hne⟩ := h.cert.dir_chain_of_entry (h.reachable he.1) he.2 hdir
    exact ⟨_, hne, hch⟩
  files {d i e} he hfile := by
    have hok := h.cert.entry (h.reachable he.1) he.2
    obtain ⟨hzero, hlong⟩ := hok.file hfile
    refine ⟨hzero, fun h0 => ?_⟩
    rcases hok.chain with ⟨-, hfirst⟩ | ⟨hne, hch⟩
    · exact absurd hfirst h0
    · exact ⟨_, hne, hch, hlong⟩
  disjoint hc hc' := h.cert.disjoint _ _ _ (h.mem_own hc) (h.mem_own hc')
  tree he hdir := h.tree he hdir
  slots {d} hd := hslots d hd

/-! ## An account -/

open Classical in
/-- The chains of a volume by owner. -/
noncomputable def owners (g : Geometry) (v : Volume) : Owner → List Nat
  | .root => clusterChain g v.fat g.rootCluster
  | .slot d i =>
    if Reachable g v d then
      match liveEntries g v d i with
      | some e => clusterChain g v.fat e.entryFirstCluster
      | none => []
    else []
  | .pending => []

theorem owners_slot (he : LiveIn g v d i e) :
    owners g v (.slot d i) = clusterChain g v.fat e.entryFirstCluster := by
  simp only [owners, if_pos he.1, he.2]

theorem mem_owners : c ∈ owners g v o ↔ OnChain g v c o := by
  constructor
  · intro hc
    rcases o with _ | ⟨d, i⟩ | _
    · exact .root hc
    · by_cases hd : Reachable g v d
      · cases he : liveEntries g v d i with
        | none => simp [owners, he] at hc
        | some e => exact .slot ⟨hd, he⟩ (owners_slot ⟨hd, he⟩ ▸ hc)
      · simp [owners, hd] at hc
    · simp [owners] at hc
  · intro hc
    cases hc with
    | root mem => exact mem
    | slot live mem => rwa [owners_slot live]

/-- Where there is no entry there is no chain. -/
theorem owners_unused (h : Reachable g v d → liveEntries g v d i = none) :
    owners g v (.slot d i) = [] := by
  refine List.eq_nil_iff_forall_not_mem.mpr fun c hc => ?_
  cases mem_owners.mp hc with
  | slot live _ => cases (h live.1).symm.trans live.2

/-- A reachable directory is the root or has an entry in another one. -/
theorem Reachable.dirs (h : Reachable g v d) : d = g.rootCluster ∨
    (∃ d' i e, Reachable g v d' ∧ liveEntries g v d' i = some e ∧ e.isDirectory = true ∧
      e.entryFirstCluster = d) ∨ ∃ l, owners g v .pending = d :: l := by
  cases h with
  | root => exact .inl rfl
  | step parent entry dir => exact .inr (.inl ⟨_, _, _, parent, entry, dir, rfl⟩)

/-- An account of the reachable directories, where what the others own is forgotten. -/
theorem Account.sound_reachable (h : Account ok g v (liveEntries g v) D own) :
    Sound ok g v (Reachable g v) (owners g v) := by
  have hroot : owners g v .root = own .root := h.cert.root.clusterChain_eq
  have hslot : ∀ {d i e}, Reachable g v d → liveEntries g v d i = some e →
      owners g v (.slot d i) = own (.slot d i) := fun hd he =>
    (owners_slot ⟨hd, he⟩).trans (h.chain_eq (h.reachable hd) he).symm
  refine ⟨⟨h.mounted, ⟨?_, ?_, hroot ▸ h.cert.root, .root, ?_, owners_unused,
    fun hd he hdir => hd.step he hdir, Reachable.dirs⟩, fun hd => h.tidy (h.reachable hd)⟩, rfl⟩
  · intro o ho
    obtain ⟨c, hc⟩ := List.exists_mem_of_ne_nil _ ho
    cases mem_owners.mp hc with
    | root _ => exact ⟨_, hroot ▸ h.cert.root⟩
    | slot live _ =>
      rw [hslot live.1 live.2] at ho ⊢
      exact h.cert.chain _ ho
  · intro o o' c hc hc'
    exact h.cert.disjoint _ _ _ (h.mem_own (mem_owners.mp hc)) (h.mem_own (mem_owners.mp hc'))
  · intro d i e hd he
    rw [hslot hd he]
    exact h.cert.entry (h.reachable hd) he

/-- A well-formed volume has an account. -/
theorem WellFormed.sound (h : WellFormed g v) :
    Sound (Tidy SlotTidy) g v (Reachable g v) (owners g v) := by
  have hroot : Chain g v.fat g.rootCluster (owners g v .root) := by
    obtain ⟨l, -, hch⟩ := h.root
    rw [owners, hch.clusterChain_eq]
    exact hch
  have hentry : ∀ {d i e}, Reachable g v d → liveEntries g v d i = some e →
      EntryOk g v.fat e (owners g v (.slot d i)) := by
    intro d i e hd he
    rw [owners_slot ⟨hd, he⟩]
    cases hdir : e.isDirectory with
    | true =>
      obtain ⟨l, hne, hch⟩ := h.dirs ⟨hd, he⟩ hdir
      rw [hch.clusterChain_eq]
      exact ⟨.inr ⟨hne, hch⟩, fun _ => hne, by simp [hdir]⟩
    | false =>
      obtain ⟨hzero, hchain⟩ := h.files ⟨hd, he⟩ hdir
      by_cases h0 : e.entryFirstCluster = 0
      · rw [h0, clusterChain_zero]
        refine ⟨.inl ⟨rfl, h0⟩, by simp [hdir], fun _ => ⟨hzero, ?_⟩⟩
        rw [hzero.mp h0]
        exact Nat.le_of_eq (if_pos rfl)
      · obtain ⟨l, hne, hch, hlong⟩ := hchain h0
        rw [hch.clusterChain_eq]
        exact ⟨.inr ⟨hne, hch⟩, by simp [hdir], fun _ => ⟨hzero, hlong⟩⟩
  refine ⟨⟨h.mounted, ⟨?_, ?_, hroot, .root, hentry, owners_unused,
    fun hd he hdir => hd.step he hdir, Reachable.dirs⟩, fun hd => (h.slots hd).tidy⟩, rfl⟩
  · intro o ho
    rcases o with _ | ⟨d, i⟩ | _
    · exact ⟨_, hroot⟩
    · obtain ⟨c, hc⟩ := List.exists_mem_of_ne_nil _ ho
      have hon := mem_owners.mp hc
      cases hon with
      | slot live _ => exact ⟨_, (hentry live.1 live.2).chain.chain_of_ne_nil ho⟩
    · exact absurd rfl ho
  · intro o o' c hc hc'
    exact h.disjoint (mem_owners.mp hc) (mem_owners.mp hc')

/-- The same with every long name decodable. -/
theorem WellFormed.sound_strict (h : WellFormed g v)
    (hdec : ∀ d, Reachable g v d → Decodable (dirEntries g v d)) :
    Sound (Tidy SlotStrict) g v (Reachable g v) (owners g v) :=
  ⟨⟨h.mounted, h.sound.cert, fun hd => tidy_slotStrict.mpr ⟨h.slots hd, hdec _ hd⟩⟩, rfl⟩

/-- An account with strict slots is all that a well-formed volume needs. -/
theorem Sound.wellFormed_of_strict (h : Sound (Tidy SlotStrict) g v D own) :
    WellFormed g v ∧ ∀ d, Reachable g v d → Decodable (dirEntries g v d) :=
  ⟨h.wellFormed fun _ hd => (tidy_slotStrict.mp (h.tidy (h.reachable hd))).1,
    fun _ hd => (tidy_slotStrict.mp (h.tidy (h.reachable hd))).2⟩

end

end FunnyOS.Fat32
