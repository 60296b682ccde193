import FunnyOS.Fat32.ClusterSpec
import FunnyOS.Fat32.LongNames
import FunnyOS.Lib.Ownership

/-!
# Who owns which cluster

`Cert g fat L D own` accounts for the clusters of a volume: `own` gives the root directory
and every live entry its chain, and no two of them share a cluster. `L` lists the live
entries by directory and slot number, `D` holds the directories. An operation goes through
states in which a chain belongs to no entry yet, or no more; such a chain is `pending`.
-/

namespace FunnyOS.Fat32

/-- Who a chain belongs to. -/
inductive Owner where
  | root
  | slot (directory index : Nat)
  | pending
  deriving DecidableEq

/-- Live entries by directory and slot number. -/
abbrev Entries := Nat → Nat → Option DirectoryEntry

/-- Replace one entry. -/
def Entries.put (L : Entries) (d i : Nat) (e : Option DirectoryEntry) : Entries :=
  fun d' i' => if d' = d ∧ i' = i then e else L d' i'

/-- The chain of an entry becomes pending. -/
def takeChain (own : Owner → List Nat) (d i : Nat) : Owner → List Nat :=
  transfer own (.slot d i) .pending

/-- The pending chain is given to an entry. -/
def giveChain (own : Owner → List Nat) (d i : Nat) : Owner → List Nat :=
  transfer own .pending (.slot d i)

/-- The chain `l` is what the entry says about its clusters. -/
structure EntryOk (g : Geometry) (fat : Nat → Nat) (e : DirectoryEntry) (l : List Nat) :
    Prop where
  chain : FileChain g fat e.entryFirstCluster l
  dir : e.isDirectory = true → l ≠ []
  file : e.isDirectory = false →
    (e.entryFirstCluster = 0 ↔ e.size = 0) ∧ clustersForSize g e.size ≤ l.length

/-- The account of all chains. -/
structure Cert (g : Geometry) (fat : Nat → Nat) (L : Entries) (D : Nat → Prop)
    (own : Owner → List Nat) : Prop where
  chain : ∀ o, own o ≠ [] → ∃ c, Chain g fat c (own o)
  disjoint : DisjointOwn own
  root : Chain g fat g.rootCluster (own .root)
  rootDir : D g.rootCluster
  entry : ∀ {d i e}, D d → L d i = some e → EntryOk g fat e (own (.slot d i))
  unused : ∀ {d i}, (D d → L d i = none) → own (.slot d i) = []
  closed : ∀ {d i e}, D d → L d i = some e → e.isDirectory = true → D e.entryFirstCluster
  dirs : ∀ {d}, D d → d = g.rootCluster ∨
    (∃ d' i e, D d' ∧ L d' i = some e ∧ e.isDirectory = true ∧ e.entryFirstCluster = d) ∨
    ∃ l, own .pending = d :: l

section

variable {g : Geometry} {fat fat' : Nat → Nat} {L L' : Entries} {D : Nat → Prop}
  {own : Owner → List Nat} {d d' i c first : Nat} {e : DirectoryEntry} {l new : List Nat}
  {o o' : Owner}

@[simp] theorem Entries.put_self {e : Option DirectoryEntry} : L.put d i e d i = e := by
  simp [Entries.put]

theorem Entries.put_other {e : Option DirectoryEntry} (h : ¬ (d' = d ∧ c = i)) :
    L.put d i e d' c = L d' c := if_neg h

theorem Entries.put_put {e e' : Option DirectoryEntry} :
    (L.put d i e).put d i e' = L.put d i e' := by
  funext d' j
  by_cases h : d' = d ∧ j = i
  · obtain ⟨rfl, rfl⟩ := h
    rw [Entries.put_self, Entries.put_self]
  · rw [Entries.put_other h, Entries.put_other h, Entries.put_other h]

@[simp] theorem updatePending_root : Function.update own .pending new .root = own .root := by
  simp [Function.update]

@[simp] theorem updatePending_slot :
    Function.update own .pending new (.slot d i) = own (.slot d i) := by
  simp [Function.update]

@[simp] theorem takeChain_pending : takeChain own d i .pending = own (.slot d i) := transfer_to

@[simp] theorem takeChain_slot : takeChain own d i (.slot d i) = [] := transfer_from nofun

@[simp] theorem takeChain_root : takeChain own d i .root = own .root := transfer_other nofun nofun

theorem takeChain_other (h : ¬ (d' = d ∧ c = i)) :
    takeChain own d i (.slot d' c) = own (.slot d' c) :=
  transfer_other (by simpa using h) nofun

@[simp] theorem giveChain_slot : giveChain own d i (.slot d i) = own .pending := transfer_to

@[simp] theorem giveChain_pending : giveChain own d i .pending = [] := transfer_from nofun

@[simp] theorem giveChain_root : giveChain own d i .root = own .root := transfer_other nofun nofun

theorem giveChain_other (h : ¬ (d' = d ∧ c = i)) :
    giveChain own d i (.slot d' c) = own (.slot d' c) :=
  transfer_other nofun (by simpa using h)

/-- An entry gets back a chain that was pending in between. -/
theorem giveChain_takeChain (h : own .pending = []) :
    giveChain (Function.update (takeChain own d i) .pending new) d i
      = Function.update own (.slot d i) new := by
  funext o
  by_cases ho : o = .slot d i
  · subst ho
    simp
  · rw [Function.update_of_ne ho]
    cases o with
    | root => simp
    | pending => simpa using h.symm
    | slot d' i' =>
      have hs : ¬ (d' = d ∧ i' = i) := by simpa using ho
      rw [giveChain_other hs, updatePending_slot, takeChain_other hs]

/-! ## Chains and their owners -/

theorem root_valid : g.isValidDataCluster g.rootCluster = true :=
  g.isValidDataCluster_iff.mpr ⟨g.rootCluster_ge, g.rootCluster_lt⟩

theorem FileChain.chain_of_ne_nil (h : FileChain g fat first l) (hl : l ≠ []) :
    Chain g fat first l := by
  rcases h with ⟨rfl, -⟩ | ⟨-, h⟩
  · exact absurd rfl hl
  · exact h

theorem FileChain.eq_nil_iff (h : FileChain g fat first l) : l = [] ↔ first = 0 := by
  rcases h with ⟨rfl, rfl⟩ | ⟨hl, h⟩
  · simp
  · have := (g.isValidDataCluster_iff.mp (h.head_valid hl)).1
    constructor
    · exact fun h0 => absurd h0 hl
    · omega

theorem FileChain.congr (h : FileChain g fat first l) (same : ∀ x ∈ l, fat' x = fat x) :
    FileChain g fat' first l := by
  rcases h with h | ⟨hl, h⟩
  · exact .inl h
  · exact .inr ⟨hl, h.congr same⟩

theorem EntryOk.congr (h : EntryOk g fat e l) (same : ∀ x ∈ l, fat' x = fat x) :
    EntryOk g fat' e l := ⟨h.chain.congr same, h.dir, h.file⟩

/-- The first cluster of a chain with clusters is the head of the list. -/
theorem Chain.eq_cons (h : Chain g fat c l) (hl : l ≠ []) : ∃ t, l = c :: t := by
  cases l with
  | nil => exact absurd rfl hl
  | cons x t => exact ⟨t, by rw [Linked.head h]⟩

theorem Chain.head_mem (h : Chain g fat c l) (hl : l ≠ []) : c ∈ l :=
  Linked.mem_self h hl

namespace Cert

theorem root_ne_nil (h : Cert g fat L D own) : own .root ≠ [] := h.root.ne_nil_of_valid root_valid

/-- A cluster that somebody owns is not free. -/
theorem fat_ne_zero (h : Cert g fat L D own) (hc : c ∈ own o) : fat c ≠ 0 := by
  obtain ⟨x, hx⟩ := h.chain o (List.ne_nil_of_mem hc)
  exact hx.fat_ne_zero c hc

/-- The chain of an entry that is a directory. -/
theorem dir_chain_of_entry (h : Cert g fat L D own) (hd : D d) (he : L d i = some e)
    (hdir : e.isDirectory = true) :
    Chain g fat e.entryFirstCluster (own (.slot d i)) ∧ own (.slot d i) ≠ [] := by
  have hok := h.entry hd he
  exact ⟨hok.chain.chain_of_ne_nil (hok.dir hdir), hok.dir hdir⟩

/-- Every directory has a chain that somebody owns. -/
theorem exists_owner (h : Cert g fat L D own) (hd : D d) :
    ∃ o, Chain g fat d (own o) ∧ own o ≠ [] := by
  rcases h.dirs hd with rfl | ⟨d', i, e, hd', he, hdir, rfl⟩ | ⟨l, hl⟩
  · exact ⟨.root, h.root, h.root_ne_nil⟩
  · exact ⟨.slot d' i, h.dir_chain_of_entry hd' he hdir⟩
  · have hne : own .pending ≠ [] := by simp [hl]
    obtain ⟨x, hx⟩ := h.chain .pending hne
    obtain ⟨t, ht⟩ := hx.eq_cons hne
    rw [hl] at ht
    obtain rfl : d = x := by simpa using (List.cons.inj ht).1
    exact ⟨.pending, hx, hne⟩

/-- The chain of a directory is what `clusterChain` computes. -/
theorem owner_of_dir (h : Cert g fat L D own) (hd : D d) :
    ∃ o, own o = clusterChain g fat d ∧ Chain g fat d (clusterChain g fat d) ∧
      clusterChain g fat d ≠ [] := by
  obtain ⟨o, ho, hne⟩ := h.exists_owner hd
  rw [ho.clusterChain_eq]
  exact ⟨o, rfl, ho, hne⟩

theorem dir_chain (h : Cert g fat L D own) (hd : D d) :
    Chain g fat d (clusterChain g fat d) ∧ clusterChain g fat d ≠ [] := by
  obtain ⟨o, -, h'⟩ := h.owner_of_dir hd
  exact h'

/-- Whoever owns a cluster of a directory owns the directory. -/
theorem owner_eq (h : Cert g fat L D own) (hd : D d) (hc : c ∈ own o)
    (hc' : c ∈ clusterChain g fat d) : own o = clusterChain g fat d := by
  obtain ⟨o', ho', -⟩ := h.owner_of_dir hd
  rw [h.disjoint o o' c hc (ho' ▸ hc'), ho']

/-- Two directories share no cluster. -/
theorem dirs_apart (h : Cert g fat L D own) (hd : D d) (hd' : D d') (hne : d ≠ d')
    (hc : c ∈ clusterChain g fat d) : c ∉ clusterChain g fat d' := by
  intro hc'
  obtain ⟨o, ho, hch, hnil⟩ := h.owner_of_dir hd
  obtain ⟨hch', hnil'⟩ := h.dir_chain hd'
  have heq := h.owner_eq hd' (o := o) (ho ▸ hc) hc'
  obtain ⟨t, ht⟩ := hch.eq_cons hnil
  obtain ⟨t', ht'⟩ := hch'.eq_cons hnil'
  rw [ho, ht, ht'] at heq
  exact hne (List.cons.inj heq).1

/-- A chain whose first cluster is no directory shares no cluster with one. -/
theorem owner_apart (h : Cert g fat L D own) (hd : D d) (hhead : ∀ t, own o ≠ d :: t)
    (hc : c ∈ own o) : c ∉ clusterChain g fat d := by
  intro hc'
  have heq := h.owner_eq hd hc hc'
  obtain ⟨hch, hnil⟩ := h.dir_chain hd
  obtain ⟨t, ht⟩ := hch.eq_cons hnil
  exact hhead t (heq.trans ht)

/-- Two entries with the same first cluster are one. -/
theorem entry_unique (h : Cert g fat L D own) {i' : Nat} {e' : DirectoryEntry} (hd : D d)
    (hd' : D d') (he : L d i = some e) (he' : L d' i' = some e') (h0 : e.entryFirstCluster ≠ 0)
    (hfirst : e'.entryFirstCluster = e.entryFirstCluster) : d' = d ∧ i' = i := by
  have hmem : ∀ {d i e}, D d → L d i = some e → e.entryFirstCluster ≠ 0 →
      e.entryFirstCluster ∈ own (.slot d i) := by
    intro d i e hd he h0
    have hok := (h.entry hd he).chain
    have hne : own (.slot d i) ≠ [] := fun hnil => h0 (hok.eq_nil_iff.mp hnil)
    exact (hok.chain_of_ne_nil hne).head_mem hne
  have h₁ := hmem hd he h0
  have h₂ := hmem hd' he' (hfirst ▸ h0)
  rw [hfirst] at h₂
  have := h.disjoint _ _ _ h₂ h₁
  simpa using this

/-- No entry names the root directory. -/
theorem entry_ne_root (h : Cert g fat L D own) (hd : D d) (he : L d i = some e) :
    e.entryFirstCluster ≠ g.rootCluster := by
  intro hroot
  have hok := (h.entry hd he).chain
  have hne : own (.slot d i) ≠ [] := by
    intro hnil
    have h0 := hok.eq_nil_iff.mp hnil
    have := g.rootCluster_ge
    omega
  have h₁ := (hok.chain_of_ne_nil hne).head_mem hne
  have h₂ := h.root.head_mem h.root_ne_nil
  rw [hroot] at h₁
  have := h.disjoint _ _ _ h₁ h₂
  simp at this

/-- An entry that names a directory is one: a file has another first cluster. -/
theorem isDirectory_of_first (h : Cert g fat L D own) (hempty : own .pending = []) (hd : D d)
    (he : L d i = some e) (hD : D e.entryFirstCluster) : e.isDirectory = true := by
  rcases h.dirs hD with hroot | ⟨d', i', e', hd', he', hdir', hfirst⟩ | ⟨l, hl⟩
  · exact absurd hroot (h.entry_ne_root hd he)
  · have h0 : e.entryFirstCluster ≠ 0 := by
      have hch := h.dir_chain_of_entry hd' he' hdir'
      have := (g.isValidDataCluster_iff.mp (hch.1.head_valid hch.2)).1
      omega
    obtain ⟨rfl, rfl⟩ := h.entry_unique hd hd' he he' h0 hfirst
    rw [he] at he'
    cases he'
    exact hdir'
  · rw [hempty] at hl
    simp at hl

/-! ## What an operation does to the account -/

/-- Only the entries of directories matter. -/
theorem congr (h : Cert g fat L D own) (hL : ∀ d, D d → ∀ i, L' d i = L d i) :
    Cert g fat L' D own where
  chain := h.chain
  disjoint := h.disjoint
  root := h.root
  rootDir := h.rootDir
  entry hd he := h.entry hd (hL _ hd _ ▸ he)
  unused hn := h.unused fun hd => hL _ hd _ ▸ hn hd
  closed hd he := h.closed hd (hL _ hd _ ▸ he)
  dirs hd := by
    rcases h.dirs hd with h' | ⟨d', i, e, hd', he, h'⟩ | h'
    · exact .inl h'
    · exact .inr (.inl ⟨d', i, e, hd', (hL d' hd' i).trans he, h'⟩)
    · exact .inr (.inr h')

/-- The links of the owned clusters stay. -/
theorem keep (h : Cert g fat L D own) (same : ∀ o, ∀ c ∈ own o, fat' c = fat c) :
    Cert g fat' L D own where
  chain o ho := by
    obtain ⟨c, hc⟩ := h.chain o ho
    exact ⟨c, hc.congr (same o)⟩
  disjoint := h.disjoint
  root := h.root.congr (same _)
  rootDir := h.rootDir
  entry hd he := (h.entry hd he).congr (same _)
  unused := h.unused
  closed := h.closed
  dirs := h.dirs

/-- The chain of one owner is changed. -/
theorem relink (h : Cert g fat L D own) (hr : Relinked g fat fat' (own o) new first)
    (hroot : o = .root → new ≠ [] ∧ first = g.rootCluster)
    (hslot : ∀ d i, o = .slot d i → (D d → L d i = none) → new = [])
    (hentry : ∀ d i e, o = .slot d i → D d → L d i = some e → EntryOk g fat' e new)
    (hpend : o = .pending → ∀ d l, own .pending = d :: l → D d → ∃ l', new = d :: l') :
    Cert g fat' L D (Function.update own o new) := by
  have keep : ∀ o', o' ≠ o → ∀ x ∈ own o', fat' x = fat x := by
    intro o' ho x hx
    exact hr.keep (fun hxo => ho (h.disjoint o' o x hx hxo)) (h.fat_ne_zero hx)
  have hnew : new ≠ [] → Chain g fat' first new := by
    rcases hr.chain with ⟨rfl, -⟩ | ⟨-, hch⟩
    · exact fun hne => absurd rfl hne
    · exact fun _ => hch
  constructor
  · intro o' hne
    by_cases ho : o' = o
    · subst ho
      rw [Function.update_self] at hne ⊢
      exact ⟨first, hnew hne⟩
    · rw [Function.update_of_ne ho] at hne ⊢
      obtain ⟨x, hx⟩ := h.chain o' hne
      exact ⟨x, hx.congr (keep o' ho)⟩
  · refine h.disjoint.update fun x hx => ?_
    by_cases hxo : x ∈ own o
    · exact .inl hxo
    · exact .inr fun p hp => h.fat_ne_zero hp (hr.fresh x hx hxo)
  · by_cases ho : o = .root
    · obtain ⟨hne, rfl⟩ := hroot ho
      rw [ho, Function.update_self]
      exact hnew hne
    · rw [Function.update_of_ne (Ne.symm ho)]
      exact h.root.congr (keep _ (Ne.symm ho))
  · exact h.rootDir
  · intro d i e hd he
    by_cases ho : o = .slot d i
    · rw [← ho, Function.update_self]
      exact hentry d i e ho hd he
    · rw [Function.update_of_ne (Ne.symm ho)]
      exact (h.entry hd he).congr (keep _ (Ne.symm ho))
  · intro d i hn
    by_cases ho : o = .slot d i
    · rw [← ho, Function.update_self]
      exact hslot d i ho hn
    · rw [Function.update_of_ne (Ne.symm ho)]
      exact h.unused hn
  · exact h.closed
  · intro d hd
    rcases h.dirs hd with h' | h' | ⟨l, hl⟩
    · exact .inl h'
    · exact .inr (.inl h')
    · refine .inr (.inr ?_)
      by_cases ho : o = .pending
      · rw [ho, Function.update_self]
        exact hpend ho d l hl hd
      · rw [Function.update_of_ne (Ne.symm ho)]
        exact ⟨l, hl⟩

/-- The pending chain of a file is changed. -/
theorem relinkPending (h : Cert g fat L D own)
    (hr : Relinked g fat fat' (own .pending) new first)
    (hfile : ∀ d l, own .pending = d :: l → ¬ D d) :
    Cert g fat' L D (Function.update own .pending new) := by
  refine h.relink hr ?_ ?_ ?_ ?_
  · exact nofun
  · exact nofun
  · exact nofun
  · exact fun _ d l hl hd => absurd hd (hfile d l hl)

/-- The pending chain of a file is given up without being freed. -/
theorem forget (h : Cert g fat L D own) (hfile : ∀ d l, own .pending = d :: l → ¬ D d) :
    Cert g fat L D (Function.update own .pending []) := by
  refine ⟨?_, h.disjoint.update (by simp), ?_, h.rootDir, ?_, ?_, h.closed, ?_⟩
  · intro o ho
    by_cases hp : o = .pending
    · rw [hp, Function.update_self] at ho
      exact absurd rfl ho
    · rw [Function.update_of_ne hp] at ho ⊢
      exact h.chain o ho
  · rw [updatePending_root]
    exact h.root
  · intro d i e hd he
    rw [updatePending_slot]
    exact h.entry hd he
  · intro d i hn
    rw [updatePending_slot]
    exact h.unused hn
  · intro d hd
    rcases h.dirs hd with h' | h' | ⟨l, hl⟩
    · exact .inl h'
    · exact .inr (.inl h')
    · exact absurd hd (hfile d l hl)

/-- A chain grows at its end. -/
theorem grow {more : List Nat} (h : Cert g fat L D own)
    (hr : Relinked g fat fat' (own o) (own o ++ more) first)
    (hch : Chain g fat first (own o)) (hne : own o ≠ []) :
    Cert g fat' L D (Function.update own o (own o ++ more)) := by
  have hne' : own o ++ more ≠ [] := by simp [hne]
  have hnew : Chain g fat' first (own o ++ more) := by
    rcases hr.chain with ⟨hnil, -⟩ | ⟨-, hch'⟩
    · exact absurd hnil hne'
    · exact hch'
  have head_eq : ∀ x, Chain g fat x (own o) → first = x := by
    intro x hx
    obtain ⟨t, ht⟩ := hch.eq_cons hne
    obtain ⟨t', ht'⟩ := hx.eq_cons hne
    rw [ht] at ht'
    exact (List.cons.inj ht').1
  refine h.relink hr ?_ ?_ ?_ ?_
  · rintro rfl
    exact ⟨hne', head_eq _ h.root⟩
  · rintro d i rfl hn
    exact absurd (h.unused hn) hne
  · rintro d i e rfl hd he
    have hok := h.entry hd he
    have hfirst := head_eq _ (hok.chain.chain_of_ne_nil hne)
    refine ⟨.inr ⟨hne', hfirst ▸ hnew⟩, fun _ => hne', fun hf => ?_⟩
    obtain ⟨h₁, h₂⟩ := hok.file hf
    exact ⟨h₁, by rw [List.length_append]; omega⟩
  · rintro rfl d l hl -
    exact ⟨l ++ more, by rw [hl]; rfl⟩

/-- Chains handed over from one owner to another. -/
theorem chain_transfer (h : Cert g fat L D own) (o o' : Owner) :
    ∀ p, transfer own o o' p ≠ [] → ∃ c, Chain g fat c (transfer own o o' p) := by
  intro p hp
  by_cases h₁ : p = o'
  · rw [h₁, transfer_to] at hp ⊢
    exact h.chain o hp
  · by_cases h₂ : p = o
    · rw [h₂] at h₁ hp
      rw [transfer_from h₁] at hp
      exact absurd rfl hp
    · rw [transfer_other h₂ h₁] at hp ⊢
      exact h.chain p hp

/-- An entry loses its chain: it becomes pending. -/
theorem take (h : Cert g fat L D own) (hempty : own .pending = []) (he : L d i = some e) :
    Cert g fat (L.put d i none) D (takeChain own d i) := by
  refine ⟨h.chain_transfer _ _, h.disjoint.transfer, ?_, h.rootDir, ?_, ?_, ?_, ?_⟩
  · rw [takeChain_root]
    exact h.root
  · intro d' i' e' hd' he'
    by_cases hs : d' = d ∧ i' = i
    · obtain ⟨rfl, rfl⟩ := hs
      simp at he'
    · rw [Entries.put_other hs] at he'
      rw [takeChain_other hs]
      exact h.entry hd' he'
  · intro d' i' hn
    by_cases hs : d' = d ∧ i' = i
    · obtain ⟨rfl, rfl⟩ := hs
      exact takeChain_slot
    · rw [takeChain_other hs]
      exact h.unused fun hd' => (Entries.put_other hs).symm.trans (hn hd')
  · intro d' i' e' hd' he'
    by_cases hs : d' = d ∧ i' = i
    · obtain ⟨rfl, rfl⟩ := hs
      simp at he'
    · rw [Entries.put_other hs] at he'
      exact h.closed hd' he'
  · intro d₀ hd₀
    rcases h.dirs hd₀ with h' | ⟨d', i', e', hd', he', hdir', rfl⟩ | ⟨l, hl⟩
    · exact .inl h'
    · by_cases hs : d' = d ∧ i' = i
      · obtain ⟨rfl, rfl⟩ := hs
        obtain ⟨hch, hne⟩ := h.dir_chain_of_entry hd' he' hdir'
        obtain ⟨t, ht⟩ := hch.eq_cons hne
        exact .inr (.inr ⟨t, by rw [takeChain_pending, ht]⟩)
      · exact .inr (.inl ⟨d', i', e', hd', by rw [Entries.put_other hs]; exact he', hdir', rfl⟩)
    · rw [hempty] at hl
      simp at hl

/-- The chain of a file does not start at a directory. -/
theorem file_head (h : Cert g fat L D own) (hempty : own .pending = []) (hd : D d)
    (he : L d i = some e) (hfile : e.isDirectory = false) :
    ∀ d' l, own (.slot d i) = d' :: l → ¬ D d' := by
  intro d' l hl hd'
  have hok := (h.entry hd he).chain
  have hch := hok.chain_of_ne_nil (by simp [hl])
  rw [hl] at hch
  have := h.isDirectory_of_first hempty hd he (by rw [Linked.head hch]; exact hd')
  rw [hfile] at this
  simp at this

/-- The pending chain is given to an entry. -/
theorem put (h : Cert g fat L D own) (hd : D d) (hnone : L d i = none)
    (hok : EntryOk g fat e (own .pending))
    (hclosed : e.isDirectory = true → D e.entryFirstCluster)
    (hfile : e.isDirectory = false → ∀ d' l, own .pending = d' :: l → ¬ D d') :
    Cert g fat (L.put d i (some e)) D (giveChain own d i) := by
  refine ⟨h.chain_transfer _ _, h.disjoint.transfer, ?_, h.rootDir, ?_, ?_, ?_, ?_⟩
  · rw [giveChain_root]
    exact h.root
  · intro d' i' e' hd' he'
    by_cases hs : d' = d ∧ i' = i
    · obtain ⟨rfl, rfl⟩ := hs
      rw [Entries.put_self] at he'
      cases he'
      rw [giveChain_slot]
      exact hok
    · rw [Entries.put_other hs] at he'
      rw [giveChain_other hs]
      exact h.entry hd' he'
  · intro d' i' hn
    by_cases hs : d' = d ∧ i' = i
    · obtain ⟨rfl, rfl⟩ := hs
      have := hn hd
      simp at this
    · rw [giveChain_other hs]
      exact h.unused fun hd' => (Entries.put_other hs).symm.trans (hn hd')
  · intro d' i' e' hd' he'
    by_cases hs : d' = d ∧ i' = i
    · obtain ⟨rfl, rfl⟩ := hs
      rw [Entries.put_self] at he'
      cases he'
      exact hclosed
    · rw [Entries.put_other hs] at he'
      exact h.closed hd' he'
  · intro d₀ hd₀
    rcases h.dirs hd₀ with h' | ⟨d', i', e', hd', he', hdir', rfl⟩ | ⟨l, hl⟩
    · exact .inl h'
    · by_cases hs : d' = d ∧ i' = i
      · obtain ⟨rfl, rfl⟩ := hs
        rw [hnone] at he'
        simp at he'
      · exact .inr (.inl ⟨d', i', e', hd', by rw [Entries.put_other hs]; exact he', hdir', rfl⟩)
    · refine .inr (.inl ⟨d, i, e, hd, Entries.put_self, ?_, ?_⟩)
      · by_contra hf
        exact hfile (by simpa using hf) d₀ l hl hd₀
      · have hch := hok.chain.chain_of_ne_nil (by simp [hl])
        rw [hl] at hch
        exact Linked.head hch

/-- A pending chain becomes that of a directory without entries. -/
theorem addDir (h : Cert g fat L D own) (hp : own .pending = d :: l) (hnone : ∀ i, L d i = none) :
    Cert g fat L (fun d' => D d' ∨ d' = d) own where
  chain := h.chain
  disjoint := h.disjoint
  root := h.root
  rootDir := .inl h.rootDir
  entry := by
    rintro d' i' e' (hd' | rfl) he'
    · exact h.entry hd' he'
    · rw [hnone] at he'
      simp at he'
  unused := by
    intro d' i' hn
    exact h.unused fun hd' => hn (.inl hd')
  closed := by
    rintro d' i' e' (hd' | rfl) he' hdir
    · exact .inl (h.closed hd' he' hdir)
    · rw [hnone] at he'
      simp at he'
  dirs := by
    rintro d' (hd' | rfl)
    · rcases h.dirs hd' with h' | ⟨d₁, i₁, e₁, hd₁, h'⟩ | h'
      · exact .inl h'
      · exact .inr (.inl ⟨d₁, i₁, e₁, .inl hd₁, h'⟩)
      · exact .inr (.inr h')
    · exact .inr (.inr ⟨l, hp⟩)

/-- A directory without entries whose chain is pending is given up. -/
theorem removeDir (h : Cert g fat L D own) (hp : own .pending = d :: l) (hnone : ∀ i, L d i = none) :
    Cert g fat L (fun d' => D d' ∧ d' ≠ d) own := by
  have hmem : d ∈ own .pending := by simp [hp]
  have hroot : g.rootCluster ≠ d := by
    intro hr
    have := h.disjoint _ _ _ (hr ▸ h.root.head_mem h.root_ne_nil) hmem
    simp at this
  have hnamed : ∀ {d' i' e'}, D d' → L d' i' = some e' → e'.isDirectory = true →
      e'.entryFirstCluster ≠ d := by
    rintro d' i' e' hd' he' hdir rfl
    obtain ⟨hch, hne⟩ := h.dir_chain_of_entry hd' he' hdir
    have := h.disjoint _ _ _ (hch.head_mem hne) hmem
    simp at this
  refine ⟨h.chain, h.disjoint, h.root, ⟨h.rootDir, hroot⟩, ?_, ?_, ?_, ?_⟩
  · exact fun hd' he' => h.entry hd'.1 he'
  · intro d' i' hn
    refine h.unused fun hd' => ?_
    by_cases hne : d' = d
    · rw [hne]
      exact hnone i'
    · exact hn ⟨hd', hne⟩
  · exact fun hd' he' hdir => ⟨h.closed hd'.1 he' hdir, hnamed hd'.1 he' hdir⟩
  · rintro d' ⟨hd', hne⟩
    rcases h.dirs hd' with h' | ⟨d₁, i₁, e₁, hd₁, he₁, h'⟩ | h'
    · exact .inl h'
    · refine .inr (.inl ⟨d₁, i₁, e₁, ⟨hd₁, ?_⟩, he₁, h'⟩)
      rintro rfl
      rw [hnone] at he₁
      simp at he₁
    · exact .inr (.inr h')

/-- Who can own the chain of a directory. -/
theorem owner_of_dir_cases (h : Cert g fat L D own) (hd : D d) (ho : own o = clusterChain g fat d) :
    o = .root ∨ o = .pending ∨
      ∃ d' i e, o = .slot d' i ∧ D d' ∧ L d' i = some e ∧ e.isDirectory = true := by
  obtain ⟨hch, hne⟩ := h.dir_chain hd
  have hmem : d ∈ own o := ho ▸ hch.head_mem hne
  rcases h.dirs hd with rfl | ⟨d', i, e, hd', he, hdir, rfl⟩ | ⟨l, hl⟩
  · exact .inl (h.disjoint _ _ _ hmem (h.root.head_mem h.root_ne_nil))
  · obtain ⟨hch', hne'⟩ := h.dir_chain_of_entry hd' he hdir
    exact .inr (.inr ⟨d', i, e, h.disjoint _ _ _ hmem (hch'.head_mem hne'), hd', he, hdir⟩)
  · exact .inr (.inl (h.disjoint _ _ _ hmem (by simp [hl])))

end Cert

/-! ## Accounts without waste -/

/-- Every cluster in use is owned, and a file has no more clusters than its size needs. -/
structure Tight (g : Geometry) (fat : Nat → Nat) (L : Entries) (D : Nat → Prop)
    (own : Owner → List Nat) : Prop where
  full : ∀ c, g.isValidDataCluster c = true → fat c ≠ 0 → ∃ o, c ∈ own o
  exact : ∀ {d i e}, D d → L d i = some e → e.isDirectory = false →
    (own (.slot d i)).length = clustersForSize g e.size

namespace Tight

theorem congr (h : Tight g fat L D own) (hL : ∀ d, D d → ∀ i, L' d i = L d i) :
    Tight g fat L' D own := ⟨h.full, fun hd he => h.exact hd (hL _ hd _ ▸ he)⟩

/-- A chain is changed that does not belong to the entry of a file. -/
theorem relink (h : Tight g fat L D own) (hr : Relinked g fat fat' (own o) new first)
    (hkind : ∀ d i e, o = .slot d i → D d → L d i = some e → e.isDirectory = true) :
    Tight g fat' L D (Function.update own o new) where
  full c hv h0 := by
    by_cases hn : c ∈ new
    · exact ⟨o, by rwa [Function.update_self]⟩
    · by_cases hold : c ∈ own o
      · exact absurd (hr.freed c hold hn) h0
      · obtain ⟨p, hp⟩ := h.full c hv (hr.frame c hold hn ▸ h0)
        refine ⟨p, ?_⟩
        rwa [Function.update_of_ne (show p ≠ o from fun hpo => hold (hpo ▸ hp))]
  exact := by
    intro d i e hd he hfile
    have ho : .slot d i ≠ o := by
      intro ho
      have := hkind d i e ho.symm hd he
      simp [hfile] at this
    rw [Function.update_of_ne ho]
    exact h.exact hd he hfile

/-- The links of one chain are rewritten without a change of its clusters. -/
theorem keep (h : Tight g fat L D own) (hr : Relinked g fat fat' (own o) (own o) first) :
    Tight g fat' L D own where
  full c hv h0 := by
    by_cases hc : c ∈ own o
    · exact ⟨o, hc⟩
    · exact h.full c hv (hr.frame c hc hc ▸ h0)
  exact := h.exact

theorem take (h : Tight g fat L D own) (hempty : own .pending = []) :
    Tight g fat (L.put d i none) D (takeChain own d i) where
  full c hv h0 := by
    obtain ⟨p, hp⟩ := h.full c hv h0
    exact exists_mem_transfer hempty hp
  exact := by
    intro d' i' e hd he hfile
    by_cases hs : d' = d ∧ i' = i
    · obtain ⟨rfl, rfl⟩ := hs
      simp at he
    · rw [Entries.put_other hs] at he
      rw [takeChain_other hs]
      exact h.exact hd he hfile

theorem put (h : Tight g fat L D own) (hempty : own (.slot d i) = [])
    (hlen : e.isDirectory = false → (own .pending).length = clustersForSize g e.size) :
    Tight g fat (L.put d i (some e)) D (giveChain own d i) where
  full c hv h0 := by
    obtain ⟨p, hp⟩ := h.full c hv h0
    exact exists_mem_transfer hempty hp
  exact := by
    intro d' i' e' hd he hfile
    by_cases hs : d' = d ∧ i' = i
    · obtain ⟨rfl, rfl⟩ := hs
      rw [Entries.put_self] at he
      cases he
      rw [giveChain_slot]
      exact hlen hfile
    · rw [Entries.put_other hs] at he
      rw [giveChain_other hs]
      exact h.exact hd he hfile

theorem addDir (h : Tight g fat L D own) (hnone : ∀ i, L d i = none) :
    Tight g fat L (fun d' => D d' ∨ d' = d) own where
  full := h.full
  exact := by
    rintro d' i e (hd | rfl) he hfile
    · exact h.exact hd he hfile
    · rw [hnone] at he
      simp at he

theorem mono {D' : Nat → Prop} (h : Tight g fat L D own) (hD : ∀ d, D' d → D d) :
    Tight g fat L D' own := ⟨h.full, fun hd => h.exact (hD _ hd)⟩

end Tight

end

end FunnyOS.Fat32
