import FunnyOS.Fat32.Listing

/-!
# What a call leaves as it is

`Frame g v v' D changed X`: from the volume `v` to the volume `v'` only the entries of the names
`changed` are other ones, and of the clusters in use only those in `X`. A canonical path that does
not lead through a changed name resolves as before, and what lies behind it is as before too.
-/

namespace FunnyOS.Fat32

open Prog

/-! ## Lookups in a list that changes -/

section

variable {ok : List DirectoryEntry → Prop} {es es' : List DirectoryEntry} {it it' : Item}
  {n name : CStr}

/-- A name that is not the one of the entry. -/
theorem nameEquals_other (hnamed : nameEqualsIgnoreCase it.name name = true)
    (hname : name.map kToupper = name) (hn : n.map kToupper = n) (hne : n ≠ name) :
    nameEqualsIgnoreCase it.name n = false := by
  rw [← Bool.not_eq_true]
  intro heq
  exact hne (eq_of_nameEquals heq hnamed hn hname)

theorem lookup_added (h : ItemAdded es es' it) (hn : nameEqualsIgnoreCase it.name n = false) :
    lookup es' n = lookup es n := by
  obtain ⟨a, b, hab, hab'⟩ := h
  rw [lookup, lookup, hab, hab', List.find?_append, List.find?_append, List.find?_cons, hn]

theorem lookup_added_self (h : ItemAdded es es' it) (hnone : lookup es n = none)
    (hn : nameEqualsIgnoreCase it.name n = true) : lookup es' n = some it := by
  obtain ⟨a, b, hab, hab'⟩ := h
  rw [lookup, hab, List.find?_append, Option.or_eq_none_iff] at hnone
  rw [lookup, hab', List.find?_append, hnone.1, Option.none_or, List.find?_cons, hn]

theorem lookup_removed (h : ItemRemoved es es' it)
    (hn : nameEqualsIgnoreCase it.name n = false) : lookup es' n = lookup es n := by
  obtain ⟨a, b, hab, hab'⟩ := h
  rw [lookup, lookup, hab, hab', List.find?_append, List.find?_append, List.find?_cons, hn]

/-- Where the names differ, a removed entry is not found again. -/
theorem lookup_removed_self (h : ItemRemoved es es' it) (huniq : UniqueNames es)
    (hn : nameEqualsIgnoreCase it.name n = true) : lookup es' n = none := by
  obtain ⟨a, b, hab, hab'⟩ := h
  unfold UniqueNames at huniq
  rw [hab, List.pairwise_append, List.pairwise_cons] at huniq
  obtain ⟨-, ⟨hb, -⟩, ha⟩ := huniq
  rw [lookup, List.find?_eq_none, hab']
  intro x hx heq
  have hsame : nameEqualsIgnoreCase it.name x.name = true :=
    nameEqualsIgnoreCase_trans hn (nameEqualsIgnoreCase_comm.trans heq)
  rcases List.mem_append.mp hx with hx | hx
  · have hne := ha x hx it List.mem_cons_self
    rw [nameEqualsIgnoreCase_comm, hsame] at hne
    cases hne
  · have hne := hb x hx
    rw [hsame] at hne
    cases hne

/-- An entry that keeps its name is found as before. -/
theorem lookup_replaced (h : ItemReplaced es es' it it') (hname : it'.name = it.name)
    (hn : nameEqualsIgnoreCase it.name n = false) : lookup es' n = lookup es n := by
  obtain ⟨a, b, hab, hab'⟩ := h
  have hn' : nameEqualsIgnoreCase it'.name n = false := by
    rw [hname]
    exact hn
  rw [lookup, lookup, hab, hab', List.find?_append, List.find?_append, List.find?_cons,
    List.find?_cons, hn, hn']

end

/-! ## Frames -/

/-- The entries under each name are the same except under the `changed` names, directories without
such names are the same, and clusters in use that are not in `X`. -/
structure Frame (g : Geometry) (v v' : Volume) (D : Nat → Prop) (changed : Nat → CStr → Prop)
    (X : Nat → Prop) : Prop where
  lookups : SameLookups g v v' D changed
  dirs : SameDirs g v v' (fun d => D d ∧ ∀ n, ¬ changed d n)
  preserved : Preserved v v' X

/-- The path does not lead through a changed name. -/
def Avoids (g : Geometry) (v : Volume) (changed : Nat → CStr → Prop) (cs : List CStr) : Prop :=
  ∀ a n rest r, cs = a ++ n :: rest → resolve g v a = .ok r → isDir r = true →
    ¬ changed (dirCluster g r) n

section

variable {ok : List DirectoryEntry → Prop} {g : Geometry} {v v' : Volume}
  {D D' : Nat → Prop} {own own' : Owner → List Nat} {changed : Nat → CStr → Prop}
  {X : Nat → Prop} {path : CStr} {cs a b : List CStr} {e : DirectoryEntry} {l : List Nat}
  {r : Option DirectoryEntry} {n : CStr} {it it' : Item} {d i : Nat}

/-- Paths that do not lead through the name `n` of the directory `a` avoid it. -/
theorem Sound.avoids (h : Sound ok g v D own) (hr : resolve g v a = .ok r) (hd : isDir r = true)
    (ha : ∀ c ∈ a, c.map kToupper = c) (hb : ∀ c ∈ b, c.map kToupper = c)
    (hnot : ¬ (a ++ [n]) <+: b) : Avoids g v (fun x m => x = dirCluster g r ∧ m = n) b :=
  fun _ _ _ _ hsplit hr' hd' => h.not_through hr hd ha hb hnot hsplit hr' hd'

theorem Frame.resolve_eq (hf : Frame g v v' D changed X) (h : Sound ok g v D own)
    (hup : ∀ c ∈ cs, c.map kToupper = c) (hcs : Avoids g v changed cs) :
    resolve g v' cs = resolve g v cs := h.resolve_frame hf.lookups hup hcs

/-- `fat32_stat` answers as before. -/
theorem Frame.statAt_eq (hf : Frame g v v' D changed X) (h : Sound ok g v D own)
    (hp : Canonical path cs) (hcs : Avoids g v changed cs) : statAt g v' path = statAt g v path := by
  rw [statAt, statAt, hp.splitComponents_eq,
    hf.resolve_eq h (fun c hc => (hp.components c hc).upper) hcs]

/-- A directory without changed names is listed as before. -/
theorem Frame.listing_eq (hf : Frame g v v' D changed X) (h : Sound ok g v D own)
    (hp : Canonical path cs) (hcs : Avoids g v changed cs)
    (hsame : ∀ r, resolve g v cs = .ok r → isDir r = true → ∀ n, ¬ changed (dirCluster g r) n) :
    listing g v' path = listing g v path := by
  rw [listing, listing, hp.splitComponents_eq,
    hf.resolve_eq h (fun c hc => (hp.components c hc).upper) hcs]
  rcases hr : resolve g v cs with e | r
  · rfl
  · by_cases hd : isDir r = true
    · simp only [hd, if_true]
      rw [(hf.dirs _ ⟨h.dir_of_resolve hr hd, hsame r hr hd⟩).2]
    · simp only [hd]
      rfl

/-- A file whose clusters stay as they are keeps its content. -/
theorem Preserved.fileContent (h : Preserved v v' X) (hfc : FileChain g v.fat e.entryFirstCluster l)
    (hX : ∀ c ∈ l, ¬ X c) : fileContent g v' e = fileContent g v e := by
  rcases hfc with ⟨rfl, h0⟩ | ⟨hne, hch⟩
  · rw [Fat32.fileContent, Fat32.fileContent, h0, clusterChain_zero, clusterChain_zero]
    split
    · rename_i hsize
      rw [chainContent_congr hsize (by simp)]
    · rfl
  · have hch' := h.chain hch hX
    rw [Fat32.fileContent, Fat32.fileContent, hch.clusterChain_eq, hch'.clusterChain_eq]
    split
    · rename_i hsize
      rw [chainContent_congr hsize (h.chain_data hch hX)]
    · rfl

/-- `fat32_read_file` answers as before for a file whose clusters stay as they are. -/
theorem Frame.contents_eq (hf : Frame g v v' D changed X) (h : Sound ok g v D own)
    (hp : Canonical path cs) (hcs : Avoids g v changed cs)
    (hfile : ∀ a n r it, cs = a ++ [n] → resolve g v a = .ok r → isDir r = true →
      lookup (dirEntries g v (dirCluster g r)) n = some it → it.entry.isDirectory = false →
      ∀ c ∈ own (.slot (dirCluster g r) it.index), ¬ X c) :
    contents g v' path = contents g v path := by
  rw [contents, contents, hp.splitComponents_eq,
    hf.resolve_eq h (fun c hc => (hp.components c hc).upper) hcs]
  rcases hr : resolve g v cs with e | _ | e
  · rfl
  · rfl
  · by_cases hdir : e.isDirectory = true
    · simp only [hdir, if_true]
    · simp only [hdir]
      rcases List.eq_nil_or_concat cs with rfl | ⟨a, n, rfl⟩
      · cases hr
      rw [List.concat_eq_append] at hr hfile
      obtain ⟨r, it, hra, hda, -, hfound, heq⟩ := resolve_snoc_ok hr
      obtain rfl := Option.some.inj heq
      have hd := h.dir_of_resolve hra hda
      have hok := h.entryOk hd (lookup_mem hfound).1
      exact hf.preserved.fileContent hok.chain
        (hfile a n r it rfl hra hda hfound (Bool.eq_false_iff.mpr hdir))

/-! ## Clusters that stay apart -/

/-- The clusters of a file are not those of a directory. -/
theorem Sound.file_apart (h : Sound ok g v D own) {x : Nat} (hx : D x)
    (hit : it ∈ itemsOf (dirEntries g v x)) (hfile : it.entry.isDirectory = false) (hd : D d)
    {c : Nat} (hc : c ∈ own (.slot x it.index)) : c ∉ clusterChain g v.fat d :=
  h.cert.owner_apart hd
    (fun t ht => h.cert.file_head h.settled hx (liveEntries_item hit) hfile d t ht hd) hc

/-- The clusters of two entries are different ones. -/
theorem Sound.entries_apart (h : Sound ok g v D own) {x c : Nat}
    (hne : ¬ (x = d ∧ it.index = it'.index)) (hc : c ∈ own (.slot x it.index)) :
    c ∉ own (.slot d it'.index) := by
  intro hc'
  apply hne
  have heq := h.cert.disjoint _ _ _ hc hc'
  injection heq with hd hi
  exact ⟨hd, hi⟩

end

/-! ## The frames of the operations -/

section

variable {ok : List DirectoryEntry → Prop} {g : Geometry} {v v' : Volume}
  {D D' : Nat → Prop} {own own' : Owner → List Nat} {d x : Nat} {it it' : Item} {name n : CStr}
  {P : Nat → CStr → Prop}

/-- Where directories have changed only under one name of one of them. -/
theorem SameDirs.sameLookups (h : SameDirs g v v' (fun x => D x ∧ x ≠ d))
    (hd : ∀ n, n.map kToupper = n → n ≠ name →
      (lookup (dirEntries g v' d) n).map Item.entry = (lookup (dirEntries g v d) n).map Item.entry) :
    SameLookups g v v' D (fun x n => x = d ∧ n = name) := by
  intro x n hx hn hnot
  by_cases hxd : x = d
  · subst hxd
    exact hd n hn fun heq => hnot ⟨rfl, heq⟩
  · rw [(h x ⟨hx, hxd⟩).2]

theorem Created.frame [TidyRules ok] (h : Created ok g v v' D D' own own' d name it)
    (hs : Sound ok g v D own) (hd : D d) (hname : name.map kToupper = name) :
    Frame g v v' D (fun x n => x = d ∧ n = name) (· ∈ clusterChain g v.fat d) where
  lookups := h.others.sameLookups fun n hn hne => by
    rw [lookup_added (h.added hs hd) (nameEquals_other h.named hname hn hne)]
  dirs := h.others.mono fun x hx => ⟨hx.1, fun heq => hx.2 name ⟨heq, rfl⟩⟩
  preserved := h.preserved

theorem FileReplaced.frame [TidyRules ok] {append : Bool} {data : List UInt8} {new : List Nat}
    {e' : DirectoryEntry} (h : FileReplaced ok g v v' D own d it append data new e')
    (hs : Sound ok g v D own) (hd : D d)
    (hnamed : nameEqualsIgnoreCase it.name name = true) (hname : name.map kToupper = name) :
    Frame g v v' D (fun x n => x = d ∧ n = name)
      (fun c => c ∈ own (.slot d it.index) ∨ c ∈ clusterChain g v.fat d) where
  lookups := h.others.sameLookups fun n hn hne => by
    rw [lookup_replaced (h.replaced hs hd) rfl (nameEquals_other hnamed hname hn hne)]
  dirs := h.others.mono fun x hx => ⟨hx.1, fun heq => hx.2 name ⟨heq, rfl⟩⟩
  preserved := h.preserved

end

end FunnyOS.Fat32
