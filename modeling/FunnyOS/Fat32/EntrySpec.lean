import FunnyOS.Fat32.Resolve

/-!
# Storing an entry

What the operations do with the slots of a directory, on a volume with an account: write an
entry in place, find room for a new one and write it, delete one. `Account.settle` closes the
account when the chain that was pending has its entry.
-/

namespace FunnyOS.Fat32

open Prog

/-! ## Fields of an entry -/

section

variable {e : DirectoryEntry} {shortName : List UInt8} {attributes : UInt8} {c n : Nat}

theorem leByte_high (h : n < 2 ^ 32) :
    65536 * le16 (leByte n 2) (leByte n 3) + le16 (leByte n 0) (leByte n 1) = n := by
  simp only [le16, leByte, UInt8.toNat_ofNat']
  omega

theorem DirectoryEntry.entryFirstCluster_set (h : c < 2 ^ 32) :
    (e.entrySetFirstCluster c).entryFirstCluster = c := by
  simp only [DirectoryEntry.entryFirstCluster, DirectoryEntry.entrySetFirstCluster,
    DirectoryEntry.setByte]
  exact leByte_high h

theorem DirectoryEntry.entryFirstCluster_setSize :
    (e.setSize n).entryFirstCluster = e.entryFirstCluster := rfl

theorem DirectoryEntry.size_set (h : n < 2 ^ 32) : (e.setSize n).size = n := by
  simp only [DirectoryEntry.size, DirectoryEntry.setSize, DirectoryEntry.setByte]
  have := leByte_high h
  simp only [le16] at this ⊢
  simpa [Nat.add_comm] using this

theorem DirectoryEntry.size_lt : e.size < 2 ^ 32 := by
  have h₁ := (e.byte 28).toNat_lt
  have h₂ := (e.byte 29).toNat_lt
  have h₃ := (e.byte 30).toNat_lt
  have h₄ := (e.byte 31).toNat_lt
  simp only [DirectoryEntry.size, le16]
  omega

theorem sameName_setFirstCluster : SameName e (e.entrySetFirstCluster c) := ⟨rfl, rfl⟩

theorem sameName_setFields : SameName e ((e.entrySetFirstCluster c).setSize n) := ⟨rfl, rfl⟩

theorem isDirectory_of_sameName {e' : DirectoryEntry} (h : SameName e e') :
    e'.isDirectory = e.isDirectory := by
  unfold DirectoryEntry.isDirectory
  rw [h.attributes]

theorem buildShortEntry_first (h : c < 2 ^ 32) :
    (buildShortEntry shortName attributes c n).entryFirstCluster = c :=
  DirectoryEntry.entryFirstCluster_set
    (e := (DirectoryEntry.zero.setName shortName).setAttributes attributes) h

theorem buildShortEntry_size (h : n < 2 ^ 32) :
    (buildShortEntry shortName attributes c n).size = n := DirectoryEntry.size_set h

theorem buildShortEntry_isDirectory :
    (buildShortEntry shortName attributes c n).isDirectory = (attributes &&& attrDirectory != 0) :=
  rfl

theorem FileChain.first_lt {g : Geometry} {fat : Nat → Nat} {first : Nat} {l : List Nat}
    (h : FileChain g fat first l) : first < 2 ^ 32 := by
  have htot := g.totalClusters_lt
  rcases h with ⟨-, rfl⟩ | ⟨hl, hch⟩
  · decide
  · have := (g.isValidDataCluster_iff.mp (hch.head_valid hl)).2
    omega

end

/-! ## Settling the account -/

section

variable {ok : List DirectoryEntry → Prop} {g : Geometry} {v v' : Volume} {L : Entries}
  {D : Nat → Prop} {own : Owner → List Nat} {d i : Nat} {e : DirectoryEntry}

/-- The pending chain has its entry. -/
theorem Account.settle (h : Account ok g v L D own) (hd : D d) (hnone : L d i = none)
    (hok : EntryOk g v.fat e (own .pending))
    (hclosed : e.isDirectory = true → D e.entryFirstCluster)
    (hfile : e.isDirectory = false → ∀ d' l, own .pending = d' :: l → ¬ D d')
    (hL : ∀ d', D d' → ∀ j, liveAt (dirEntries g v d') j = L.put d i (some e) d' j) :
    Sound ok g v D (giveChain own d i) :=
  ⟨(h.put hd hnone hok hclosed hfile).congr hL, giveChain_pending⟩

/-- No chain is pending any more. -/
theorem Account.sound (h : Account ok g v L D own) (hpend : own .pending = [])
    (hL : ∀ d, D d → ∀ i, liveAt (dirEntries g v d) i = L d i) : Sound ok g v D own :=
  ⟨h.congr hL, hpend⟩

/-- Where the directories stay the same, so do the live entries. -/
theorem SameDirs.liveAt_eq (h : SameDirs g v v' D) (hd : D d) (j : Nat) :
    liveAt (dirEntries g v' d) j = liveEntries g v d j := by
  rw [(h d hd).2]
  rfl

end

/-! ## Room for a new entry -/

/-- A new entry has been written into a directory. -/
structure Placed (g : Geometry) (v v' : Volume) (D : Nat → Prop) (own own' : Owner → List Nat)
    (d : Nat) (grown : List Nat) (name : CStr) (entry : DirectoryEntry)
    (new : List DirectoryEntry) (it : Item) : Prop where
  grown_le : grown.length ≤ 1
  own : ∃ o, own o = clusterChain g v.fat d ∧ own' = Function.update own o (own o ++ grown)
  chain : clusterChain g v'.fat d = clusterChain g v.fat d ++ grown
  links : Relinked g v.fat v'.fat (clusterChain g v.fat d) (clusterChain g v.fat d ++ grown) d
  free : ∀ c ∈ grown, c ∈ freeClusters g v.fat
  slots : ∃ zs start, SlotsFilled (dirEntries g v d) (dirEntries g v' d) name new zs start it ∧
    (grown = [] ∧ FreeSearch (dirEntries g v d) new.length (.inr start) ∨
      FreeSearch (dirEntries g v d) new.length (.inl start))
  entry : it.entry = entry
  others : SameDirs g v v' (fun d' => D d' ∧ d' ≠ d)
  preserved : Preserved v v' (· ∈ clusterChain g v.fat d)
  fat : grown = [] ∧ v'.fat = v.fat ∨ ∃ c, grown = [c] ∧ ∃ last ∈ clusterChain g v.fat d,
    v'.fat = fun x => if x = last then c else if x = c then endOfChain else v.fat x

/-- Placing an entry wastes no cluster. -/
theorem Placed.tight {ok : List DirectoryEntry → Prop} {g : Geometry} {v v' : Volume}
    {L : Entries} {D : Nat → Prop} {own own' : Owner → List Nat} {d : Nat} {grown : List Nat}
    {name : CStr} {entry : DirectoryEntry} {new : List DirectoryEntry} {it : Item}
    (h : Placed g v v' D own own' d grown name entry new it) (hacc : Account ok g v L D own)
    (hd : D d) (ht : Tight g v.fat L D own) : Tight g v'.fat L D own' := by
  obtain ⟨o, ho, rfl⟩ := h.own
  refine ht.relink (ho.symm ▸ h.links) fun d' i e hslot hd' he => ?_
  rcases hacc.cert.owner_of_dir_cases hd ho with rfl | rfl | ⟨d₁, i₁, e₁, rfl, hd₁, he₁, hdir⟩
  · cases hslot
  · cases hslot
  · cases hslot
    rw [he] at he₁
    cases he₁
    exact hdir

section

variable {ok : List DirectoryEntry → Prop} [DirRules ok] {env : Env} {s : State}
  {L : Entries} {D : Nat → Prop} {own : Owner → List Nat} {d : Nat} {name : CStr}
  {entry : DirectoryEntry} {new : List DirectoryEntry}

/-- `find_free_entry_in_cluster_dir` and `write_entry_span_at`. -/
theorem placeEntries_sat (hfuel : env.geometry.totalClusters < env.fuel) (hrel : ¬ env.Faulty)
    (h : Account ok env.geometry (s.volume env.geometry) L D own) (hd : D d)
    (hnew : NameBlock name entry new) :
    Sat (do
      let slot ← findFreeEntryInClusterDir env d new.length
      writeEntrySpanAt env d slot new) s
      (fun _ s' => ∃ own' grown it, Account ok env.geometry (s'.volume env.geometry) L D own' ∧
        Placed env.geometry (s.volume env.geometry) (s'.volume env.geometry) D own own' d grown
          name entry new it)
      (fun e s' => e = .noSpace ∧ s'.volume env.geometry = s.volume env.geometry ∧
        freeClusters env.geometry s.fat = [] ∧ ∃ start, FreeSearch
          (dirEntries env.geometry (s.volume env.geometry) d) new.length (.inl start)) := by
  obtain ⟨hch, hne⟩ := h.cert.dir_chain hd
  refine Sat.bind (findFreeEntryInClusterDir_sat hfuel hne hch) ?_ ?_
  · intro e s' hfail
    cases hfail with
    | noSpace same full start search => exact ⟨rfl, same, full, start, search⟩
    | early hf => exact absurd hf hrel
    | late hf => exact absurd hf hrel
  intro start s₁ hroom
  obtain ⟨own', grown, hacc, hr, hrun, hsearch⟩ := h.room hd hroom hnew.length_le
  obtain ⟨hch₁, -⟩ := hacc.cert.dir_chain hd
  have hes₁ := dirEntries_eq hch₁
  refine Sat.mono (writeEntrySpanAt_sat hch₁ (by rw [← hes₁]; exact hrun.fits)) ?_ ?_
  swap
  · rintro e s' ⟨-, hf, -⟩
    exact absurd hf hrel
  rintro ⟨⟩ s₂ hedit
  rw [← hes₁] at hedit
  obtain ⟨found, attached, hname, hitems⟩ := hnew.items
  obtain ⟨hacc₂, hchain₂, hes₂, hsame₂⟩ := hacc.edit hd hedit
    (DirRules.place (hacc.tidy hd) hrun hnew)
  obtain ⟨zs, hzs, hz⟩ := hr.slots
  refine ⟨own', grown, _, hacc₂, hr.length_le, hr.own, hchain₂.trans hr.chain,
    hedit.fat.symm ▸ hr.links, hr.free,
    ⟨zs, start, ⟨hz, hnew, hzs ▸ hrun, by rw [hes₂, hzs], hitems start⟩, hsearch⟩,
    rfl, hr.others.trans hsame₂, ?_, ?_⟩
  · refine hr.preserved.trans hedit.preserved fun c hc => ?_
    have hc : c ∈ clusterChain env.geometry (s₁.volume env.geometry).fat d := hc
    rw [hr.chain] at hc
    rcases List.mem_append.mp hc with hc | hc
    · exact .inr hc
    · exact .inl (mem_freeClusters.mp (hr.free c hc)).2
  · rw [hedit.fat]
    exact hr.fat

/-- A directory without room: no cluster is free and no run of free slots is long enough. -/
structure NoRoom (g : Geometry) (v : Volume) (d : Nat) (needed : Nat) : Prop where
  full : freeClusters g v.fat = []
  search : ∃ start, FreeSearch (dirEntries g v d) needed (.inl start)

/-- An entry for a new name is built and written. -/
theorem newEntry_sat (hfuel : env.geometry.totalClusters < env.fuel) (hrel : ¬ env.Faulty)
    (h : Account ok env.geometry (s.volume env.geometry) L D own) (hd : D d)
    (hname : validateLongName name = true) {attributes : UInt8} {first size : Nat}
    {ignore : Option (List UInt8)} (hattr : LiveAttributes attributes) :
    Sat (do
      let newEntries ← buildNameEntries env d name attributes first size ignore
      let slot ← findFreeEntryInClusterDir env d newEntries.length
      writeEntrySpanAt env d slot newEntries) s
      (fun _ s' => ∃ shortName new own' grown it,
        NameBuilt env (dirEntries env.geometry (s.volume env.geometry) d) name attributes first size
          ignore shortName new ∧
        Account ok env.geometry (s'.volume env.geometry) L D own' ∧
        Placed env.geometry (s.volume env.geometry) (s'.volume env.geometry) D own own' d grown
          name (buildShortEntry shortName attributes first size) new it)
      (fun e s' => e = .noSpace ∧ s'.volume env.geometry = s.volume env.geometry ∧
        NoRoom env.geometry (s.volume env.geometry) d
          (slotsNeeded (dirEntries env.geometry (s.volume env.geometry) d) name ignore)) := by
  obtain ⟨hch, -⟩ := h.cert.dir_chain hd
  refine Sat.bind (buildNameEntries_sat hfuel hch hname) (fun _ _ h => h.elim) ?_
  rintro new s₁ ⟨hv₁, shortName, hbuilt⟩
  rw [← dirEntries_eq hch] at hbuilt
  have hlen := hbuilt.length.resolve_right hrel
  refine Sat.mono (placeEntries_sat hfuel hrel (hv₁.symm ▸ h) hd
    (hbuilt.entries.block hname hattr)) ?_ ?_
  · rintro ⟨⟩ s₂ ⟨own', grown, it, hacc, hplaced⟩
    rw [hv₁] at hplaced
    exact ⟨shortName, new, own', grown, it, hbuilt, hacc, hplaced⟩
  · rintro e s₂ ⟨rfl, hv₂, hfull, hsearch⟩
    rw [hv₁, hlen] at hsearch
    exact ⟨rfl, hv₂.trans hv₁, congrArg Volume.fat hv₁ ▸ hfull, hsearch⟩

end

/-! ## What a call leaves -/

/-- An entry `it` with a name has been added to directory `d`; the directories are now `D'`. -/
structure Created (ok : List DirectoryEntry → Prop) (g : Geometry) (v v' : Volume)
    (D D' : Nat → Prop) (own own' : Owner → List Nat) (d : Nat) (name : CStr) (it : Item) :
    Prop where
  sound : Sound ok g v' D' own'
  unused : scanForShortName it.entry.name none (dirEntries g v d) ≠ .found ()
  slots : ∃ new zs start, SlotsFilled (dirEntries g v d) (dirEntries g v' d) name new zs start it
  chain : clusterChain g v.fat d <+: clusterChain g v'.fat d
  others : SameDirs g v v' (fun d' => D d' ∧ d' ≠ d)
  preserved : Preserved v v' (· ∈ clusterChain g v.fat d)
  tight : Tight g v.fat (liveEntries g v) D own → Tight g v'.fat (liveEntries g v') D' own'

/-- A call that has failed leaves every entry, and the content of every file. -/
structure Untouched (ok : List DirectoryEntry → Prop) (g : Geometry) (v v' : Volume)
    (D : Nat → Prop) (own own' : Owner → List Nat) : Prop where
  sound : Sound ok g v' D own'
  dirs : SameDirs g v v' D
  chains : ∀ o, own o <+: own' o
  content : ∀ d i e, D d → liveEntries g v d i = some e →
    e.size ≤ (own (.slot d i)).length * g.clusterSize →
    chainContent g v' (own' (.slot d i)) e.size = chainContent g v (own (.slot d i)) e.size

/-- A call that has failed wastes no cluster, except where it runs out of space in a certain
way. -/
structure Failed (ok : List DirectoryEntry → Prop) (g : Geometry) (v v' : Volume)
    (D : Nat → Prop) (own own' : Owner → List Nat) (short : Prop) : Prop where
  untouched : Untouched ok g v v' D own own'
  tight : Tight g v.fat (liveEntries g v) D own →
    Tight g v'.fat (liveEntries g v') D own' ∨ short

section

variable {ok : List DirectoryEntry → Prop} {g : Geometry} {v v₁ v' : Volume}
  {D D' : Nat → Prop} {own own' own₁ own₂ : Owner → List Nat} {d : Nat} {it : Item} {name : CStr}

theorem Created.named (h : Created ok g v v' D D' own own' d name it) :
    nameEqualsIgnoreCase it.name name = true := by
  obtain ⟨_, _, _, hslots⟩ := h.slots
  exact hslots.named.2

/-- The live slots of the directory with the new entry. -/
theorem Created.liveAt_eq (h : Created ok g v v' D D' own own' d name it) (i : Nat) :
    liveAt (dirEntries g v' d) i
      = if i = it.index then some it.entry else liveAt (dirEntries g v d) i := by
  obtain ⟨_, _, _, hslots⟩ := h.slots
  exact hslots.liveAt_eq

theorem Created.added [TidyRules ok] (h : Created ok g v v' D D' own own' d name it)
    (hs : Sound ok g v D own) (hd : D d) :
    ItemAdded (dirEntries g v d) (dirEntries g v' d) it := by
  obtain ⟨_, _, _, hslots⟩ := h.slots
  exact hslots.added (TidyRules.tidy (hs.tidy hd))

/-- The new entry gets the chain that was pending while it was written. -/
theorem created_of_placed {L₁ : Entries} {entry : DirectoryEntry}
    {slots : List DirectoryEntry} {grown : List Nat} (hd : D d) (hd' : D' d)
    (hsame₁ : SameDirs g v v₁ D) (hpres₁ : Preserved v v₁ (fun _ => False))
    (hacc₁ : Account ok g v₁ L₁ D' own₁)
    (hL₁ : ∀ d', D' d' → ∀ j, liveAt (dirEntries g v₁ d') j = L₁ d' j)
    (hDD' : ∀ d', D d' → D' d')
    (hunused : scanForShortName entry.name none (dirEntries g v₁ d) ≠ .found ())
    (hacc₂ : Account ok g v' L₁ D' own₂)
    (hp : Placed g v₁ v' D' own₁ own₂ d grown name entry slots it)
    (hok : EntryOk g v'.fat entry (own₂ .pending))
    (hclosed : entry.isDirectory = true → D' entry.entryFirstCluster)
    (hfile : entry.isDirectory = false → ∀ d' l, own₂ .pending = d' :: l → ¬ D' d')
    (htight : Tight g v.fat (liveEntries g v) D own → Tight g v₁.fat L₁ D' own₁ ∧
      (entry.isDirectory = false →
        (own₂ .pending).length = clustersForSize g entry.size)) :
    Created ok g v v' D D' own (giveChain own₂ d it.index) d name it := by
  obtain ⟨hchain₁, hes₁⟩ := hsame₁ d hd
  obtain ⟨zs, start, hslots, -⟩ := hp.slots
  have hnone := hslots.vacant
  rw [hL₁ d hd'] at hnone
  have hL : ∀ d', D' d' → ∀ j, liveAt (dirEntries g v' d') j
      = L₁.put d it.index (some it.entry) d' j :=
    hp.others.live_put hL₁ fun _ => hslots.liveAt_eq
  have hentry := hp.entry
  rw [← hentry] at hok hclosed hfile htight hunused
  refine ⟨hacc₂.settle hd' hnone hok hclosed hfile hL, hes₁ ▸ hunused,
    ⟨slots, zs, start, hes₁ ▸ hslots⟩, ?_,
    (hsame₁.mono fun _ h => h.1).trans (hp.others.mono fun d' h => ⟨hDD' d' h.1, h.2⟩), ?_, ?_⟩
  · rw [hp.chain, hchain₁]
    exact List.prefix_append _ _
  · refine (hpres₁.mono fun _ h => h.elim).trans hp.preserved fun c hc => ?_
    exact .inr (hchain₁ ▸ hc)
  · intro ht
    obtain ⟨ht₁, hexact⟩ := htight ht
    have hslot : own₂ (.slot d it.index) = [] := hacc₂.cert.unused fun _ => hnone
    exact ((hp.tight hacc₁ hd' ht₁).put hslot hexact).congr hL

theorem Untouched.refl (h : Sound ok g v D own) : Untouched ok g v v D own own :=
  ⟨h, SameDirs.refl, fun _ => List.prefix_refl _, fun _ _ _ _ _ _ => rfl⟩

theorem Untouched.tight (h : Untouched ok g v v' D own own')
    (ht : Tight g v'.fat (liveEntries g v) D own') :
    Tight g v'.fat (liveEntries g v') D own' :=
  ht.congr fun _ hd i => h.dirs.liveAt_eq hd i

/-- Changes of clusters that were free leave everything. -/
theorem untouched_of_preserved (h : Sound ok g v D own)
    (hp : Preserved v v' (fun _ => False)) : Untouched ok g v v' D own own := by
  obtain ⟨hacc, hsame⟩ := h.toAccount.preserve hp
  refine ⟨hacc.sound h.settled fun d hd i => hsame.liveAt_eq hd i, hsame,
    fun _ => List.prefix_refl _, fun d i e hd he hsize => chainContent_congr hsize fun c hc => ?_⟩
  exact hp.data c (h.cert.fat_ne_zero hc) id

/-- Nothing was taken. -/
theorem failed_of_same {first : Nat} {short : Prop} (h : Sound ok g v D own)
    (hr : Reallocated g v v' [] [] first) : Failed ok g v v' D own own short := by
  have hu := untouched_of_preserved h (hr.preserved.mono (by simp))
  have hfat : v'.fat = v.fat := funext fun c => hr.links.frame c (by simp) (by simp)
  exact ⟨hu, fun ht => .inl (hu.tight (hfat.symm ▸ ht))⟩

end

end FunnyOS.Fat32
