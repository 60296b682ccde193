import FunnyOS.Fat32.EntrySpec

/-!
# Specification of `fat32_make_dir`

A call that succeeds adds one entry, with a new cluster that holds the slots `.` and `..` and
nothing else. A call for whose entry there is no room keeps the cluster it has taken.
-/

namespace FunnyOS.Fat32

open Prog

/-! ## The slots of a new directory -/

section

variable {g : Geometry} {b : Nat → UInt8} {c parent i : Nat} {e : DirectoryEntry}

theorem bufferEntries_setBufferEntry :
    bufferEntries g (setBufferEntry b i e) = (bufferEntries g b).set i e := by
  refine List.ext_getElem (by simp [bufferEntries]) fun j hj hj' => ?_
  rw [List.getElem_set]
  simp only [bufferEntries, List.getElem_map, List.getElem_range]
  refine DirectoryEntry.ext fun k => ?_
  have hk := k.isLt
  have hdiv : (32 * j + k.val) / 32 = j := by omega
  by_cases hij : i = j
  · simp [bufferEntry, setBufferEntry, hdiv, hij, Nat.mod_eq_of_lt hk]
  · simp [bufferEntry, setBufferEntry, hdiv, hij, Ne.symm hij]

theorem bufferEntries_cleared :
    bufferEntries g (fun o => if o < g.clusterSize then 0 else b o)
      = List.replicate g.entriesPerCluster .zero := by
  have hmul := g.entriesPerCluster_mul
  refine List.ext_getElem (by simp [bufferEntries]) fun j hj hj' => ?_
  simp only [List.length_replicate] at hj'
  simp only [bufferEntries, List.getElem_map, List.getElem_range, List.getElem_replicate]
  refine DirectoryEntry.ext fun k => if_pos ?_
  have := k.isLt
  omega

/-- The buffer that `fat32_make_dir` writes. -/
theorem bufferEntries_newDir :
    bufferEntries g (setBufferEntry (setBufferEntry
      (fun o => if o < g.clusterSize then 0 else b o) 0 (specialDirEntry [0x2E] c)) 1
      (specialDirEntry [0x2E, 0x2E] parent)) = newDirEntries g c parent := by
  rw [bufferEntries_setBufferEntry, bufferEntries_setBufferEntry, bufferEntries_cleared]
  obtain ⟨n, hn⟩ := Nat.exists_eq_add_of_le'
    (Nat.le_trans (by decide : 2 ≤ 16) g.entriesPerCluster_ge)
  rw [hn, newDirEntries, hn]
  rfl

end

/-! ## Results -/

/-- A directory with the entry `it` has been created in directory `d`; `parent` is what its
slot `..` holds. -/
structure DirCreated (ok : List DirectoryEntry → Prop) (g : Geometry) (v v' : Volume)
    (D : Nat → Prop) (own own' : Owner → List Nat) (d parent : Nat) (name : CStr) (it : Item) :
    Prop extends Created ok g v v' D (fun d' => D d' ∨ d' = it.entry.entryFirstCluster) own own'
      d name it where
  dir : it.entry.isDirectory = true
  size : it.entry.size = 0
  fresh : ¬ D it.entry.entryFirstCluster
  entries : dirEntries g v' it.entry.entryFirstCluster
    = newDirEntries g it.entry.entryFirstCluster parent

/-- The last free cluster is taken for a directory for whose entry there is no room. -/
structure MakeDirShort (g : Geometry) (v : Volume) (d : Nat) (name : CStr) : Prop where
  absent : lookup (dirEntries g v d) name = none
  exact : (freeClusters g v.fat).length = 1
  search : ∃ start, FreeSearch (dirEntries g v d)
    (slotsNeeded (dirEntries g v d) name none) (.inl start)

/-- The cluster `c` has been taken and holds the slots of a new directory. -/
structure DirPrepared (g : Geometry) (v v' : Volume) (c parent : Nat) : Prop where
  rewritten : Rewritten g v v' [] [c] c
  entries : dirEntries g v' c = newDirEntries g c parent

section

variable {ok : List DirectoryEntry → Prop} {g : Geometry} {v v₁ v' : Volume}
  {D : Nat → Prop} {own own₂ : Owner → List Nat} {d c parent : Nat} {it : Item} {name : CStr}
  {grown : List Nat} {shortName : List UInt8} {slots : List DirectoryEntry}

theorem DirPrepared.chain (h : DirPrepared g v v₁ c parent) : Chain g v₁.fat c [c] := by
  rcases h.rewritten.links.chain with ⟨hnil, -⟩ | ⟨-, hch⟩
  · simp at hnil
  · exact hch

/-- The cluster that was taken is filled. -/
theorem dirPrepared_of_write {b : Nat → UInt8} (hr : Reallocated g v v₁ [] [c] c)
    (hv : v' = v₁.setData g c (setBufferEntry (setBufferEntry
      (fun o => if o < g.clusterSize then 0 else b o) 0 (specialDirEntry [0x2E] c)) 1
      (specialDirEntry [0x2E, 0x2E] parent))) : DirPrepared g v v' c parent := by
  have hch : Chain g v₁.fat c [c] := hr.chain_of_ne_nil (by simp)
  have hfat : v'.fat = v₁.fat := by rw [hv, Volume.setData_fat]
  refine ⟨⟨hfat ▸ hr.links, ?_, fun x hx _ => ?_, fun x hx _ => ?_⟩, ?_⟩
  · rw [hv, Volume.setData_mounted, hr.mounted]
  · rw [hfat]
    exact hr.links.keep (by simp) hx
  · have hxc : x ≠ c := by
      rintro rfl
      exact hx (hr.links.fresh x (by simp) (by simp))
    rw [← hr.data x hx, hv]
    simp [Volume.setData, hxc]
  · rw [dirEntries_eq (hfat.symm ▸ hch), chainEntries_cons, chainEntries_nil, List.append_nil,
      ← bufferEntries_newDir (b := b)]
    refine bufferEntries_congr fun o ho => ?_
    rw [hv]
    simp [Volume.setData, ho]

/-- The account with the new directory, whose chain is pending. -/
theorem DirPrepared.account [DirRules ok] (h : DirPrepared g v v₁ c parent)
    (hs : Sound ok g v D own) :
    Account ok g v₁ (fun d i => if d = c then none else liveEntries g v d i)
        (fun d => D d ∨ d = c) (Function.update own .pending [c]) ∧
      SameDirs g v v₁ D ∧ ¬ D c := by
  have hr : Rewritten g v v₁ (own .pending) [c] c := hs.settled.symm ▸ h.rewritten
  obtain ⟨hacc, hsame, hhead⟩ := hs.toAccount.rewrite hr (by simp [hs.settled])
  have hc : ¬ D c := hhead c [] rfl
  refine ⟨?_, hsame, hc⟩
  refine (hacc.congr fun d hd i => if_neg ?_).addDir (Function.update_self ..)
    (fun i => if_pos rfl) (h.entries ▸ DirRules.newDir)
  rintro rfl
  exact hc hd

/-- The new directory gets its entry. -/
theorem dirCreated_of_placed [DirRules ok] (hs : Sound ok g v D own) (hd : D d)
    (h : DirPrepared g v v₁ c parent)
    (hunused : scanForShortName (buildShortEntry shortName attrDirectory c 0).name none
      (dirEntries g v₁ d) ≠ .found ())
    (hacc₂ : Account ok g v' (fun d i => if d = c then none else liveEntries g v d i)
      (fun d => D d ∨ d = c) own₂)
    (hp : Placed g v₁ v' (fun d => D d ∨ d = c) (Function.update own .pending [c]) own₂ d grown
      name (buildShortEntry shortName attrDirectory c 0) slots it) :
    DirCreated ok g v v' D own (giveChain own₂ d it.index) d parent name it := by
  obtain ⟨hacc₁, hsame₁, hc⟩ := h.account hs
  have hcd : c ≠ d := by
    rintro rfl
    exact hc hd
  have hpend : own₂ .pending = [c] := by
    obtain ⟨o, ho, heq⟩ := hp.own
    have hop : .pending ≠ o := by
      rintro rfl
      obtain ⟨hch, hne⟩ := hacc₁.cert.dir_chain (.inl hd)
      have hmem := hch.head_mem hne
      rw [← ho, Function.update_self] at hmem
      exact hcd (List.mem_singleton.mp hmem).symm
    rw [heq, Function.update_of_ne hop, Function.update_self]
  have hfirst : (buildShortEntry shortName attrDirectory c 0).entryFirstCluster = c :=
    buildShortEntry_first (FileChain.first_lt (.inr ⟨by simp, h.chain⟩))
  have hdir : (buildShortEntry shortName attrDirectory c 0).isDirectory = true := by
    rw [buildShortEntry_isDirectory]
    decide
  obtain ⟨hchain, hentries⟩ := hp.others c ⟨.inr rfl, hcd⟩
  have hok : EntryOk g v'.fat (buildShortEntry shortName attrDirectory c 0) [c] := by
    refine ⟨.inr ⟨by simp, ?_⟩, fun _ => by simp, by simp [hdir]⟩
    obtain ⟨hch, -⟩ := hacc₂.cert.dir_chain (d := c) (.inr rfl)
    rw [hchain, h.chain.clusterChain_eq] at hch
    rw [hfirst]
    exact hch
  have hL₁ : ∀ d', D d' ∨ d' = c → ∀ j, liveAt (dirEntries g v₁ d') j
      = if d' = c then none else liveEntries g v d' j := by
    intro d' hd' j
    rcases hd' with hd' | rfl
    · rw [hsame₁.liveAt_eq hd' j, if_neg]
      rintro rfl
      exact hc hd'
    · rw [if_pos rfl, h.entries]
      refine Option.eq_none_iff_forall_ne_some.mpr fun e he => ?_
      have htidy : Tidy SlotTidy (newDirEntries g d' parent) := newDirEntries_tidy
      obtain ⟨it, hit, -⟩ := (liveAt_iff_item htidy.ended).mp he
      simp [itemsOf_newDirEntries] at hit
  have hlinks : Relinked g v.fat v₁.fat (own .pending) [c] c := by
    rw [hs.settled]
    exact h.rewritten.links
  have htight : Tight g v.fat (liveEntries g v) D own →
      Tight g v₁.fat (fun d i => if d = c then none else liveEntries g v d i)
        (fun d => D d ∨ d = c) (Function.update own .pending [c]) := by
    intro ht
    refine ((ht.relink hlinks fun _ _ _ h => absurd h (by simp)).congr
      fun d' hd' i => if_neg ?_).addDir fun i => if_pos rfl
    rintro rfl
    exact hc hd'
  have hcreated := created_of_placed (D := D) hd (.inl hd) hsame₁
    (h.rewritten.preserved.mono (by simp)) hacc₁ hL₁ (fun _ => .inl) hunused hacc₂ hp
    (hpend.symm ▸ hok) (fun _ => .inr hfirst) (by simp [hdir])
    fun ht => ⟨htight ht, by simp [hdir]⟩
  have hitem : it.entry.entryFirstCluster = c := by rw [hp.entry, hfirst]
  refine ⟨hitem.symm ▸ hcreated, ?_, ?_, hitem.symm ▸ hc, ?_⟩
  · rw [hp.entry, hdir]
  · rw [hp.entry]
    exact buildShortEntry_size (by decide)
  · rw [hitem, hentries, h.entries]

/-- There was no room for the entry. -/
theorem failed_of_noRoom (hs : Sound ok g v D own) (hd : D d)
    (habsent : lookup (dirEntries g v d) name = none) (h : DirPrepared g v v₁ c parent)
    (hv : v' = v₁) (hroom : NoRoom g v₁ d (slotsNeeded (dirEntries g v₁ d) name none)) :
    Failed ok g v v' D own own (MakeDirShort g v d name) := by
  subst hv
  have hu := untouched_of_preserved hs (h.rewritten.preserved.mono (by simp))
  refine ⟨hu, fun _ => .inr ⟨habsent, ?_, ?_⟩⟩
  · have hsub : ∀ x ∈ freeClusters g v.fat, x ∈ [c] := by
      intro x hx
      by_contra hn
      obtain ⟨hv, h0⟩ := mem_freeClusters.mp hx
      have hin : x ∈ freeClusters g v'.fat := mem_freeClusters.mpr
        ⟨hv, (h.rewritten.links.frame x (by simp) hn).trans h0⟩
      rw [hroom.full] at hin
      simp at hin
    have hfree : ∀ x ∈ [c], x ∈ freeClusters g v.fat :=
      fun x hx => h.rewritten.links.mem_free hx (by simp)
    exact Nat.le_antisymm (freeClusters_nodup.subperm hsub).length_le
      ((List.nodup_singleton c).subperm hfree).length_le
  · obtain ⟨start, hsearch⟩ := hroom.search
    rw [(hu.dirs d hd).2] at hsearch
    exact ⟨start, hsearch⟩

end

section

variable {ok : List DirectoryEntry → Prop} [DirRules ok] {env : Env} {s : State}
  {D : Nat → Prop} {own : Owner → List Nat} {path name : CStr} {d parent : Nat}

/-- `fat32_make_dir` on a device that works. -/
theorem fat32MakeDir_sat (hfuel : env.geometry.totalClusters < env.fuel) (hrel : ¬ env.Faulty)
    {v : Volume} (hv : s.volume env.geometry = v) (h : Sound ok env.geometry v D own) :
    Sat (fat32MakeDir env path) s
      (fun _ s' => ∃ cs r parentDir name parentPath own' it,
        ParentOf env.geometry v path cs r parentDir name parentPath ∧
        lookup (dirEntries env.geometry v (dirCluster env.geometry r)) name = none ∧
        DirCreated ok env.geometry v (s'.volume env.geometry) D own own'
          (dirCluster env.geometry r)
          (if r.isNone then 0 else dirCluster env.geometry r) name it)
      (fun _ s' => s'.volume env.geometry = v ∨ ∃ cs r parentDir name parentPath,
        ParentOf env.geometry v path cs r parentDir name parentPath ∧
        Failed ok env.geometry v (s'.volume env.geometry) D own own
          (MakeDirShort env.geometry v (dirCluster env.geometry r) name)) := by
  unfold fat32MakeDir
  refine startCall_sat hfuel hv h (fun e s' => .inl) ?_
  intro cs r parentDir name parentPath s₁ hv₁ hparent hd
  have hpd : parentDir.firstCluster = dirCluster env.geometry r := by rw [hparent.ref]
  have hpr : parentDir.isRoot = r.isNone := by rw [hparent.ref]
  simp only
  rw [hpd, hpr]
  refine Sat.bind (Sat.attempt (R := fun x (s' : State) => s'.volume env.geometry = v ∧
      caught (fun _ => True) (fun e : Fat32Result => e = .notFound ∧
        lookup (dirEntries env.geometry v (dirCluster env.geometry r)) name = none) x)
    (E := fun _ _ => False) (lookup_sat hfuel (hv₁.symm ▸ h) hd hparent.valid)
    (fun ref s' h' => ⟨h'.1.trans hv₁, trivial⟩) ?_) (fun _ _ h => h.elim) ?_
  · rintro e s' ⟨hv', ⟨rfl, hnone⟩ | ⟨-, hf⟩⟩
    · exact ⟨hv'.trans hv₁, rfl, hv₁ ▸ hnone⟩
    · exact absurd hf hrel
  rintro (e | ref) s₂ ⟨hv₂, hx⟩
  swap
  · exact Sat.raise (.inl hv₂)
  obtain ⟨rfl, habsent⟩ := hx
  refine Sat.ite (fun hne => absurd rfl hne) fun _ => ?_
  refine Sat.bind (allocateClusterChain_sat hfuel 1) ?_ ?_
  · rintro e s₃ (⟨-, hv₃, -⟩ | ⟨-, hf, -⟩)
    · exact .inl (hv₃.trans hv₂)
    · exact absurd hf hrel
  rintro c s₃ ⟨l, hl, hr⟩
  obtain ⟨x, rfl⟩ := List.length_eq_one_iff.mp hl
  obtain rfl : c = x := (chain_cons.mp (hr.chain_of_ne_nil (by simp))).1
  have hvalid : env.geometry.isValidDataCluster c = true :=
    (hr.chain_of_ne_nil (by simp)).valid c (by simp)
  rw [hv₂] at hr
  refine Sat.bind flushFat_sat (fun _ _ h => h.elim) ?_
  rintro (_ | _) s₄ ⟨hv₄, hflush⟩
  · exact absurd (hflush rfl) hrel
  refine Sat.ite (fun _ => ?_) (fun hne => absurd rfl hne)
  refine Sat.modify_bind ?_
  refine Sat.bind (writeCluster_sat hvalid) (fun _ _ h => h.elim) ?_
  rintro (_ | _) s₅ hv₅
  · exact absurd hv₅.2 hrel
  have hprep : DirPrepared env.geometry v (s₅.volume env.geometry) c
      (if r.isNone then 0 else dirCluster env.geometry r) :=
    dirPrepared_of_write hr (hv₄ ▸ hv₅)
  obtain ⟨hacc, hsame, -⟩ := hprep.account h
  refine Sat.ite (fun _ => ?_) (fun hne => absurd rfl hne)
  refine Sat.mono (newEntry_sat hfuel hrel hacc (.inl hd) hparent.valid (by decide)) ?_ ?_
  · rintro ⟨⟩ s₆ ⟨shortName, slots, own₂, grown, it, hbuilt, hacc₂, hplaced⟩
    exact ⟨cs, r, parentDir, name, parentPath, _, it, hparent, habsent, dirCreated_of_placed h hd
      hprep (hbuilt.unused_entry hrel) hacc₂ hplaced⟩
  · rintro e s₆ ⟨-, hv₆, hroom⟩
    exact .inr ⟨cs, r, parentDir, name, parentPath, hparent,
      failed_of_noRoom h hd habsent hprep hv₆ hroom⟩

end

end FunnyOS.Fat32
