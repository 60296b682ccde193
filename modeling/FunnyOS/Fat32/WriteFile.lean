import FunnyOS.Fat32.EntrySpec
import FunnyOS.Fat32.FileUpdate

/-!
# Specification of `fat32_write_file`

On a volume with an account and a device that works, a call either replaces the content of the
file that its path names (`FileReplaced`), or creates that file (`FileCreated`), or fails
and leaves every entry as it is (`Untouched`).
-/

namespace FunnyOS.Fat32

open Prog

/-! ## Results -/

/-- The file with the entry `it` in directory `d` has been written: it has the chain `new` and
the entry `e'`. -/
structure FileReplaced (ok : List DirectoryEntry → Prop) (g : Geometry) (v v' : Volume)
    (D : Nat → Prop) (own : Owner → List Nat) (d : Nat) (it : Item) (append : Bool)
    (data : List UInt8) (new : List Nat) (e' : DirectoryEntry) : Prop where
  mem : it ∈ itemsOf (dirEntries g v d)
  file : it.entry.isDirectory = false
  sound : Sound ok g v' D (Function.update own (.slot d it.index) new)
  same : SameName it.entry e'
  size : e'.size = (if append then it.entry.size else 0) + data.length
  slots : dirEntries g v' d = (dirEntries g v d).set it.index e'
  chain : clusterChain g v'.fat d = clusterChain g v.fat d
  others : SameDirs g v v' (fun d' => D d' ∧ d' ≠ d)
  preserved : Preserved v v' (fun c => c ∈ own (.slot d it.index) ∨ c ∈ clusterChain g v.fat d)
  content : (append = true → it.entry.size ≤ (own (.slot d it.index)).length * g.clusterSize) →
    e'.size ≤ new.length * g.clusterSize ∧ chainContent g v' new e'.size
      = oldContent g v (own (.slot d it.index)) it.entry.size append ++ data
  tight : Tight g v.fat (liveEntries g v) D own →
    Tight g v'.fat (liveEntries g v') D (Function.update own (.slot d it.index) new)

/-- A file with the entry `it` has been created in directory `d`. -/
structure FileCreated (ok : List DirectoryEntry → Prop) (g : Geometry) (v v' : Volume)
    (D : Nat → Prop) (own own' : Owner → List Nat) (d : Nat) (name : CStr) (it : Item)
    (data : List UInt8) : Prop extends Created ok g v v' D D own own' d name it where
  file : it.entry.isDirectory = false
  size : it.entry.size = data.length
  content : it.entry.size ≤ (own' (.slot d it.index)).length * g.clusterSize ∧
    chainContent g v' (own' (.slot d it.index)) it.entry.size = data

section

variable {ok : List DirectoryEntry → Prop} {g : Geometry} {v v₁ v' : Volume}
  {D : Nat → Prop} {own own₂ : Owner → List Nat} {d r size : Nat} {it : Item} {name : CStr}
  {append : Bool} {data : List UInt8} {base new : List Nat} {e' : DirectoryEntry}

theorem FileReplaced.liveAt_eq (h : FileReplaced ok g v v' D own d it append data new e')
    (i : Nat) : liveAt (dirEntries g v' d) i
      = if i = it.index then some e' else liveAt (dirEntries g v d) i := by
  rw [h.slots, liveAt_set h.mem h.same]

theorem FileReplaced.replaced [TidyRules ok]
    (h : FileReplaced ok g v v' D own d it append data new e') (hs : Sound ok g v D own)
    (hd : D d) :
    ItemReplaced (dirEntries g v d) (dirEntries g v' d) it { it with entry := e' } := by
  rw [h.slots]
  exact (itemReplaced_set (TidyRules.tidy (hs.tidy hd)) h.mem h.same).2

/-! ## The content of an existing file -/

/-- While a file is written its chain is pending. -/
theorem fileWritten_account (h : Sound ok g v D own) (hd : D d)
    (hit : it ∈ itemsOf (dirEntries g v d)) (hfile : it.entry.isDirectory = false)
    (hw : FileWritten g v v₁ (own (.slot d it.index)) it.entry.size append data base new r size) :
    Account ok g v₁ ((liveEntries g v).put d it.index none) D
        (Function.update (takeChain own d it.index) .pending new) ∧
      SameDirs g v v₁ D ∧ (∀ d' l, new = d' :: l → ¬ D d') ∧
      Preserved v v₁ (· ∈ own (.slot d it.index)) := by
  have hlive := liveEntries_item hit
  have htake := h.toAccount.take h.settled hlive
  have hhead : ∀ d' l, takeChain own d it.index .pending = d' :: l → ¬ D d' := by
    rw [takeChain_pending]
    exact h.cert.file_head h.settled hd hlive hfile
  have hbase : Account ok g v ((liveEntries g v).put d it.index none) D
      (Function.update (takeChain own d it.index) .pending base) ∧
      (∀ d' l, base = d' :: l → ¬ D d') ∧ ∀ c ∈ base, c ∈ own (.slot d it.index) := by
    rcases hw.start with rfl | ⟨rfl, -, -⟩
    · refine ⟨?_, by simpa using hhead, fun _ hc => hc⟩
      rw [← @takeChain_pending own d it.index, Function.update_eq_self]
      exact htake
    · exact ⟨htake.forget hhead, by simp, by simp⟩
  obtain ⟨hacc, hhead', hsub⟩ := hbase
  obtain ⟨hacc₁, hsame, hnew⟩ := hacc.rewrite (by simpa using hw.rewritten) (by simpa using hhead')
  refine ⟨by simpa using hacc₁, hsame, hnew, hw.rewritten.preserved.mono fun c hc => ?_⟩
  exact .inr (hsub c hc)

/-- The entry is stored in place. -/
theorem fileReplaced_of_written [DirRules ok] (h : Sound ok g v D own) (hd : D d)
    (hit : it ∈ itemsOf (dirEntries g v d)) (hfile : it.entry.isDirectory = false)
    (hw : FileWritten g v v₁ (own (.slot d it.index)) it.entry.size append data base new r size)
    (hsize : size < 2 ^ 32) (he' : e' = (it.entry.entrySetFirstCluster r).setSize size)
    (hedit : Edited g v₁ v' (clusterChain g v₁.fat d) ((dirEntries g v₁ d).set it.index e')) :
    FileReplaced ok g v v' D own d it append data new e' := by
  obtain ⟨hacc₁, hsame₁, hnew, hpres⟩ := fileWritten_account h hd hit hfile hw
  have hfc : FileChain g v₁.fat r new := hw.rewritten.links.chain
  have hsn : SameName it.entry e' := he' ▸ sameName_setFields
  have hfirst : e'.entryFirstCluster = r := by
    rw [he', DirectoryEntry.entryFirstCluster_setSize]
    exact DirectoryEntry.entryFirstCluster_set hfc.first_lt
  have hsz : e'.size = size := by
    rw [he']
    exact DirectoryEntry.size_set hsize
  have hfile' : e'.isDirectory = false := (isDirectory_of_sameName hsn).trans hfile
  have hes₁ := (hsame₁ d hd).2
  rw [hes₁] at hedit
  obtain ⟨hacc₂, hchain₂, hes₂, hsame₂⟩ := hacc₁.edit hd hedit
    (DirRules.store (h.tidy hd) hit hsn)
  have hL : ∀ d', D d' → ∀ j, liveAt (dirEntries g v' d') j
      = (((liveEntries g v).put d it.index none).put d it.index (some e')) d' j := by
    rw [Entries.put_put]
    exact hsame₂.live_put (fun x hx j => hsame₁.liveAt_eq hx j) fun j => by
      rw [hes₂, liveAt_set hit hsn, hes₁]
  have hown := @giveChain_takeChain _ d it.index new h.settled
  have hok : EntryOk g v'.fat e' new := by
    refine ⟨?_, by simp [hfile'], fun _ => ⟨?_, ?_⟩⟩
    · rw [hfirst, hedit.fat]
      exact hfc
    · rw [hfirst, hsz]
      exact hw.first
    · rw [hsz]
      exact hw.long
  have hsound := hacc₂.settle hd Entries.put_self (by simpa using hok) (by simp [hfile'])
    (fun _ => by simpa using hnew) hL
  rw [hown] at hsound
  refine ⟨hit, hfile, hsound, hsn, hsz.trans hw.size_eq, hes₂,
    hchain₂.trans (hsame₁ d hd).1, (hsame₁.mono fun _ h => h.1).trans hsame₂, ?_, ?_, ?_⟩
  · refine (hpres.mono fun c hc => .inr (.inl hc)).trans hedit.preserved fun c hc => ?_
    exact .inr (.inr ((hsame₁ d hd).1 ▸ hc))
  · intro happ
    obtain ⟨hfit, hcontent⟩ := hw.content happ
    rw [hsz]
    refine ⟨hfit, ?_⟩
    rw [← hcontent]
    refine chainContent_congr hfit fun c hc => hedit.others c fun hcd => ?_
    exact hacc₁.pending_apart (by simpa using hnew) d hd c hcd (by simpa using hc)
  · intro ht
    have hexact := ht.exact hd (liveEntries_item hit) hfile
    have hbase : base = own (.slot d it.index) := by
      rcases hw.start with hb | ⟨-, hne, h0⟩
      · exact hb
      · exact absurd (List.length_eq_zero_iff.mp (hexact.trans h0)) hne
    have hlinks : Relinked g v.fat v'.fat (takeChain own d it.index .pending) new r := by
      rw [takeChain_pending, ← hbase, hedit.fat]
      exact hw.rewritten.links
    have ht₂ := ((ht.take h.settled).relink hlinks fun _ _ _ h => absurd h (by simp)).put
      (i := it.index) (d := d) (e := e') (by simp)
      (fun _ => by rw [Function.update_self, hsz]; exact hw.exact hexact)
    rw [hown] at ht₂
    exact ht₂.congr hL

/-! ## A new file -/

/-- The entry of a new file is written behind its data. -/
theorem fileCreated_of_placed (h : Sound ok g v D own) (hd : D d)
    (hw : FileWritten g v v₁ [] 0 append data base new r size) (hsize : size < 2 ^ 32)
    {own₁ : Owner → List Nat} (hown₁ : own₁ = Function.update own .pending new)
    {shortName : List UInt8} {slots : List DirectoryEntry} {grown : List Nat}
    (hunused : scanForShortName (buildShortEntry shortName attrArchive r size).name none
      (dirEntries g v₁ d) ≠ .found ())
    (hacc₂ : Account ok g v' (liveEntries g v) D own₂)
    (hp : Placed g v₁ v' D own₁ own₂ d grown name
      (buildShortEntry shortName attrArchive r size) slots it) :
    FileCreated ok g v v' D own (giveChain own₂ d it.index) d name it data := by
  have hbase : base = [] := by
    rcases hw.start with hb | ⟨hb, -⟩ <;> exact hb
  subst hbase
  have hrew : Rewritten g v v₁ (own .pending) new r := h.settled.symm ▸ hw.rewritten
  obtain ⟨hacc₁, hsame₁, hnew⟩ := h.toAccount.rewrite hrew (by simp [h.settled])
  rw [← hown₁] at hacc₁
  have hpend₁ : own₁ .pending = new := by rw [hown₁, Function.update_self]
  have hapart := hacc₁.pending_apart (hpend₁ ▸ hnew)
  rw [hpend₁] at hapart
  have hpend₂ : own₂ .pending = new := by
    obtain ⟨o, ho, heq⟩ := hp.own
    have hop : .pending ≠ o := by
      rintro rfl
      obtain ⟨hch, hne⟩ := hacc₁.cert.dir_chain hd
      exact hapart d hd d (hch.head_mem hne) (hpend₁ ▸ ho ▸ hch.head_mem hne)
    rw [heq, Function.update_of_ne hop, hpend₁]
  have hfc₁ : FileChain g v₁.fat r new := hw.rewritten.links.chain
  have hdata : ∀ c ∈ new, v'.fat c = v₁.fat c ∧ v'.data c = v₁.data c := by
    intro c hc
    have h0 := (hfc₁.chain_of_ne_nil (List.ne_nil_of_mem hc)).fat_ne_zero c hc
    have hcd : c ∉ clusterChain g v₁.fat d := fun hcd => hapart d hd c hcd hc
    exact ⟨hp.preserved.fat c h0 hcd, hp.preserved.data c h0 hcd⟩
  have hfirst : (buildShortEntry shortName attrArchive r size).entryFirstCluster = r :=
    buildShortEntry_first hfc₁.first_lt
  have hsz : (buildShortEntry shortName attrArchive r size).size = size :=
    buildShortEntry_size hsize
  have hfile : (buildShortEntry shortName attrArchive r size).isDirectory = false := by
    rw [buildShortEntry_isDirectory]
    decide
  have hok : EntryOk g v'.fat (buildShortEntry shortName attrArchive r size) new := by
    refine ⟨?_, by simp [hfile], fun _ => ⟨?_, ?_⟩⟩
    · rw [hfirst]
      exact hfc₁.congr fun c hc => (hdata c hc).1
    · rw [hfirst, hsz]
      exact hw.first
    · rw [hsz]
      exact hw.long
  have hlen : size = data.length := by
    rw [hw.size_eq]
    split <;> omega
  refine ⟨created_of_placed hd hd hsame₁ (hw.rewritten.preserved.mono (by simp)) hacc₁
    (fun d' hd' j => hsame₁.liveAt_eq hd' j) (fun _ h => h) hunused hacc₂ hp (hpend₂.symm ▸ hok)
    (by simp [hfile]) (fun _ => hpend₂ ▸ hnew) fun ht => ⟨?_, fun _ => ?_⟩, ?_, ?_, ?_⟩
  · rw [hown₁]
    exact ht.relink hrew.links fun _ _ _ h => absurd h (by simp)
  · rw [hpend₂, hsz]
    exact hw.exact clustersForSize_zero.symm
  · rw [hp.entry, hfile]
  · rw [hp.entry, hsz, hlen]
  · obtain ⟨hfit, hcontent⟩ := hw.content (fun _ => Nat.zero_le _)
    rw [giveChain_slot, hpend₂, hp.entry, hsz]
    refine ⟨hfit, ?_⟩
    rw [chainContent_congr hfit fun c hc => (hdata c hc).2, hcontent]
    cases append <;> rfl

/-! ## Failure -/

/-- The space runs out after some has been taken: while a file with clusters grows, or when a
new file has got all its clusters and no room is left for its entry. -/
inductive WriteShort (g : Geometry) (v : Volume) (own : Owner → List Nat) (d : Nat) (name : CStr)
    (append : Bool) (data : List UInt8) : Prop
  | growth (it : Item) (found : lookup (dirEntries g v d) name = some it)
      (clusters : own (.slot d it.index) ≠ []) (some_free : freeClusters g v.fat ≠ [])
      (short : (freeClusters g v.fat).length < clustersForSize g
          ((if append then (it.entry.size + data.length) % 2 ^ 32 else data.length))
        - clustersForSize g it.entry.size)
  | slot (absent : lookup (dirEntries g v d) name = none) (clusters : data ≠ [])
      (exact : (freeClusters g v.fat).length = clustersForSize g data.length)
      (start : Nat) (search : FreeSearch (dirEntries g v d)
        (slotsNeeded (dirEntries g v d) name none) (.inl start))

/-- A call of `fat32_write_file` that fails. -/
abbrev WriteFailed (ok : List DirectoryEntry → Prop) (g : Geometry) (v v' : Volume)
    (D : Nat → Prop) (own own' : Owner → List Nat) (d : Nat) (name : CStr) (append : Bool)
    (data : List UInt8) : Prop :=
  Failed ok g v v' D own own' (WriteShort g v own d name append data)

/-- The clusters of a new file could not be taken. -/
theorem writeFailed_of_newFile {newSize : Nat} {e : Fat32Result} (h : Sound ok g v D own)
    (hf : FileFailed g v v' [] 0 0 newSize e) :
    WriteFailed ok g v v' D own own d name append data := by
  cases hf with
  | noSpace taken fresh grown full =>
    obtain rfl := fresh rfl
    exact failed_of_same h grown
  | oversized uncounted => exact absurd rfl uncounted.1

/-- A file keeps the clusters that it has got by the time a call fails. -/
theorem untouched_of_rewritten {taken : List Nat} (h : Sound ok g v D own) (hd : D d)
    (hit : it ∈ itemsOf (dirEntries g v d)) (hfile : it.entry.isDirectory = false)
    (hl : own (.slot d it.index) ≠ [])
    (hw : Rewritten g v v' (own (.slot d it.index)) (own (.slot d it.index) ++ taken)
      it.entry.entryFirstCluster)
    (hcontent : it.entry.size ≤ (own (.slot d it.index)).length * g.clusterSize →
      chainContent g v' (own (.slot d it.index) ++ taken) it.entry.size
        = chainContent g v (own (.slot d it.index)) it.entry.size) :
    Untouched ok g v v' D own
      (Function.update own (.slot d it.index) (own (.slot d it.index) ++ taken)) := by
  have hlive := liveEntries_item hit
  have hchain := (h.entryOk hd hit).chain
  obtain ⟨hacc, hsame⟩ := h.toAccount.growFile h.settled hd hlive hfile hw
    (hchain.chain_of_ne_nil hl) hl
  refine ⟨hacc.sound ?_ fun d hd i => hsame.liveAt_eq hd i, hsame, fun o => ?_, ?_⟩
  · rw [Function.update_of_ne (by simp)]
    exact h.settled
  · by_cases ho : o = .slot d it.index
    · rw [ho, Function.update_self]
      exact List.prefix_append _ _
    · rw [Function.update_of_ne ho]
  · intro d' i e hd' he hsize
    by_cases hs : Owner.slot d' i = .slot d it.index
    · obtain ⟨rfl, rfl⟩ := Owner.slot.inj hs
      rw [hlive] at he
      cases he
      rw [Function.update_self]
      exact hcontent hsize
    · rw [Function.update_of_ne hs]
      refine chainContent_congr hsize fun c hc =>
        hw.preserved.data c (h.cert.fat_ne_zero hc) fun hc' => ?_
      exact hs (h.cert.disjoint _ _ c hc hc')

/-- A file that has clusters keeps those that were taken before the space ran out. -/
theorem untouched_of_grown {taken : List Nat} (h : Sound ok g v D own) (hd : D d)
    (hit : it ∈ itemsOf (dirEntries g v d)) (hfile : it.entry.isDirectory = false)
    (hl : own (.slot d it.index) ≠ [])
    (hr : Reallocated g v v' (own (.slot d it.index)) (own (.slot d it.index) ++ taken)
      it.entry.entryFirstCluster) :
    Untouched ok g v v' D own
      (Function.update own (.slot d it.index) (own (.slot d it.index) ++ taken)) :=
  untouched_of_rewritten h hd hit hfile hl hr.rewritten
    fun hsize => chainContent_grown hr (h.entryOk hd hit).chain hsize

/-- The data of an impossibly large file could not be stored. -/
theorem untouched_of_oversized (h : Sound ok g v D own) (hd : D d)
    (hit : it ∈ itemsOf (dirEntries g v d)) (hfile : it.entry.isDirectory = false)
    (hfat : ∀ c, v.fat c ≠ 0 → v'.fat c = v.fat c)
    (hp : Preserved v v' (· ∈ own (.slot d it.index)))
    (hbytes : ∀ p < (own (.slot d it.index)).length * g.clusterSize,
      chainByte g v' (own (.slot d it.index)) p = chainByte g v (own (.slot d it.index)) p) :
    Untouched ok g v v' D own own := by
  have hlive := liveEntries_item hit
  obtain ⟨hacc, hsame⟩ := h.toAccount.of_preserved hp
    (h.cert.keep fun _ c hc => hfat c (h.cert.fat_ne_zero hc)) fun d' hd' c hc hslot =>
      h.cert.owner_apart hd' (fun t ht => h.cert.file_head h.settled hd hlive hfile _ t ht hd')
        hslot hc
  refine ⟨hacc.sound h.settled fun d hd i => hsame.liveAt_eq hd i, hsame,
    fun _ => List.prefix_refl _, fun d' i e hd' he hsize => ?_⟩
  by_cases hs : Owner.slot d' i = .slot d it.index
  · rw [hs] at hsize ⊢
    refine List.map_congr_left fun p hp => ?_
    have := List.mem_range.mp hp
    exact hbytes p (by omega)
  · refine chainContent_congr hsize fun c hc => hp.data c (h.cert.fat_ne_zero hc) fun hc' => ?_
    exact hs (h.cert.disjoint _ _ c hc hc')

/-- The chain of an existing file could not be made to fit. -/
theorem writeFailed_of_fileFailed (h : Sound ok g v D own) (hd : D d)
    (hfound : lookup (dirEntries g v d) name = some it) (hfile : it.entry.isDirectory = false)
    {newSize : Nat} {e : Fat32Result}
    (hnew : newSize = if append then (it.entry.size + data.length) % 2 ^ 32 else data.length)
    (hf : FileFailed g v v' (own (.slot d it.index)) it.entry.entryFirstCluster it.entry.size
      newSize e) :
    ∃ own', WriteFailed ok g v v' D own own' d name append data := by
  have hit := (lookup_mem hfound).1
  have hchain := (h.entryOk hd hit).chain
  cases hf with
  | noSpace taken fresh grown full =>
    by_cases hl : own (.slot d it.index) = []
    · obtain rfl := fresh hl
      rw [hl] at grown
      exact ⟨own, failed_of_same h grown⟩
    · have hu := untouched_of_grown h hd hit hfile hl grown
      refine ⟨_, hu, fun ht => ?_⟩
      by_cases ht₀ : taken = []
      · subst ht₀
        rw [List.append_nil] at grown hu ⊢
        rw [Function.update_eq_self] at hu ⊢
        exact .inl (hu.tight (ht.keep grown.links))
      · obtain ⟨c, hc⟩ := List.exists_mem_of_ne_nil _ ht₀
        have hnd := (grown.chain_of_ne_nil (by simp [hl])).nodup
        have hnot : c ∉ own (.slot d it.index) :=
          fun hmem => (List.nodup_append.mp hnd).2.2 c hmem c hc rfl
        refine .inr (.growth it hfound hl ?_ (hnew ▸ full))
        exact List.ne_nil_of_mem (grown.links.mem_free (by simp [hc]) hnot)
  | oversized uncounted fat preserved bytes =>
    refine ⟨own, untouched_of_oversized h hd hit hfile fat preserved bytes, fun ht => ?_⟩
    have hlen := ht.exact hd (liveEntries_item hit) hfile
    rw [uncounted.2] at hlen
    exact absurd (List.length_eq_zero_iff.mp hlen) uncounted.1

/-- There was no room for the entry of a new file. -/
theorem writeFailed_of_noRoom (h : Sound ok g v D own) (hd : D d)
    (habsent : lookup (dirEntries g v d) name = none)
    (hw : FileWritten g v v₁ [] 0 append data base new r size) (hv : v' = v₁)
    (hroom : NoRoom g v₁ d (slotsNeeded (dirEntries g v₁ d) name none)) :
    WriteFailed ok g v v' D own own d name append data := by
  have hbase : base = [] := by
    rcases hw.start with hb | ⟨hb, -⟩ <;> exact hb
  subst hbase hv
  have hlen : size = data.length := by
    rw [hw.size_eq]
    split <;> omega
  have hu := untouched_of_preserved h (hw.rewritten.preserved.mono (by simp))
  refine ⟨hu, fun ht => ?_⟩
  by_cases hdata : data = []
  · have hnil : new = [] := by
      have := hw.exact clustersForSize_zero.symm
      rw [hlen, hdata] at this
      exact List.length_eq_zero_iff.mp (this.trans clustersForSize_zero)
    have hfat : v'.fat = v.fat :=
      funext fun c => hw.rewritten.links.frame c (by simp) (by simp [hnil])
    exact .inl (hu.tight (hfat.symm ▸ ht))
  · rw [(hu.dirs d hd).2] at hroom
    obtain ⟨start, hsearch⟩ := hroom.search
    rw [(hu.dirs d hd).2] at hsearch
    refine .inr (.slot habsent hdata ?_ start hsearch)
    have hfree : ∀ c ∈ new, c ∈ freeClusters g v.fat :=
      fun c hc => hw.rewritten.links.mem_free hc (by simp)
    have hsub : ∀ c ∈ freeClusters g v.fat, c ∈ new := by
      intro c hc
      by_contra hn
      have := hw.rewritten.links.frame c (by simp) hn
      obtain ⟨hv, h0⟩ := mem_freeClusters.mp hc
      have hin : c ∈ freeClusters g v'.fat := mem_freeClusters.mpr ⟨hv, this.trans h0⟩
      rw [hroom.full] at hin
      simp at hin
    have hnd : new.Nodup := by
      rcases hw.rewritten.links.chain with ⟨rfl, -⟩ | ⟨-, hch⟩
      · exact List.nodup_nil
      · exact hch.nodup
    rw [← hlen, ← hw.exact clustersForSize_zero.symm]
    exact Nat.le_antisymm (freeClusters_nodup.subperm hsub).length_le
      (hnd.subperm hfree).length_le

end

section

variable {ok : List DirectoryEntry → Prop} [DirRules ok] {env : Env} {s : State}
  {D : Nat → Prop} {own : Owner → List Nat} {path name : CStr} {d : Nat} {append : Bool}
  {data : List UInt8}

/-- The lookup of `fat32_write_file`. -/
theorem lookupFile_sat (hfuel : env.geometry.totalClusters < env.fuel) (hrel : ¬ env.Faulty)
    (h : Sound ok env.geometry (s.volume env.geometry) D own) {parentDir : DirectoryRef}
    (hd : D parentDir.firstCluster) (hname : validateLongName name = true) :
    Sat (lookupFile env parentDir name) s
      (fun x s' => s'.volume env.geometry = s.volume env.geometry ∧
        match x with
        | some ref => ∃ it, it.entry.isDirectory = false ∧
            lookup (dirEntries env.geometry (s.volume env.geometry) parentDir.firstCluster) name
              = some it ∧
            RefTo env (dirEntries env.geometry (s.volume env.geometry) parentDir.firstCluster)
              parentDir.firstCluster it ref
        | none =>
          lookup (dirEntries env.geometry (s.volume env.geometry) parentDir.firstCluster) name
            = none)
      (fun _ s' => s'.volume env.geometry = s.volume env.geometry) := by
  refine Sat.bind (Sat.attempt (R := fun x (s' : State) => s'.volume env.geometry = s.volume env.geometry ∧
      caught (fun ref => ∃ it,
          lookup (dirEntries env.geometry (s.volume env.geometry) parentDir.firstCluster) name
            = some it ∧
          RefTo env (dirEntries env.geometry (s.volume env.geometry) parentDir.firstCluster)
            parentDir.firstCluster it ref)
        (fun e : Fat32Result => e = .notFound ∧
          lookup (dirEntries env.geometry (s.volume env.geometry) parentDir.firstCluster) name
            = none) x) (E := fun _ _ => False)
    (lookup_sat hfuel h hd hname) (fun ref s' h' => h') ?_) (fun _ _ h => h.elim) ?_
  · rintro e s' ⟨hv, ⟨rfl, hnone⟩ | ⟨-, hf⟩⟩
    · exact ⟨hv, rfl, hnone⟩
    · exact absurd hf hrel
  · rintro (e | ref) s' ⟨hv, hx⟩
    · obtain ⟨rfl, hnone⟩ := hx
      exact Sat.pure ⟨hv, hnone⟩
    · obtain ⟨it, hit, href⟩ := hx
      simp only
      refine Sat.ite (fun _ => Sat.raise hv) (fun hdir => Sat.pure ⟨hv, it, ?_, hit, href⟩)
      rw [← href.entry]
      simpa using hdir

omit [DirRules ok] in
/-- The entry of an existing file is stored in place. -/
theorem writeEntryAt_sat {v : Volume} {L : Entries} {own₁ : Owner → List Nat} {it : Item}
    {ref : EntryRef} {e' : DirectoryEntry} (hrel : ¬ env.Faulty)
    (hacc : Account ok env.geometry (s.volume env.geometry) L D own₁) (hd : D d)
    (hit : it ∈ itemsOf (dirEntries env.geometry v d))
    (hsame : dirEntries env.geometry (s.volume env.geometry) d = dirEntries env.geometry v d)
    (href : RefTo env (dirEntries env.geometry v d) d it ref) :
    Sat (writeEntryAt env ref e') s
      (fun _ s' => Edited env.geometry (s.volume env.geometry) (s'.volume env.geometry)
        (clusterChain env.geometry (s.volume env.geometry).fat d)
        ((dirEntries env.geometry (s.volume env.geometry) d).set it.index e'))
      (fun _ _ => False) := by
  obtain ⟨hch, -⟩ := hacc.cert.dir_chain hd
  have hlt : it.index < (dirEntries env.geometry (s.volume env.geometry) d).length := by
    rw [hsame]
    exact (List.getElem?_eq_some_iff.mp (mem_dirItems hit).2.2).1
  rw [dirEntries_eq hch] at hlt ⊢
  unfold writeEntryAt
  rw [href.directory, href.index]
  refine Sat.mono (writeDirectoryEntry_sat hch hlt) (fun _ _ h => h) ?_
  rintro e s' ⟨-, -, hf⟩
  exact absurd hf hrel

/-- What a successful call of `fat32_write_file` has done. -/
inductive Written (ok : List DirectoryEntry → Prop) (g : Geometry) (v v' : Volume)
    (D : Nat → Prop) (own : Owner → List Nat) (d : Nat) (name : CStr) (append : Bool)
    (data : List UInt8) : Prop
  | replaced (it : Item) (new : List Nat) (e' : DirectoryEntry)
      (found : lookup (dirEntries g v d) name = some it)
      (file : FileReplaced ok g v v' D own d it append data new e')
  | created (own' : Owner → List Nat) (it : Item)
      (absent : lookup (dirEntries g v d) name = none)
      (file : FileCreated ok g v v' D own own' d name it data)

/-- The end of `fat32_write_file` for an existing file. -/
theorem storeExisting_sat {v : Volume} {it : Item} {ref : EntryRef} {base new : List Nat}
    {r size : Nat} {parentDir : DirectoryRef} (hrel : ¬ env.Faulty)
    (h : Sound ok env.geometry v D own) (hd : D d)
    (hfound : lookup (dirEntries env.geometry v d) name = some it)
    (hfile : it.entry.isDirectory = false) (href : RefTo env (dirEntries env.geometry v d) d it ref)
    (hw : FileWritten env.geometry v (s.volume env.geometry) (own (.slot d it.index))
      it.entry.size append data base new r size)
    (hsize : size < 2 ^ 32) :
    Sat (storeFileEntry env parentDir name (some ref) r size) s
      (fun _ s' => Written ok env.geometry v (s'.volume env.geometry) D own d name append data)
      (fun _ _ => False) := by
  have hit := (lookup_mem hfound).1
  obtain ⟨hacc, hsame, -, -⟩ := fileWritten_account h hd hit hfile hw
  refine Sat.mono (writeEntryAt_sat hrel hacc hd hit (hsame d hd).2 href) ?_ (fun _ _ h => h)
  rintro ⟨⟩ s' hedit
  exact .replaced it new _ hfound
    (fileReplaced_of_written h hd hit hfile hw hsize (by rw [href.entry]) hedit)

/-- The end of `fat32_write_file` for a new file. -/
theorem storeNew_sat {v : Volume} {base new : List Nat} {r size : Nat} {parentDir : DirectoryRef}
    (hfuel : env.geometry.totalClusters < env.fuel) (hrel : ¬ env.Faulty)
    (h : Sound ok env.geometry v D own) (hd : D d) (hpd : parentDir.firstCluster = d)
    (hname : validateLongName name = true)
    (habsent : lookup (dirEntries env.geometry v d) name = none)
    (hw : FileWritten env.geometry v (s.volume env.geometry) [] 0 append data base new r size)
    (hsize : size < 2 ^ 32) :
    Sat (storeFileEntry env parentDir name none r size) s
      (fun _ s' => Written ok env.geometry v (s'.volume env.geometry) D own d name append data)
      (fun _ s' => ∃ own', WriteFailed ok env.geometry v (s'.volume env.geometry) D own own' d name
        append data) := by
  have hbase : base = [] := by
    rcases hw.start with hb | ⟨hb, -⟩ <;> exact hb
  have hrew : Rewritten env.geometry v (s.volume env.geometry) (own .pending) new r :=
    h.settled.symm ▸ hbase ▸ hw.rewritten
  obtain ⟨hacc, -, -⟩ := h.toAccount.rewrite hrew (by simp [h.settled])
  unfold storeFileEntry
  rw [hpd]
  refine Sat.mono (newEntry_sat hfuel hrel hacc hd hname (by decide)) ?_ ?_
  · rintro ⟨⟩ s' ⟨shortName, slots, own₂, grown, it, hbuilt, hacc₂, hplaced⟩
    exact .created _ it habsent (fileCreated_of_placed h hd hw hsize rfl
      (hbuilt.unused_entry hrel) hacc₂ hplaced)
  · rintro e s' ⟨-, hv, hroom⟩
    exact ⟨own, writeFailed_of_noRoom h hd habsent hw hv hroom⟩

/-- `fat32_write_file` on a device that works. -/
theorem fat32WriteFile_sat (hfuel : env.geometry.totalClusters < env.fuel) (hrel : ¬ env.Faulty)
    {v : Volume} (hv : s.volume env.geometry = v) (h : Sound ok env.geometry v D own)
    (hdata : data.length ≤ 2 ^ 31) :
    Sat (fat32WriteFile env path data append) s
      (fun _ s' => ∃ cs r parentDir name parentPath,
        ParentOf env.geometry v path cs r parentDir name parentPath ∧
        Written ok env.geometry v (s'.volume env.geometry) D own (dirCluster env.geometry r) name
          append data)
      (fun _ s' => s'.volume env.geometry = v ∨ ∃ cs r parentDir name parentPath own',
        ParentOf env.geometry v path cs r parentDir name parentPath ∧
        WriteFailed ok env.geometry v (s'.volume env.geometry) D own own'
          (dirCluster env.geometry r) name append data) := by
  unfold fat32WriteFile
  refine startCall_sat hfuel hv h (fun e s' => .inl) ?_
  intro cs r parentDir name parentPath s₁ hv₁ hparent hd
  simp only
  have hpd : parentDir.firstCluster = dirCluster env.geometry r := by rw [hparent.ref]
  have hdone : ∀ s' : State, Written ok env.geometry v (s'.volume env.geometry) D own
      (dirCluster env.geometry r) name append data → ∃ cs r parentDir name parentPath,
        ParentOf env.geometry v path cs r parentDir name parentPath ∧
        Written ok env.geometry v (s'.volume env.geometry) D own (dirCluster env.geometry r) name
          append data := fun s' hw => ⟨cs, r, parentDir, name, parentPath, hparent, hw⟩
  have hfailed : ∀ (s' : State) own', WriteFailed ok env.geometry v (s'.volume env.geometry) D own
      own' (dirCluster env.geometry r) name append data →
      s'.volume env.geometry = v ∨ ∃ cs r parentDir name parentPath own',
        ParentOf env.geometry v path cs r parentDir name parentPath ∧
        WriteFailed ok env.geometry v (s'.volume env.geometry) D own own'
          (dirCluster env.geometry r) name append data :=
    fun s' own' hf => .inr ⟨cs, r, parentDir, name, parentPath, own', hparent, hf⟩
  refine Sat.bind (lookupFile_sat hfuel hrel (hv₁.symm ▸ h) (hpd.symm ▸ hd) hparent.valid)
    (fun _ s' hs' => .inl (hs'.trans hv₁)) ?_
  rw [hpd, hv₁]
  rintro (_ | ref) s₂ ⟨hv₂, hx⟩
  · -- a new file has no clusters yet
    have hfc : FileChain env.geometry s₂.fat 0 [] := .inl ⟨rfl, rfl⟩
    have hzero : clustersForSize env.geometry 0 ≤ ([] : List Nat).length :=
      Nat.le_of_eq clustersForSize_zero
    simp only
    refine Sat.ite (fun happ => ?_) (fun happ => ?_)
    · refine appendFile_sat hfuel hrel hfc (by simp) hzero (by decide) hdata ?_ ?_
      · intro base new r' s₃ hw
        rw [hv₂, ← happ] at hw
        exact Sat.mono (storeNew_sat hfuel hrel h hd hpd hparent.valid hx hw
          (Nat.mod_lt _ (by decide))) (fun _ s' => hdone s') fun _ s' ⟨own', hf⟩ => hfailed s' own' hf
      · intro e s₃ hf
        exact hfailed s₃ own (writeFailed_of_newFile h (hv₂ ▸ hf))
    · refine overwriteFile_sat hfuel hrel hfc hzero hdata ?_ ?_
      · intro base new r' s₃ hw
        rw [hv₂, ← Bool.eq_false_iff.mpr happ] at hw
        exact Sat.mono (storeNew_sat hfuel hrel h hd hpd hparent.valid hx hw (by omega))
          (fun _ s' => hdone s') fun _ s' ⟨own', hf⟩ => hfailed s' own' hf
      · intro e s₃ hf
        exact hfailed s₃ own (writeFailed_of_newFile h (hv₂ ▸ hf))
  · obtain ⟨it, hfile, hfound, href⟩ := hx
    have hit := (lookup_mem hfound).1
    have hok := h.entryOk hd hit
    obtain ⟨hfirst, hlong⟩ := hok.file hfile
    have hfat : s₂.fat = v.fat := congrArg Volume.fat hv₂
    have hfc : FileChain env.geometry s₂.fat it.entry.entryFirstCluster
        (own (.slot (dirCluster env.geometry r) it.index)) := hfat.symm ▸ hok.chain
    simp only [href.entry]
    refine Sat.ite (fun happ => ?_) (fun happ => ?_)
    · refine appendFile_sat hfuel hrel hfc hfirst hlong DirectoryEntry.size_lt hdata ?_ ?_
      · intro base new r' s₃ hw
        rw [hv₂, ← happ] at hw
        exact Sat.mono (storeExisting_sat hrel h hd hfound hfile href hw
          (Nat.mod_lt _ (by decide))) (fun _ s' => hdone s') fun _ _ hf => hf.elim
      · intro e s₃ hf
        obtain ⟨own', hf⟩ := writeFailed_of_fileFailed h hd hfound hfile
          (by rw [if_pos happ]) (hv₂ ▸ hf)
        exact hfailed s₃ own' hf
    · refine overwriteFile_sat hfuel hrel hfc hlong hdata ?_ ?_
      · intro base new r' s₃ hw
        rw [hv₂, ← Bool.eq_false_iff.mpr happ] at hw
        exact Sat.mono (storeExisting_sat hrel h hd hfound hfile href hw (by omega))
          (fun _ s' => hdone s') fun _ _ hf => hf.elim
      · intro e s₃ hf
        obtain ⟨own', hf⟩ := writeFailed_of_fileFailed h hd hfound hfile
          (by rw [if_neg happ]) (hv₂ ▸ hf)
        exact hfailed s₃ own' hf

/-- More data than a chain can hold is never written. -/
theorem fat32WriteFile_large (hfuel : env.geometry.totalClusters < env.fuel) (hrel : ¬ env.Faulty)
    (h : Sound ok env.geometry (s.volume env.geometry) D own) (hdata : 2 ^ 31 < data.length) :
    Sat (fat32WriteFile env path data append) s (fun _ _ => False) (fun _ _ => True) := by
  generalize hv : s.volume env.geometry = v at h
  refine startCall_sat hfuel hv h (fun _ _ _ => trivial) ?_
  intro cs r parentDir name parentPath s₁ hv₁ hparent hd
  have hpd : parentDir.firstCluster = dirCluster env.geometry r := by rw [hparent.ref]
  refine Sat.bind (lookupFile_sat hfuel hrel (hv₁.symm ▸ h) (hpd.symm ▸ hd) hparent.valid)
    (fun _ _ _ => trivial) ?_
  rw [hpd, hv₁]
  rintro (_ | ref) s₂ ⟨hv₂, hx⟩
  · have hfc : FileChain env.geometry s₂.fat 0 [] := .inl ⟨rfl, rfl⟩
    have hzero : clustersForSize env.geometry 0 ≤ ([] : List Nat).length :=
      Nat.le_of_eq clustersForSize_zero
    exact Sat.ite (fun _ => appendLarge_sat hfuel hfc hzero hdata)
      fun _ => overwriteLarge_sat hfuel hfc hzero hdata
  · obtain ⟨it, hfile, hfound, href⟩ := hx
    have hok := h.entryOk hd (lookup_mem hfound).1
    have hfat : s₂.fat = v.fat := congrArg Volume.fat hv₂
    simp only [href.entry]
    exact Sat.ite (fun _ => appendLarge_sat hfuel (hfat.symm ▸ hok.chain) (hok.file hfile).2 hdata)
      fun _ => overwriteLarge_sat hfuel (hfat.symm ▸ hok.chain) (hok.file hfile).2 hdata

end

end FunnyOS.Fat32
