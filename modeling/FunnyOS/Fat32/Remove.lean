import FunnyOS.Fat32.EntrySpec

/-!
# Specification of `fat32_remove`

A call that succeeds deletes the slots of one entry and frees its clusters. A directory is removed
only when it has no entries. A call that fails changes nothing.
-/

namespace FunnyOS.Fat32

open Prog

/-- The directories without the one that an entry names, if it names one. -/
def without (D : Nat → Prop) (e : DirectoryEntry) : Nat → Prop :=
  fun d => D d ∧ ¬ (e.isDirectory = true ∧ d = e.entryFirstCluster)

/-- The entry `it` of directory `d` has been removed. -/
structure Removed (ok : List DirectoryEntry → Prop) (g : Geometry) (v v' : Volume)
    (D : Nat → Prop) (own : Owner → List Nat) (d : Nat) (it : Item) : Prop where
  mem : it ∈ itemsOf (dirEntries g v d)
  keeps : without D it.entry d
  sound : Sound ok g v' (without D it.entry) (Function.update own (.slot d it.index) [])
  slots : dirEntries g v' d = deleteSpan (dirEntries g v d)
    (it.index - it.lfnCount (dirEntries g v d)) (it.lfnCount (dirEntries g v d) + 1)
  chain : clusterChain g v'.fat d = clusterChain g v.fat d
  others : SameDirs g v v' (fun d' => without D it.entry d' ∧ d' ≠ d)
  fat : v'.fat = clearLinks v.fat (own (.slot d it.index))
  empty : it.entry.isDirectory = true → itemsOf (dirEntries g v it.entry.entryFirstCluster) = []
  preserved : Preserved v v' (fun c => c ∈ own (.slot d it.index) ∨ c ∈ clusterChain g v.fat d)
  tight : Tight g v.fat (liveEntries g v) D own →
    Tight g v'.fat (liveEntries g v') (without D it.entry)
      (Function.update own (.slot d it.index) [])

section

variable {ok : List DirectoryEntry → Prop} {g : Geometry} {v v₁ v' : Volume}
  {L : Entries} {D : Nat → Prop} {own : Owner → List Nat} {d : Nat} {it : Item}

theorem Removed.liveAt_eq (h : Removed ok g v v' D own d it) (i : Nat) :
    liveAt (dirEntries g v' d) i
      = if i = it.index then none else liveAt (dirEntries g v d) i := by
  rw [h.slots, liveAt_removed h.mem]

theorem Removed.removed [TidyRules ok] (h : Removed ok g v v' D own d it)
    (hs : Sound ok g v D own) : ItemRemoved (dirEntries g v d) (dirEntries g v' d) it := by
  rw [h.slots]
  exact (itemRemoved_deleteSpan (TidyRules.tidy (hs.tidy h.keeps.1)) h.mem).2

/-- A pending chain that belonged to a file or an empty directory starts at no directory. -/
theorem Account.withoutEntry (h : Account ok g v L D own) {e : DirectoryEntry}
    (hchain : FileChain g v.fat e.entryFirstCluster (own .pending))
    (hdir : e.isDirectory = true → own .pending ≠ [] ∧ ∀ i, L e.entryFirstCluster i = none)
    (hfile : e.isDirectory = false → ∀ d' l, own .pending = d' :: l → ¬ D d') :
    Account ok g v L (without D e) own ∧
      ∀ d' l, own .pending = d' :: l → ¬ without D e d' := by
  cases hd : e.isDirectory with
  | false =>
    have heq : without D e = D := by
      funext d'
      simp [without, hd]
    rw [heq]
    exact ⟨h, hfile hd⟩
  | true =>
    obtain ⟨hne, hnone⟩ := hdir hd
    obtain ⟨l, hl⟩ := Chain.eq_cons (hchain.chain_of_ne_nil hne) hne
    have heq : without D e = fun d' => D d' ∧ d' ≠ e.entryFirstCluster := by
      funext d'
      simp [without, hd]
    rw [heq]
    refine ⟨h.removeDir hl hnone, fun d' l' hl' hd' => hd'.2 ?_⟩
    rw [hl] at hl'
    exact (List.cons.inj hl').1.symm

/-- The slots of the entry are deleted, and its chain is set free. -/
theorem removed_of_edited [DirRules ok] (h : Sound ok g v D own) (hd : D d)
    (hit : it ∈ itemsOf (dirEntries g v d))
    (hempty : it.entry.isDirectory = true →
      itemsOf (dirEntries g v it.entry.entryFirstCluster) = [])
    (hedit : Edited g v v₁ (clusterChain g v.fat d) (deleteSpan (dirEntries g v d)
      (it.index - it.lfnCount (dirEntries g v d)) (it.lfnCount (dirEntries g v d) + 1)))
    (hv : v' = v₁.setFat (clearLinks v₁.fat (own (.slot d it.index)))) :
    Removed ok g v v' D own d it := by
  have hlive := liveEntries_item hit
  have hentry := h.entryOk hd hit
  have hacc₀ := h.toAccount.take h.settled hlive
  obtain ⟨hacc₁, hchain₁, hes₁, hsame₁⟩ := hacc₀.edit hd hedit (DirRules.delete (h.tidy hd) hit)
  have hne : ¬ (it.entry.isDirectory = true ∧ d = it.entry.entryFirstCluster) := by
    rintro ⟨hdir, heq⟩
    rw [heq, hempty hdir] at hit
    simp at hit
  have hL : ∀ d', D d' → ∀ j, liveAt (dirEntries g v₁ d') j
      = (liveEntries g v).put d it.index none d' j :=
    hsame₁.live_put (fun _ _ _ => rfl) fun j => by rw [hes₁, liveAt_removed hit]
  have hempty' : it.entry.isDirectory = true →
      ∀ i, (liveEntries g v).put d it.index none it.entry.entryFirstCluster i = none := by
    intro hdir i
    rw [Entries.put_other fun heq => hne ⟨hdir, heq.1.symm⟩]
    refine Option.eq_none_iff_forall_ne_some.mpr fun e he => ?_
    obtain ⟨it', hit', -⟩ := (h.live_iff_item (h.subdir hd hit hdir)).mp he
    simp [hempty hdir] at hit'
  have hfile : it.entry.isDirectory = false → ∀ d' l,
      takeChain own d it.index .pending = d' :: l → ¬ D d' := by
    rw [takeChain_pending]
    exact h.cert.file_head h.settled hd hlive
  obtain ⟨hacc₂, hhead⟩ := hacc₁.withoutEntry (e := it.entry)
    (by rw [takeChain_pending, hedit.fat]; exact hentry.chain)
    (fun hdir => ⟨by rw [takeChain_pending]; exact hentry.dir hdir, hempty' hdir⟩) hfile
  have hre : Rewritten g v₁ v' (takeChain own d it.index .pending) [] 0 := by
    rw [takeChain_pending, hv]
    exact (Reallocated.of_links Relinked.clear).rewritten
  obtain ⟨hacc₃, hsame₃, -⟩ := hacc₂.rewrite hre hhead
  have hown : Function.update (takeChain own d it.index) .pending []
      = Function.update own (.slot d it.index) [] := by
    funext o
    rcases o with _ | ⟨d', i'⟩ | _
    · simp
    · by_cases hs : d' = d ∧ i' = it.index
      · obtain ⟨rfl, rfl⟩ := hs
        simp
      · rw [updatePending_slot, takeChain_other hs, Function.update_of_ne]
        intro heq
        exact hs (Owner.slot.inj heq)
    · rw [Function.update_self, Function.update_of_ne (by simp), h.settled]
  rw [hown] at hacc₃
  have hfat : v'.fat = clearLinks v.fat (own (.slot d it.index)) := by
    rw [hv, Volume.setFat_fat, hedit.fat]
  have hpend : Function.update own (.slot d it.index) [] .pending = [] := by
    rw [Function.update_of_ne (by simp), h.settled]
  have hL' : ∀ d', without D it.entry d' → ∀ j, liveAt (dirEntries g v' d') j
      = (liveEntries g v).put d it.index none d' j := fun d' hd' j => by
    rw [(hsame₃ d' hd').2, hL d' hd'.1]
  have hkeeps : without D it.entry d := ⟨hd, hne⟩
  obtain ⟨hchain₃, hes₃⟩ := hsame₃ d hkeeps
  refine ⟨hit, hkeeps, hacc₃.sound hpend hL', hes₃.trans hes₁, hchain₃.trans hchain₁, ?_, hfat,
    hempty, ?_, fun ht => ?_⟩
  · exact (hsame₁.mono fun d' h => ⟨h.1.1, h.2⟩).trans (hsame₃.mono fun _ h => h.1)
  · refine (hedit.preserved.mono fun c hc => .inr (.inr hc)).trans
      (hre.preserved.mono fun c hc => ?_) fun c hc => .inr hc
    rw [takeChain_pending] at hc
    exact .inr (.inl hc)
  · have ht₁ : Tight g v.fat ((liveEntries g v).put d it.index none) (without D it.entry)
        (takeChain own d it.index) := (ht.take h.settled).mono fun d' hd' => hd'.1
    have hlinks : Relinked g v.fat v'.fat (takeChain own d it.index .pending) [] 0 := by
      rw [hfat, takeChain_pending]
      exact Relinked.clear
    exact hown ▸ (ht₁.relink hlinks fun _ _ _ h => absurd h (by simp)).congr hL'

end

section

variable {ok : List DirectoryEntry → Prop} [DirRules ok] {env : Env} {s : State}
  {L : Entries} {D : Nat → Prop} {own : Owner → List Nat} {path : CStr} {d : Nat}

omit [DirRules ok] in
/-- `mark_entry_deleted` on an entry of the directory. -/
theorem markEntryDeleted_sat {ref : EntryRef} (hrel : ¬ env.Faulty)
    (h : Account ok env.geometry (s.volume env.geometry) L D own) (hd : D d)
    (hdir : ref.directoryFirstCluster = d)
    (hlt : ref.entryIndex < (dirEntries env.geometry (s.volume env.geometry) d).length)
    (hle : ref.lfnEntryCount ≤ ref.entryIndex) :
    Sat (markEntryDeleted env ref) s
      (fun _ s' => Edited env.geometry (s.volume env.geometry) (s'.volume env.geometry)
        (clusterChain env.geometry s.fat d)
        (deleteSpan (dirEntries env.geometry (s.volume env.geometry) d)
          (ref.entryIndex - ref.lfnEntryCount) (ref.lfnEntryCount + 1)))
      (fun _ _ => False) := by
  obtain ⟨hch, -⟩ := h.cert.dir_chain hd
  unfold markEntryDeleted
  rw [hdir]
  rw [dirEntries_eq hch] at hlt ⊢
  refine Sat.mono (markEntryRangeDeleted_sat hch (by omega)) (fun _ _ h => h) ?_
  rintro e s' ⟨-, hf, -⟩
  exact absurd hf hrel

/-- The steps of `fat32_remove` behind its checks. -/
theorem removeEntry_sat {v : Volume} {it : Item} {ref : EntryRef}
    (hfuel : env.geometry.totalClusters < env.fuel) (hrel : ¬ env.Faulty)
    (hv : s.volume env.geometry = v) (h : Sound ok env.geometry v D own) (hd : D d)
    (hit : it ∈ itemsOf (dirEntries env.geometry v d))
    (href : RefTo env (dirEntries env.geometry v d) d it ref)
    (hempty : it.entry.isDirectory = true →
      itemsOf (dirEntries env.geometry v it.entry.entryFirstCluster) = []) :
    Sat (do
      markEntryDeleted env ref
      if 2 ≤ it.entry.entryFirstCluster then
        freeClusterChainInMemory env it.entry.entryFirstCluster
      else pure ()
      if ← flushFat env then pure () else raise .ioError) s
      (fun _ s' => Removed ok env.geometry v (s'.volume env.geometry) D own d it)
      (fun _ _ => False) := by
  have hok := h.entryOk hd hit
  have hcount := href.count.resolve_right hrel
  obtain ⟨hle, hentry, -, -⟩ := item_span hit
  have hlt := (List.getElem?_eq_some_iff.mp hentry).1
  refine Sat.bind (markEntryDeleted_sat hrel (hv.symm ▸ h.toAccount) hd href.directory
    (by rw [href.index, hv]; exact hlt) (by rw [href.index, hcount]; exact hle))
    (fun _ _ h => h.elim) ?_
  rintro ⟨⟩ s₁ hedit
  have hfat : s.fat = v.fat := congrArg Volume.fat hv
  rw [hv, hfat, href.index, hcount] at hedit
  have hfat₁ : s₁.fat = v.fat := hedit.fat
  have hflush : ∀ s₂ : State, s₂.volume env.geometry = (s₁.volume env.geometry).setFat
        (clearLinks s₁.fat (own (.slot d it.index))) →
      Sat (do if ← flushFat env then pure () else raise .ioError) s₂
        (fun _ s' => Removed ok env.geometry v (s'.volume env.geometry) D own d it)
        (fun _ _ => False) := by
    intro s₂ hv₂
    refine Sat.bind flushFat_sat (fun _ _ h => h.elim) ?_
    rintro (_ | _) s₃ ⟨hv₃, hf⟩
    · exact absurd (hf rfl) hrel
    refine Sat.ite (fun _ => Sat.pure ?_) (fun hne => absurd rfl hne)
    exact removed_of_edited h hd hit hempty hedit (hv₃.trans hv₂)
  rcases hok.chain with ⟨hnil, hfirst⟩ | ⟨hne, hch⟩
  · refine Sat.ite (fun h2 => by omega) (fun _ => hflush s₁ ?_)
    rw [hnil, clearLinks_nil]
    rfl
  · have hvalid := (env.geometry.isValidDataCluster_iff.mp (hch.head_valid hne)).1
    refine Sat.ite (fun _ => ?_) (fun h2 => absurd hvalid h2)
    exact Sat.bind (freeClusterChainInMemory_sat hfuel (hfat₁.symm ▸ hch))
      (fun _ _ h => h.elim) fun _ s₂ hv₂ => hflush s₂ hv₂

/-- `fat32_remove` on a device that works. -/
theorem fat32Remove_sat (hfuel : env.geometry.totalClusters < env.fuel) (hrel : ¬ env.Faulty)
    {v : Volume} (hv : s.volume env.geometry = v) (h : Sound ok env.geometry v D own) :
    Sat (fat32Remove env path) s
      (fun _ s' => ∃ cs r parentDir name parentPath it,
        ParentOf env.geometry v path cs r parentDir name parentPath ∧
        lookup (dirEntries env.geometry v (dirCluster env.geometry r)) name = some it ∧
        Removed ok env.geometry v (s'.volume env.geometry) D own (dirCluster env.geometry r) it)
      (fun _ s' => s'.volume env.geometry = v) := by
  unfold fat32Remove
  refine startCall_sat hfuel hv h (fun e s' hs' => hs') ?_
  intro cs r parentDir name parentPath s₁ hv₁ hparent hd
  have hpd : parentDir.firstCluster = dirCluster env.geometry r := by rw [hparent.ref]
  simp only
  rw [hpd]
  refine Sat.bind (lookup_sat hfuel (hv₁.symm ▸ h) hd hparent.valid)
    (fun e s' h' => h'.1.trans hv₁) ?_
  rintro ref s₂ ⟨hv₂, it, hfound, href⟩
  rw [hv₁] at hv₂ hfound href
  have hit := (lookup_mem hfound).1
  rw [href.entry]
  refine Sat.ite (fun hdir => ?_) (fun hdir => ?_)
  · -- a directory must have no entries
    have hsub := h.subdir hd hit hdir
    obtain ⟨hch, -⟩ := h.cert.dir_chain hsub
    have hfat : s₂.fat = v.fat := congrArg Volume.fat hv₂
    refine Sat.bind (directoryIsEmpty_sat hfuel (hfat.symm ▸ hch)) (fun _ _ h => h.elim) ?_
    rintro b s₃ ⟨hv₃, hb, -⟩
    refine Sat.ite (fun hbt => ?_) (fun _ => Sat.raise (hv₃.trans hv₂))
    refine Sat.mono (removeEntry_sat hfuel hrel (hv₃.trans hv₂) h hd hit href fun _ => ?_)
      (fun _ s' hr => ⟨cs, r, parentDir, name, parentPath, it, hparent, hfound, hr⟩)
      (fun _ _ h => h.elim)
    by_contra hne
    refine hb hbt ?_
    rw [hv₂, hfat, ← dirEntries_eq hch]
    exact scanForContent_eq.mpr hne
  · exact Sat.mono (removeEntry_sat hfuel hrel hv₂ h hd hit href fun h => absurd h hdir)
      (fun _ s' hr => ⟨cs, r, parentDir, name, parentPath, it, hparent, hfound, hr⟩)
      (fun _ _ h => h.elim)

end

end FunnyOS.Fat32
