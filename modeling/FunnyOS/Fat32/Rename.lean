import FunnyOS.Fat32.SlotMoves

/-!
# Specification of `fat32_rename`

A call that succeeds moves an entry and then, if it is a directory, writes the cluster of the new
parent into slot 1 of that directory, whatever this slot holds (`RenameDone`). Where the slots for
the new name are apart from those of the old one, and slot 1 is not an entry, the call does no more
than that to the entries of the volume (`Renamed`). A call that fails changes nothing.
-/

namespace FunnyOS.Fat32

open Prog

/-! ## The slot `..` -/

/-- The slots of a directory after `update_directory_parent`. -/
def withParent (es : List DirectoryEntry) (parent : Nat) : List DirectoryEntry :=
  es.set 1 ((es.getD 1 .zero).entrySetFirstCluster parent)

/-- Slot 1 of the directory `m` has been given another first cluster. -/
structure ParentWritten (g : Geometry) (v v' : Volume) (D : Nat → Prop) (m parent : Nat) :
    Prop where
  entries : dirEntries g v' m = withParent (dirEntries g v m) parent
  fat : v'.fat = v.fat
  others : SameDirs g v v' (fun x => D x ∧ x ≠ m)
  preserved : Preserved v v' (· ∈ clusterChain g v.fat m)

/-- Slot 1 of the directory `m` has been given another first cluster, and is not an entry. -/
structure Reparented (ok : List DirectoryEntry → Prop) (g : Geometry) (v v' : Volume)
    (D : Nat → Prop) (own : Owner → List Nat) (m parent : Nat) : Prop extends
    ParentWritten g v v' D m parent where
  sound : Sound ok g v' D own
  items : itemsOf (dirEntries g v' m) = itemsOf (dirEntries g v m)
  tight : Tight g v.fat (liveEntries g v) D own → Tight g v'.fat (liveEntries g v') D own

section

variable {ok : List DirectoryEntry → Prop} {g : Geometry} {v v' : Volume} {L : Entries}
  {D : Nat → Prop} {own : Owner → List Nat} {m parent : Nat} {e : DirectoryEntry}
  {es : List DirectoryEntry}

theorem withParent_eq (he : es[1]? = some e) :
    withParent es parent = es.set 1 (e.entrySetFirstCluster parent) := by
  rw [withParent, getD_eq_of_getElem? he]

/-- A special slot may be given another first cluster. -/
theorem withParent_special [DirRules ok] (hok : ok es) (he : es[1]? = some e)
    (hk : e.kind = .special) :
    ok (withParent es parent) ∧ itemsOf (withParent es parent) = itemsOf es := by
  rw [withParent_eq he]
  exact ⟨DirRules.special hok he hk sameName_setFirstCluster,
    itemsOf_set_special he hk sameName_setFirstCluster⟩

/-- Whatever the slot holds, the directory keeps its complete long-name sets. -/
theorem Orderly.withParent (h : Orderly es) : Orderly (withParent es parent) := by
  obtain ⟨body, tail, rfl, hbody, hlast, htail⟩ := h
  cases he : (body ++ tail)[1]? with
  | none =>
    rw [Fat32.withParent, List.set_eq_of_length_le (List.getElem?_eq_none_iff.mp he)]
    exact ⟨body, tail, rfl, hbody, hlast, htail⟩
  | some e =>
    have hsame : SameName e (e.entrySetFirstCluster parent) := sameName_setFirstCluster
    rw [withParent_eq he]
    by_cases hlt : 1 < body.length
    · rw [List.getElem?_append_left hlt] at he
      obtain ⟨hset, hfold⟩ := hbody.set (b := e.entrySetFirstCluster parent) he
        (fun next => by rw [setStep, setStep, hsame.kind_eq]; rfl)
        (fun next hok => by unfold SetOk at hok ⊢; rw [hsame.kind_eq]; exact hok)
      rw [List.set_append_left _ _ hlt]
      exact ⟨_, tail, rfl, hset, hfold.trans hlast, htail⟩
    · rw [List.getElem?_append_right (by omega)] at he
      rw [List.set_append_right _ _ (by omega)]
      refine ⟨body, _, rfl, hbody, hlast, fun x hx => ?_⟩
      rcases List.mem_or_eq_of_mem_set hx with hx | rfl
      · exact htail x hx
      · exact (name0_of_name hsame.name).trans (htail e (List.mem_of_getElem? he))

/-- A live entry in slot 1 is given the cluster, the others are kept. -/
theorem liveAt_withParent {j : Nat} : liveAt (withParent es parent) j =
    if j = 1 then (liveAt es 1).map (·.entrySetFirstCluster parent) else liveAt es j := by
  by_cases hj : j = 1
  · subst hj
    rw [if_pos rfl]
    cases he : es[1]? with
    | none =>
      rw [withParent, List.set_eq_of_length_le (List.getElem?_eq_none_iff.mp he)]
      simp [liveAt, he]
    | some e =>
      have hk : (e.entrySetFirstCluster parent).kind = e.kind := sameName_setFirstCluster.kind_eq
      have hlt := (List.getElem?_eq_some_iff.mp he).1
      rw [withParent_eq he, liveAt, List.getElem?_set_self hlt, liveAt, he]
      by_cases hlive : e.kind = .live <;> simp [Option.filter_some, hk, hlive]
  · rw [if_neg hj, withParent, liveAt, List.getElem?_set_ne (Ne.symm hj), liveAt]

theorem ParentWritten.live (h : ParentWritten g v v' D m parent) {x j : Nat} (hx : D x) :
    liveEntries g v' x j = if x = m ∧ j = 1 then
      (liveEntries g v m 1).map (·.entrySetFirstCluster parent) else liveEntries g v x j := by
  by_cases hxm : x = m
  · rw [hxm, liveEntries, h.entries, liveAt_withParent]
    simp only [true_and]
    rfl
  · rw [if_neg fun heq => hxm heq.1]
    exact h.others.liveAt_eq ⟨hx, hxm⟩ j

/-- The live entries are those that the lists of entries show. -/
theorem ParentWritten.live_eq (h : ParentWritten g v v' D m parent) (he : Ended (dirEntries g v m))
    (he' : Ended (dirEntries g v' m))
    (hitems : itemsOf (dirEntries g v' m) = itemsOf (dirEntries g v m)) {d : Nat} (hd : D d)
    (i : Nat) : liveEntries g v' d i = liveEntries g v d i := by
  by_cases hdm : d = m
  · rw [hdm]
    refine Option.ext fun x => ?_
    rw [liveEntries, liveEntries, liveAt_iff_item he', hitems, liveAt_iff_item he]
  · exact h.others.liveAt_eq ⟨hd, hdm⟩ i

/-- Where the directory stays in order, there is an account as before. -/
theorem ParentWritten.reparented [DirRules ok] (h : ParentWritten g v v' D m parent)
    (hs : Sound ok g v D own) (hm : D m) (hok : ok (withParent (dirEntries g v m) parent))
    (hitems : itemsOf (withParent (dirEntries g v m) parent) = itemsOf (dirEntries g v m)) :
    Reparented ok g v v' D own m parent := by
  rw [← h.entries] at hok hitems
  have hL : ∀ d, D d → ∀ i, liveEntries g v' d i = liveEntries g v d i := fun d hd i =>
    h.live_eq (DirRules.ended (hs.tidy hm)) (DirRules.ended hok) hitems hd i
  have hacc : Account ok g v' (liveEntries g v) D own := by
    refine ⟨h.preserved.mounted.trans hs.mounted, h.fat ▸ hs.cert, fun {d} hd => ?_⟩
    by_cases hdm : d = m
    · exact hdm ▸ hok
    · rw [(h.others d ⟨hd, hdm⟩).2]
      exact hs.tidy hd
  refine ⟨h, hacc.sound hs.settled hL, hitems, fun ht => ?_⟩
  rw [h.fat]
  exact ht.congr hL

theorem Reparented.live_eq [DirRules ok] (h : Reparented ok g v v' D own m parent)
    (hs : Sound ok g v D own) (hm : D m) {d : Nat} (hd : D d) (i : Nat) :
    liveEntries g v' d i = liveEntries g v d i :=
  h.toParentWritten.live_eq (DirRules.ended (hs.tidy hm)) (DirRules.ended (h.sound.tidy hm))
    h.items hd i

end

section

variable {env : Env} {s : State} {L : Entries} {D : Nat → Prop} {own : Owner → List Nat}
  {m parent : Nat}

/-- `update_directory_parent` on a directory of the volume. -/
theorem writeParent_sat {v : Volume} (hrel : ¬ env.Faulty) (hv : s.volume env.geometry = v)
    (h : Cert env.geometry v.fat L D own) (hm : D m) :
    Sat (updateDirectoryParent env m parent) s
      (fun _ s' => ParentWritten env.geometry v (s'.volume env.geometry) D m parent)
      (fun _ _ => False) := by
  obtain ⟨hch, hne⟩ := h.dir_chain hm
  have hfat : s.fat = v.fat := congrArg Volume.fat hv
  refine Sat.mono (updateDirectoryParent_sat hne (hfat.symm ▸ hch)) ?_ ?_
  · rintro ⟨⟩ s' hedit
    rw [hv, ← dirEntries_eq hch] at hedit
    refine ⟨?_, hedit.fat, fun d hd => ?_, hedit.preserved⟩
    · rw [dirEntries, hedit.fat]
      exact hedit.entries
    · exact hedit.preserved.sameDir (h.dir_chain hd.1).1
        fun c hc hc' => h.dirs_apart hm hd.1 (Ne.symm hd.2) hc' hc
  · rintro e s' ⟨-, -, hf⟩
    exact absurd hf hrel

end

/-! ## Results -/

/-- What the two paths of a successful call of `fat32_rename` lead to. -/
structure RenamePaths (g : Geometry) (v : Volume) (oldPath newPath : CStr) (cs cs' : List CStr)
    (r r' : Option DirectoryEntry) (name name' parentPath' : CStr) (it : Item) : Prop where
  old : ∃ parentDir parentPath, ParentOf g v oldPath cs r parentDir name parentPath
  new : ∃ parentDir, ParentOf g v newPath cs' r' parentDir name' parentPath'
  found : lookup (dirEntries g v (dirCluster g r)) name = some it
  absent : lookup (dirEntries g v (dirCluster g r')) name' = none
  guarded : it.entry.isDirectory = true → pathIsDescendantOf parentPath' oldPath = false

/-- The number of slots for the new name. -/
def newSlots (g : Geometry) (v : Volume) (r r' : Option DirectoryEntry) (name' : CStr)
    (it : Item) : Nat :=
  slotsNeeded (dirEntries g v (dirCluster g r')) name'
    (if dirCluster g r = dirCluster g r' then some it.entry.name else none)

/-- What the slot `..` of a directory with the parent `r` is given. -/
def parentCluster (g : Geometry) (r : Option DirectoryEntry) : Nat :=
  if r.isNone then 0 else dirCluster g r

/-- What a successful call of `fat32_rename` on two different paths has done, by way of the
volume `vm`. -/
structure RenameDone (ok : List DirectoryEntry → Prop) (g : Geometry) (v vm v' : Volume)
    (D : Nat → Prop) (own : Owner → List Nat) (oldPath newPath : CStr) (cs cs' : List CStr)
    (r r' : Option DirectoryEntry) (name name' parentPath' : CStr) (it : Item) : Prop extends
    RenamePaths g v oldPath newPath cs cs' r r' name name' parentPath' it where
  slots : SlotsMoved ok g v vm D own (dirCluster g r) (dirCluster g r') it name'
    (newSlots g v r r' name' it)
  parent : if it.entry.isDirectory = true then
      ParentWritten g vm v' D it.entry.entryFirstCluster (parentCluster g r')
    else v' = vm

/-- What the call has done where it loses and overwrites no entry. -/
structure Renamed (ok : List DirectoryEntry → Prop) (g : Geometry) (v vm v' : Volume)
    (D : Nat → Prop) (own own' : Owner → List Nat) (oldPath newPath : CStr)
    (cs cs' : List CStr) (r r' : Option DirectoryEntry) (name name' parentPath' : CStr)
    (it it' : Item) : Prop extends
    RenamePaths g v oldPath newPath cs cs' r r' name name' parentPath' it where
  moved : Moved ok g v vm D own own' (dirCluster g r) (dirCluster g r') it it' name'
  parent : if it.entry.isDirectory = true then
      Reparented ok g vm v' D own' it.entry.entryFirstCluster (parentCluster g r')
    else v' = vm

/-- The directory that the entry is taken from is snug, and if the entry is a directory, its slot 1
is special. -/
def RenameSafe (g : Geometry) (v : Volume) (oldPath : CStr) : Prop :=
  ∀ cs r parentDir name parentPath it, ParentOf g v oldPath cs r parentDir name parentPath →
    lookup (dirEntries g v (dirCluster g r)) name = some it →
    Snug (dirEntries g v (dirCluster g r)) ∧ (it.entry.isDirectory = true →
      ∃ e, (dirEntries g v it.entry.entryFirstCluster)[1]? = some e ∧ e.kind = .special)

section

variable {ok : List DirectoryEntry → Prop} {g : Geometry} {v vm v' : Volume}
  {D : Nat → Prop} {own : Owner → List Nat} {oldPath newPath : CStr} {cs cs' : List CStr}
  {r r' : Option DirectoryEntry} {name name' parentPath' : CStr} {d d' count : Nat} {it : Item}

theorem RenamePaths.mem (h : RenamePaths g v oldPath newPath cs cs' r r' name name' parentPath' it)
    (hs : Sound ok g v D own) :
    D (dirCluster g r) ∧ D (dirCluster g r') ∧ it ∈ itemsOf (dirEntries g v (dirCluster g r)) := by
  obtain ⟨_, _, hold⟩ := h.old
  obtain ⟨_, hnew⟩ := h.new
  exact ⟨hs.dir_of_resolve hold.resolved hold.dir, hs.dir_of_resolve hnew.resolved hnew.dir,
    (lookup_mem h.found).1⟩

/-- Whatever has become of the entry, the clusters are accounted for. -/
theorem SlotsMoved.cert (h : SlotsMoved ok g v v' D own d d' it name count)
    (hs : Sound ok g v D own) : ∃ L own', Cert g v'.fat L D own' := by
  cases h with
  | moved _ own' it' entry => exact ⟨_, own', entry.sound.cert⟩
  | lost _ _ entry =>
    exact ⟨_, _, entry.fat ▸ hs.cert.take hs.settled (liveEntries_item entry.mem)⟩

theorem Renamed.sound {own' : Owner → List Nat} {it' : Item}
    (h : Renamed ok g v vm v' D own own' oldPath newPath cs cs' r r' name name' parentPath' it
      it') : Sound ok g v' D own' := by
  have hparent := h.parent
  split at hparent
  · exact hparent.sound
  · rw [hparent]
    exact h.moved.sound

/-- The entry is in place where the new slots are apart from the old ones, and slot 1 of a
directory is not an entry. -/
theorem RenameDone.renamed [DirRules ok]
    (h : RenameDone ok g v vm v' D own oldPath newPath cs cs' r r' name name' parentPath' it)
    (hs : Sound ok g v D own)
    (hapart : ¬ (dirCluster g r = dirCluster g r' ∧
      OverlapsOld (dirEntries g v (dirCluster g r)) it (newSlots g v r r' name' it)))
    (hslot : ∀ own' it', Moved ok g v vm D own own' (dirCluster g r) (dirCluster g r') it it' name' →
      it.entry.isDirectory = true →
      ok (withParent (dirEntries g vm it.entry.entryFirstCluster) (parentCluster g r')) ∧
        itemsOf (withParent (dirEntries g vm it.entry.entryFirstCluster) (parentCluster g r'))
          = itemsOf (dirEntries g vm it.entry.entryFirstCluster)) :
    ∃ own' it', Renamed ok g v vm v' D own own' oldPath newPath cs cs' r r' name name' parentPath'
      it it' := by
  obtain ⟨hd, -, hit⟩ := h.mem hs
  cases h.slots with
  | lost same overlap entry => exact absurd ⟨same, overlap⟩ hapart
  | moved _ own' it' entry =>
    refine ⟨own', it', h.toRenamePaths, entry, ?_⟩
    have hparent := h.parent
    split at hparent
    · next hdir =>
        obtain ⟨hok, hitems⟩ := hslot own' it' entry hdir
        rw [if_pos hdir]
        exact hparent.reparented entry.sound (hs.subdir hd hit hdir) hok hitems
    · next hfile =>
        rw [if_neg hfile]
        exact hparent

/-- In a directory in shape it is. -/
theorem RenameDone.renamed_of_safe [TidyRules ok]
    (h : RenameDone ok g v vm v' D own oldPath newPath cs cs' r r' name name' parentPath' it)
    (hs : Sound ok g v D own) (hsafe : RenameSafe g v oldPath) :
    ∃ own' it', Renamed ok g v vm v' D own own' oldPath newPath cs cs' r r' name name' parentPath'
      it it' := by
  obtain ⟨hd, -, hit⟩ := h.mem hs
  obtain ⟨_, _, hold⟩ := h.old
  obtain ⟨hsnug, hdots⟩ := hsafe _ _ _ _ _ _ hold h.found
  refine h.renamed hs (fun hover => ?_) fun own' it' hm hdir => ?_
  · exact hsnug.not_overlaps (TidyRules.tidy (hs.tidy hd)) hit hover.2
  · obtain ⟨e, he, hk⟩ := hdots hdir
    have hsub := hs.subdir hd hit hdir
    exact withParent_special (hm.sound.tidy hsub) ((hm.shape _ hsub).special he hk) hk

end

/-! ## The whole operation -/

section

variable {ok : List DirectoryEntry → Prop} [DirRules ok] {env : Env} {s : State}
  {D : Nat → Prop} {own : Owner → List Nat} {oldPath newPath : CStr}

/-- What `fat32_rename` has found out when it starts to write. -/
structure RenameCall (env : Env) (v : Volume) (oldPath newPath : CStr) (cs cs' : List CStr)
    (r r' : Option DirectoryEntry) (parentDir parentDir' : DirectoryRef)
    (name name' parentPath parentPath' : CStr) (it : Item) (ref : EntryRef) : Prop where
  old : ParentOf env.geometry v oldPath cs r parentDir name parentPath
  new : ParentOf env.geometry v newPath cs' r' parentDir' name' parentPath'
  found : lookup (dirEntries env.geometry v (dirCluster env.geometry r)) name = some it
  ref : RefTo env (dirEntries env.geometry v (dirCluster env.geometry r))
    (dirCluster env.geometry r) it ref
  absent : lookup (dirEntries env.geometry v (dirCluster env.geometry r')) name' = none
  guarded : it.entry.isDirectory = true → pathIsDescendantOf parentPath' oldPath = false

/-- How `fat32_rename` begins. -/
theorem renameCall_sat {Q : Unit → State → Prop}
    {E : Fat32Result → State → Prop} (hfuel : env.geometry.totalClusters < env.fuel)
    (hrel : ¬ env.Faulty) {v : Volume} (hv : s.volume env.geometry = v)
    (h : Sound ok env.geometry v D own)
    (hsame : oldPath = newPath → ∀ s' : State, s'.volume env.geometry = v → Q () s')
    (herr : ∀ e (s' : State), s'.volume env.geometry = v → E e s')
    (hk : ∀ cs cs' r r' parentDir parentDir' name name' parentPath parentPath' it ref,
      RenameCall env v oldPath newPath cs cs' r r' parentDir parentDir' name name' parentPath
        parentPath' it ref → ∀ shortName new (s' : State), s'.volume env.geometry = v →
      NameBuilt env (dirEntries env.geometry v (dirCluster env.geometry r')) name'
        it.entry.attributes it.entry.entryFirstCluster it.entry.size
        (if parentDir = parentDir' then some it.entry.name else none) shortName new →
      Sat (do
        moveEntrySlots env parentDir parentDir' ref new
        if it.entry.isDirectory then
          updateDirectoryParent env it.entry.entryFirstCluster
            (if parentDir'.isRoot then 0 else parentDir'.firstCluster)
        else pure ()) s' Q E) :
    Sat (fat32Rename env oldPath newPath) s Q E := by
  unfold fat32Rename
  refine Sat.bind (checkMounted_sat ((congrArg Volume.mounted hv).trans h.mounted))
    (fun _ _ h => h.elim) ?_
  rintro ⟨⟩ s₀ rfl
  refine Sat.ite (fun heq => Sat.pure (hsame heq _ hv)) (fun _ => ?_)
  refine Sat.bind (lookupParentAndName_sat hfuel (hv.symm ▸ h))
    (fun e _ hs' => herr e _ (hs'.trans hv)) ?_
  rintro ⟨parentDir, name, parentPath⟩ s₁ ⟨hv₁, cs, r, hold⟩
  rw [hv] at hv₁ hold
  refine Sat.bind (lookupParentAndName_sat hfuel (hv₁.symm ▸ h))
    (fun e _ hs' => herr e _ (hs'.trans hv₁)) ?_
  rintro ⟨parentDir', name', parentPath'⟩ s₂ ⟨hv₂, cs', r', hnew⟩
  rw [hv₁] at hv₂ hnew
  simp only at hold hnew ⊢
  have hd := h.dir_of_resolve hold.resolved hold.dir
  have hd' := h.dir_of_resolve hnew.resolved hnew.dir
  have hpd : parentDir.firstCluster = dirCluster env.geometry r := by rw [hold.ref]
  have hpd' : parentDir'.firstCluster = dirCluster env.geometry r' := by rw [hnew.ref]
  refine Sat.bind (lookup_sat hfuel (hv₂.symm ▸ h) (hpd.symm ▸ hd) hold.valid)
    (fun e _ h' => herr e _ (h'.1.trans hv₂)) ?_
  rintro ref s₃ ⟨hv₃, it, hfound, href⟩
  rw [hv₂] at hv₃ hfound href
  rw [hpd] at hfound href
  simp only [href.entry]
  refine Sat.ite (fun _ => Sat.raise (herr _ _ hv₃)) (fun hguard => ?_)
  refine Sat.bind (Sat.attempt (R := fun x (s' : State) => s'.volume env.geometry = v ∧
      caught (fun _ => True) (fun e : Fat32Result => e = .notFound ∧
        lookup (dirEntries env.geometry v (dirCluster env.geometry r')) name' = none) x)
    (E := fun _ _ => False) (lookup_sat hfuel (hv₃.symm ▸ h) (hpd'.symm ▸ hd') hnew.valid)
    (fun ref s' h' => ⟨h'.1.trans hv₃, trivial⟩) ?_) (fun _ _ h => h.elim) ?_
  · rintro e s' ⟨hv', ⟨rfl, hnone⟩ | ⟨-, hf⟩⟩
    · exact ⟨hv'.trans hv₃, rfl, hpd' ▸ hv₃ ▸ hnone⟩
    · exact absurd hf hrel
  rintro (e | ref') s₄ ⟨hv₄, hx⟩
  swap
  · exact Sat.raise (herr _ _ hv₄)
  obtain ⟨rfl, habsent⟩ := hx
  refine Sat.ite (fun hne => absurd rfl hne) fun _ => ?_
  -- the slots of the new name
  obtain ⟨hch', -⟩ := h.cert.dir_chain hd'
  have hfat₄ : s₄.fat = v.fat := congrArg Volume.fat hv₄
  refine Sat.bind (buildNameEntries_sat hfuel (by rw [hpd', hfat₄]; exact hch') hnew.valid)
    (fun _ _ h => h.elim) ?_
  rintro new s₅ ⟨hv₅, shortName, hbuilt⟩
  rw [hv₄] at hv₅ hbuilt
  exact hk cs cs' r r' parentDir parentDir' name name' parentPath parentPath' it ref
    ⟨hold, hnew, hfound, href, habsent,
      fun hdir => Bool.eq_false_iff.mpr fun hp => hguard ⟨hdir, hp⟩⟩ shortName new s₅ hv₅ hbuilt

theorem RenameCall.paths {v : Volume} {cs cs' : List CStr} {r r' : Option DirectoryEntry}
    {parentDir parentDir' : DirectoryRef} {name name' parentPath parentPath' : CStr} {it : Item}
    {ref : EntryRef} (h : RenameCall env v oldPath newPath cs cs' r r' parentDir parentDir' name
      name' parentPath parentPath' it ref) :
    RenamePaths env.geometry v oldPath newPath cs cs' r r' name name' parentPath' it :=
  ⟨⟨_, _, h.old⟩, ⟨_, h.new⟩, h.found, h.absent, h.guarded⟩

/-- `fat32_rename` on a device that works. -/
theorem fat32Rename_sat (hfuel : env.geometry.totalClusters < env.fuel) (hrel : ¬ env.Faulty)
    {v : Volume} (hv : s.volume env.geometry = v) (h : Sound ok env.geometry v D own) :
    Sat (fat32Rename env oldPath newPath) s
      (fun _ s' => oldPath = newPath ∧ s'.volume env.geometry = v ∨
        ∃ vm cs cs' r r' name name' parentPath' it,
          RenameDone ok env.geometry v vm (s'.volume env.geometry) D own oldPath newPath cs cs'
            r r' name name' parentPath' it)
      (fun _ s' => s'.volume env.geometry = v) := by
  refine renameCall_sat hfuel hrel hv h (fun heq s' hv' => .inl ⟨heq, hv'⟩)
    (fun _ _ hv' => hv') ?_
  intro cs cs' r r' parentDir parentDir' name name' parentPath parentPath' it ref hcall shortName
    new s₅ hv₅ hbuilt
  have hold := hcall.old
  have hnew := hcall.new
  obtain ⟨hd, hd', hit⟩ := hcall.paths.mem h
  have hpd : parentDir.firstCluster = dirCluster env.geometry r := by rw [hold.ref]
  have hpd' : parentDir'.firstCluster = dirCluster env.geometry r' := by rw [hnew.ref]
  have hpr : parentDir'.isRoot = r'.isNone := by rw [hnew.ref]
  have hiff : parentDir = parentDir' ↔ dirCluster env.geometry r = dirCluster env.geometry r' := by
    rw [hold.ref, hnew.ref]
    exact h.dirRef_eq_iff hold.resolved hnew.resolved
  have hattr : LiveAttributes it.entry.attributes := by
    have hlive := DirectoryEntry.kind_eq_live.mp (mem_dirItems hit).1
    exact ⟨hlive.2.2.1, hlive.2.2.2.1⟩
  have hunused := hbuilt.unused_entry hrel
  have hlen := hbuilt.length.resolve_right hrel
  rw [if_congr hiff rfl rfl] at hunused hlen
  have hf : SameFields it.entry (buildShortEntry shortName it.entry.attributes
      it.entry.entryFirstCluster it.entry.size) :=
    ⟨buildShortEntry_attributes, buildShortEntry_first (h.entryOk hd hit).chain.first_lt,
      buildShortEntry_size DirectoryEntry.size_lt⟩
  refine Sat.bind (moveEntrySlots_sat hfuel hrel hv₅ h hd hd' hpd hpd' hiff hit hcall.ref
    (hbuilt.entries.block hnew.valid hattr) hf hunused) (fun _ _ h => h) ?_
  rintro ⟨⟩ s₆ hslots
  rw [hlen] at hslots
  refine Sat.ite (fun hdir => ?_) (fun hdir => Sat.pure ?_)
  · obtain ⟨L, own', hcert⟩ := hslots.cert h
    rw [hpr, hpd']
    refine Sat.mono (writeParent_sat hrel rfl hcert (h.subdir hd hit hdir)) ?_ (fun _ _ h => h.elim)
    rintro ⟨⟩ s₇ hparent
    exact .inr ⟨s₆.volume env.geometry, cs, cs', r, r', name, name', parentPath', it,
      hcall.paths, hslots, by rwa [if_pos hdir]⟩
  · exact .inr ⟨s₆.volume env.geometry, cs, cs', r, r', name, name', parentPath', it,
      hcall.paths, hslots, by rw [if_neg hdir]⟩

end

/-- `fat32_rename` where the directories are in shape. -/
theorem fat32Rename_sat_of_safe {ok : List DirectoryEntry → Prop} [TidyRules ok] {env : Env}
    {s : State} {D : Nat → Prop} {own : Owner → List Nat} {oldPath newPath : CStr}
    (hfuel : env.geometry.totalClusters < env.fuel) (hrel : ¬ env.Faulty) {v : Volume}
    (hv : s.volume env.geometry = v) (h : Sound ok env.geometry v D own)
    (hsafe : RenameSafe env.geometry v oldPath) :
    Sat (fat32Rename env oldPath newPath) s
      (fun _ s' => oldPath = newPath ∧ s'.volume env.geometry = v ∨
        ∃ vm own' cs cs' r r' name name' parentPath' it it',
          Renamed ok env.geometry v vm (s'.volume env.geometry) D own own' oldPath newPath cs cs'
            r r' name name' parentPath' it it')
      (fun _ s' => s'.volume env.geometry = v) := by
  refine Sat.mono (fat32Rename_sat hfuel hrel hv h) ?_ (fun _ _ hv' => hv')
  rintro ⟨⟩ s' (hsame | ⟨vm, cs, cs', r, r', name, name', parentPath', it, hdone⟩)
  · exact .inl hsame
  · obtain ⟨own', it', hr⟩ := hdone.renamed_of_safe h hsafe
    exact .inr ⟨vm, own', cs, cs', r, r', name, name', parentPath', it, it', hr⟩

end FunnyOS.Fat32
