import FunnyOS.Fat32.DotSlots
import FunnyOS.Fat32.Moves

/-!
# A FAT that trails

The FAT on disk may trail the one in memory: a write that runs out of space has linked clusters
behind a file that the disk does not know of. What it lacks are clusters behind the end of files
(`Trails`), and a call that flushes nothing leaves it so.
-/

namespace FunnyOS.Fat32

open Prog

/-! ## Accounts on another FAT -/

section

variable {ok : List DirectoryEntry → Prop} {g : Geometry} {v v' w : Volume}
  {D : Nat → Prop} {L : Entries} {own : Owner → List Nat} {fat : Nat → Nat} {d i : Nat}

/-- An account depends on the FAT and on the slots of the directories. -/
theorem Account.transfer (h : Account ok g w L D own) (w' : Volume)
    (hmounted : w'.mounted = true)
    (hfat : w'.fat = w.fat) (htidy : ∀ d, D d → ok (dirEntries g w' d)) :
    Account ok g w' L D own := ⟨hmounted, hfat.symm ▸ h.cert, fun hd => htidy _ hd⟩

theorem Sound.transfer [DirRules ok] (h : Sound ok g w D own) (w' : Volume)
    (hmounted : w'.mounted = true)
    (hfat : w'.fat = w.fat) (hes : ∀ d, D d → dirEntries g w' d = dirEntries g w d) :
    Sound ok g w' D own := by
  refine (h.toAccount.transfer w' hmounted hfat fun d hd => ?_).sound h.settled fun d hd i => ?_
  · rw [hes d hd]
    exact h.tidy hd
  · rw [hes d hd]
    rfl

/-- A directory whose chain is the same has the same slots. -/
theorem dirEntries_setFat (h : clusterChain g fat d = clusterChain g v.fat d) :
    dirEntries g (v.setFat fat) d = dirEntries g v d := by
  unfold dirEntries
  rw [Volume.setFat_fat, h]
  rfl

end

/-! ## A FAT that trails -/

/-- `fat` is the FAT of a volume with an account, and lacks of the FAT of `v` only clusters at the
ends of files. -/
structure Trails (ok : List DirectoryEntry → Prop) (g : Geometry) (v : Volume)
    (D : Nat → Prop) (fat : Nat → Nat) : Prop where
  sound : ∃ own, Sound ok g (v.setFat fat) D own
  dirs : ∀ d, D d → clusterChain g fat d = clusterChain g v.fat d
  files : ∀ d i e, D d → liveEntries g v d i = some e →
    clusterChain g fat e.entryFirstCluster <+: clusterChain g v.fat e.entryFirstCluster

section

variable {ok : List DirectoryEntry → Prop} {g : Geometry} {v vm v' : Volume}
  {D : Nat → Prop} {own own' : Owner → List Nat} {fat : Nat → Nat}

theorem Trails.refl (h : Sound ok g v D own) : Trails ok g v D v.fat :=
  ⟨⟨own, h⟩, fun _ _ => rfl, fun _ _ _ _ _ => List.prefix_refl _⟩

/-- The slots of the directories are the same with either FAT. -/
theorem Trails.entries (h : Trails ok g v D fat) {d : Nat} (hd : D d) :
    dirEntries g (v.setFat fat) d = dirEntries g v d := dirEntries_setFat (h.dirs d hd)

theorem Trails.live (h : Trails ok g v D fat) {d : Nat} (hd : D d) (i : Nat) :
    liveEntries g (v.setFat fat) d i = liveEntries g v d i := by
  rw [liveEntries, h.entries hd]
  rfl

/-- Nobody can tell which of the two FATs is in memory. -/
theorem Trails.untouched [DirRules ok] (h : Trails ok g v D fat) (hs : Sound ok g v D own) :
    ∃ own₀, Sound ok g (v.setFat fat) D own₀ ∧ Untouched ok g (v.setFat fat) v D own₀ own := by
  obtain ⟨own₀, hs₀⟩ := h.sound
  have hchains : ∀ o, own₀ o <+: own o := by
    intro o
    rcases o with _ | ⟨d, i⟩ | _
    · have hroot := h.dirs _ hs.cert.rootDir
      rw [← hs₀.cert.root.clusterChain_eq, ← hs.cert.root.clusterChain_eq, Volume.setFat_fat, hroot]
    · by_cases hlive : ∃ e, D d ∧ liveEntries g v d i = some e
      · obtain ⟨e, hd, he⟩ := hlive
        rw [hs₀.chain_eq hd ((h.live hd i).trans he), hs.chain_eq hd he]
        exact h.files d i e hd he
      · rw [hs₀.cert.unused fun hd => ?_]
        · exact List.nil_prefix
        · rw [h.live hd]
          exact Option.eq_none_iff_forall_ne_some.mpr fun e he => hlive ⟨e, hd, he⟩
    · rw [hs₀.settled]
      exact List.nil_prefix
  refine ⟨own₀, hs₀, hs, fun d hd => ⟨(h.dirs d hd).symm, (h.entries hd).symm⟩, hchains, ?_⟩
  intro d i e hd he hsize
  obtain ⟨rest, hrest⟩ := hchains (.slot d i)
  rw [← hrest]
  refine List.map_congr_left fun p hp => ?_
  rw [List.mem_range] at hp
  exact chainByte_append (by omega)

/-- Where every entry stays, and files only grow, the disk lacks no more than clusters behind
files. -/
theorem Trails.grow [DirRules ok] (h : Trails ok g v D fat) (hmounted : v'.mounted = true)
    (hsame : SameDirs g v v' D) (hfiles : ∀ d i e, D d → liveEntries g v d i = some e →
      clusterChain g v.fat e.entryFirstCluster <+: clusterChain g v'.fat e.entryFirstCluster) :
    Trails ok g v' D fat := by
  have hdirs : ∀ d, D d → clusterChain g fat d = clusterChain g v'.fat d :=
    fun d hd => (h.dirs d hd).trans (hsame d hd).1.symm
  obtain ⟨own₀, hs₀⟩ := h.sound
  refine ⟨⟨own₀, hs₀.transfer _ hmounted rfl fun d hd => ?_⟩, hdirs, fun d i e hd he => ?_⟩
  · rw [dirEntries_setFat (hdirs d hd), (hsame d hd).2, h.entries hd]
  · have hlive : liveEntries g v d i = some e := (hsame.liveAt_eq hd i).symm.trans he
    exact (h.files d i e hd hlive).trans (hfiles d i e hd hlive)

/-- A call that leaves every entry leaves what the disk lacks. -/
theorem Trails.keep [DirRules ok] (h : Trails ok g v D fat) (hs : Sound ok g v D own)
    (hu : Untouched ok g v v' D own own') : Trails ok g v' D fat := by
  refine h.grow hu.sound.mounted hu.dirs fun d i e hd he => ?_
  rw [← hs.chain_eq hd he, ← hu.sound.chain_eq hd ((hu.dirs.liveAt_eq hd i).trans he)]
  exact hu.chains _

/-- An account of the volume on disk, of which some directories may not be reachable any more. -/
theorem Trails.of_account (hacc : Account ok g (v.setFat fat) (liveEntries g (v.setFat fat)) D own)
    (hdirs : ∀ d, D d → clusterChain g fat d = clusterChain g v.fat d)
    (hfiles : ∀ d i e, D d → liveEntries g v d i = some e →
      clusterChain g fat e.entryFirstCluster <+: clusterChain g v.fat e.entryFirstCluster) :
    Trails ok g v (Reachable g v) fat := by
  have hreach : Reachable g v = Reachable g (v.setFat fat) := by
    funext x
    refine propext (Reach.congr fun d hd i => ?_)
    rw [liveEntries, liveEntries, dirEntries_setFat (hdirs d (hacc.reachable hd))]
  have hD : ∀ d, Reachable g v d → D d := fun d hd => hacc.reachable (hreach ▸ hd)
  refine ⟨⟨owners g (v.setFat fat), ?_⟩, fun d hd => hdirs d (hD d hd),
    fun d i e hd => hfiles d i e (hD d hd)⟩
  rw [hreach]
  exact hacc.sound_reachable

theorem Trails.restrict (h : Trails ok g v D fat) : Trails ok g v (Reachable g v) fat := by
  obtain ⟨own₀, hs₀⟩ := h.sound
  exact Trails.of_account hs₀.toAccount h.dirs h.files

/-- A rename that links no cluster leaves what the disk lacks: the entry takes its clusters
along. -/
theorem Trails.moved [DirRules ok] {d d' : Nat} {it it' : Item} {name : CStr}
    (h : Trails ok g v D fat) (hd : D d) (hd' : D d')
    (hm : Moved ok g v v' D own own' d d' it it' name) (hfat : v'.fat = v.fat) :
    Trails ok g v' D fat := by
  have hdirs : ∀ x, D x → clusterChain g fat x = clusterChain g v'.fat x :=
    fun x hx => hfat.symm ▸ h.dirs x hx
  have hes : ∀ x, D x → dirEntries g (v'.setFat fat) x = dirEntries g v' x :=
    fun x hx => dirEntries_setFat (hdirs x hx)
  obtain ⟨own₀, hs₀⟩ := h.sound
  have hit : it ∈ itemsOf (dirEntries g (v.setFat fat) d) := by
    rw [h.entries hd]
    exact hm.mem
  have hacc := (hs₀.toAccount.take hs₀.settled (liveEntries_item hit)).transfer (v'.setFat fat)
    hm.sound.mounted rfl fun x hx => by
      rw [hes x hx]
      exact hm.sound.tidy hx
  refine ⟨⟨_, sound_moved hs₀ hd hd' hit hacc hm.fields ?_ ?_ ?_ ?_⟩, hdirs, fun x j e hx he => ?_⟩
  · rw [h.live hd']
    exact hm.vacant
  · rw [takeChain_pending]
  · exact fun _ => ⟨takeChain_pending, fun _ _ => rfl⟩
  · intro x hx j
    have hlive := hm.live x hx j
    unfold liveEntries at hlive
    rw [hes x hx, hlive]
    simp only [movedEntries, Entries.put, h.live hx]
    rfl
  · rw [hm.live x hx j] at he
    rw [hfat]
    unfold movedEntries Entries.put at he
    split at he
    · rw [← Option.some.inj he, hm.fields.first]
      have hlive := liveEntries_item hit
      rw [h.live hd] at hlive
      exact h.files d _ _ hd hlive
    · split at he
      · cases he
      · exact h.files x j e hx he

/-- Nor does it matter that the slot `..` is rewritten. -/
theorem Trails.reparented [DirRules ok] {m parent : Nat} (h : Trails ok g v D fat)
    (hs : Sound ok g v D own) (hm : D m) (hr : Reparented ok g v v' D own m parent) :
    Trails ok g v' D fat := by
  have hdirs : ∀ x, D x → clusterChain g fat x = clusterChain g v'.fat x :=
    fun x hx => hr.fat.symm ▸ h.dirs x hx
  have hes : ∀ x, D x → dirEntries g (v'.setFat fat) x = dirEntries g v' x :=
    fun x hx => dirEntries_setFat (hdirs x hx)
  obtain ⟨own₀, hs₀⟩ := h.sound
  have hacc := hs₀.toAccount.transfer (v'.setFat fat) hr.sound.mounted rfl fun x hx => by
    rw [hes x hx]
    exact hr.sound.tidy hx
  refine ⟨⟨own₀, hacc.sound hs₀.settled fun x hx i => ?_⟩, hdirs, fun x i e hx he => ?_⟩
  · rw [hes x hx, h.live hx]
    exact hr.live_eq hs hm hx i
  · rw [hr.fat]
    rw [hr.live_eq hs hm hx] at he
    exact h.files x i e hx he

/-- Nor that an entry is lost. -/
theorem EntryLost.trails {d : Nat} {it : Item} (h : EntryLost g v v' D d it)
    (hs : Sound Searchable g v D own) (hd : D d) (ht : Trails Searchable g v D fat) :
    Trails Searchable g v' (Reachable g v') fat := by
  have hdirs : ∀ x, D x → clusterChain g fat x = clusterChain g v'.fat x :=
    fun x hx => h.fat.symm ▸ ht.dirs x hx
  have hes : ∀ x, D x → dirEntries g (v'.setFat fat) x = dirEntries g v' x :=
    fun x hx => dirEntries_setFat (hdirs x hx)
  obtain ⟨own₀, hs₀⟩ := ht.sound
  have hit : it ∈ itemsOf (dirEntries g (v.setFat fat) d) := by
    rw [ht.entries hd]
    exact h.mem
  have hlost := h.account hs
  have hacc := (hs₀.toAccount.take hs₀.settled (liveEntries_item hit)).transfer (v'.setFat fat)
    hlost.mounted rfl fun x hx => by
      rw [hes x hx]
      exact hlost.tidy hx
  refine Trails.of_account (hacc.congr fun x hx j => ?_) hdirs fun x j e hx he => ?_
  · rw [liveEntries, hes x hx]
    exact (h.live hx j).trans (by simp only [Entries.put, ht.live hx])
  · rw [h.live hx] at he
    unfold Entries.put at he
    split at he
    · cases he
    · rw [h.fat]
      exact ht.files x j e hx he

end

/-! ## A rename -/

section

variable {g : Geometry} {v vm v' : Volume} {D : Nat → Prop} {own own' : Owner → List Nat}
  {oldPath newPath : CStr} {cs cs' : List CStr} {r r' : Option DirectoryEntry}
  {name name' parentPath' : CStr} {it it' : Item} {fat : Nat → Nat}

/-- A rename that puts the entry in place. -/
theorem Renamed.trails {ok : List DirectoryEntry → Prop} [DirRules ok]
    (h : Renamed ok g v vm v' D own own' oldPath newPath cs cs' r r' name name' parentPath' it it')
    (hs : Sound ok g v D own) (hfat : v'.fat = v.fat) (ht : Trails ok g v D fat) :
    Trails ok g v' D fat := by
  obtain ⟨hd, hd', hit⟩ := h.mem hs
  have hparent := h.parent
  split at hparent
  · next hdir =>
      have hmid : vm.fat = v.fat := hparent.fat.symm.trans hfat
      exact (ht.moved hd hd' h.moved hmid).reparented h.moved.sound (hs.subdir hd hit hdir) hparent
  · subst hparent
    exact ht.moved hd hd' h.moved hfat

/-- What a rename leaves of a volume: the directories of `D'` are accounted for, and where no
cluster has been linked the disk lacks no more than before. -/
def Left (g : Geometry) (v v' : Volume) (D : Nat → Prop) : Prop :=
  ∃ D' own', Sound Searchable g v' D' own' ∧
    (v'.fat = v.fat → ∀ fat, Trails Searchable g v D fat → Trails Searchable g v' D' fat)

/-- Whatever slot 1 holds, lookups work when it has been given another first cluster. -/
theorem Searchable.withParent {es : List DirectoryEntry} {parent : Nat} (h : Searchable es) :
    Searchable (withParent es parent) := by
  cases he : es[1]? with
  | none =>
    rw [Fat32.withParent, List.set_eq_of_length_le (List.getElem?_eq_none_iff.mp he)]
    exact h
  | some e =>
    rw [withParent_eq he]
    exact h.set he sameName_setFirstCluster

/-- A directory that has been cut off is changed. -/
theorem ParentWritten.left {m parent : Nat} (h : ParentWritten g vm v' D m parent)
    (hs : Sound Searchable g vm (Reachable g vm) own')
    (hcut : ∀ x, Reachable g vm x → D x ∧ x ≠ m)
    (ht : vm.fat = v.fat → ∀ fat, Trails Searchable g v D fat →
      Trails Searchable g vm (Reachable g vm) fat) : Left g v v' D := by
  have hs' := h.sound_outside hs hcut
  refine ⟨_, _, hs', fun hfat fat htrails => ?_⟩
  refine (ht (h.fat.symm.trans hfat) fat htrails).grow hs'.mounted
    (fun x hx => h.others x (hcut x hx)) fun d i e _ _ => ?_
  rw [h.fat]

/-- Whether the entry is moved, lost or cut off, the volume is sound where slot 1 of a directory
that moves is not taken for another entry. -/
theorem RenameDone.left
    (h : RenameDone Searchable g v vm v' D own oldPath newPath cs cs' r r' name name' parentPath'
      it)
    (hs : Sound Searchable g v D own) (hspares : SparesEntries g v oldPath newPath) :
    Left g v v' D := by
  obtain ⟨hd, hd', hit⟩ := h.mem hs
  have hparent := h.parent
  by_cases hlost : dirCluster g r = dirCluster g r' ∧
      OverlapsOld (dirEntries g v (dirCluster g r)) it (newSlots g v r r' name' it)
  · cases h.slots with
    | moved apart _ _ _ => exact absurd hlost apart
    | lost _ _ entry =>
      obtain ⟨hsm, hD⟩ := entry.sound hs
      have htrails : vm.fat = v.fat → ∀ fat, Trails Searchable g v D fat →
          Trails Searchable g vm (Reachable g vm) fat := fun _ _ ht => entry.trails hs hd ht
      split at hparent
      · next hdir =>
          exact hparent.left hsm (fun x hx => ⟨hD x hx, fun heq =>
            entry.not_reachable hs hd hdir (heq ▸ hx)⟩) htrails
      · subst hparent
        exact ⟨_, _, hsm, htrails⟩
  by_cases hthrough : it.entry.isDirectory = true ∧ Passes g v cs' it.entry.entryFirstCluster
  · obtain ⟨hdir, a, b, r₁, rfl, hr₁, -, heq⟩ := hthrough
    rw [if_pos hdir] at hparent
    obtain ⟨_, hp'⟩ := h.new
    have hin := reach_behind hr₁ hp'.resolved hp'.dir
    rw [heq] at hin
    cases h.slots with
    | lost same overlap _ => exact absurd ⟨same, overlap⟩ hlost
    | moved _ own' it' entry =>
      refine hparent.left entry.sound.toAccount.sound_reachable (fun x hx => ?_)
        fun hfat fat ht => (ht.moved hd hd' entry hfat).restrict
      obtain ⟨hold, hout⟩ := hs.outside_subtree hd (liveEntries_item hit) hdir
        (fun y j e hy hout he => entry.live_outside hin hy hout he) hx
      exact ⟨hs.reachable hold, fun heq => hout (heq ▸ .root)⟩
  · obtain ⟨own', it', hr⟩ := h.renamed hs hlost fun own' it' hm hdir => by
      -- the directory is neither of the two that the move has changed
      have hsub := hs.subdir hd hit hdir
      obtain ⟨hne, hne'⟩ := h.apart hs hdir fun hp => hthrough ⟨hdir, hp⟩
      have hsame := (hm.others _ ⟨hsub, hne, hne'⟩).2
      rw [hsame]
      exact ⟨(hs.tidy hsub).withParent, hspares _ _ _ _ _ _ _ _ h.toRenamePaths hdir⟩
    exact ⟨D, own', hr.sound, fun hfat fat ht => hr.trails hs hfat ht⟩

end

end FunnyOS.Fat32
