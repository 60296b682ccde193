import FunnyOS.Fat32.Listing

/-!
# Names in a directory stay different

No call makes two entries of a directory that have the same name, ignoring case, or the same short
name. A name is looked up among the decoded names before an entry is written, and a short name
among the short names, so the two conditions are kept together.
-/

namespace FunnyOS.Fat32

open Prog

/-! ## Entries with different names -/

/-- Two entries differ in their names and in their short names. -/
structure Item.Apart (a b : Item) : Prop where
  names : nameEqualsIgnoreCase a.name b.name = false
  shortNames : a.entry.name ≠ b.entry.name

/-- All entries of a directory differ in their names and in their short names. -/
def Distinct (items : List Item) : Prop := items.Pairwise Item.Apart

/-- In each directory of `D` the entries differ. -/
def UniquelyNamed (g : Geometry) (v : Volume) (D : Nat → Prop) : Prop :=
  ∀ d, D d → Distinct (itemsOf (dirEntries g v d))

section

variable {l l' : List Item} {it x : Item} {es : List DirectoryEntry} {name : CStr}

theorem Item.Apart.symm (h : it.Apart x) : x.Apart it where
  names := by
    rw [nameEqualsIgnoreCase_comm]
    exact h.names
  shortNames := h.shortNames.symm

theorem Distinct.perm (h : Distinct l) (hp : l.Perm l') : Distinct l' :=
  (hp.pairwise_iff Item.Apart.symm).mp h

theorem distinct_cons : Distinct (it :: l) ↔ (∀ x ∈ l, it.Apart x) ∧ Distinct l :=
  List.pairwise_cons

instance (a b : Item) : Decidable (a.Apart b) :=
  decidable_of_iff (nameEqualsIgnoreCase a.name b.name = false ∧ a.entry.name ≠ b.entry.name)
    ⟨fun ⟨h, h'⟩ => ⟨h, h'⟩, fun ⟨h, h'⟩ => ⟨h, h'⟩⟩

instance (items : List Item) : Decidable (Distinct items) :=
  inferInstanceAs (Decidable (items.Pairwise Item.Apart))

/-- The test for entries that differ. -/
theorem uniquelyNamed_of_check {g : Geometry} {v : Volume} {ds : List Nat}
    (h : checkVolume g v ds = true)
    (h' : ds.all (fun d => decide (Distinct (itemsOf (dirEntries g v d)))) = true) :
    UniquelyNamed g v (Reachable g v) := by
  obtain ⟨hsound, -⟩ := sound_of_check h
  intro d hd
  have htest := List.all_eq_true.mp h' d (hsound.reachable hd)
  simpa using htest

/-- An entry that is inserted somewhere comes first in another order. -/
theorem Inserted.perm (h : Inserted l l' it) : l'.Perm (it :: l) := by
  obtain ⟨a, b, rfl, rfl⟩ := h
  exact List.perm_middle

/-- A lookup that fails has not met the name. -/
theorem names_of_lookup_none (h : lookup es name = none)
    (hnamed : nameEqualsIgnoreCase it.name name = true) (hx : x ∈ itemsOf es) :
    nameEqualsIgnoreCase it.name x.name = false := by
  have hne := List.find?_eq_none.mp h x hx
  rw [← Bool.not_eq_true]
  intro heq
  apply hne
  exact nameEqualsIgnoreCase_trans (nameEqualsIgnoreCase_comm ▸ heq) hnamed

/-- An entry has left the list and another one has entered it. -/
theorem Distinct.exchange {mid : List Item} {it' : Item} (h : Distinct l) (hmem : it ∈ l)
    (hin : Inserted l mid it') (hout : Inserted l' mid it)
    (hapart : ∀ x ∈ l, it.Apart x → it'.Apart x) : Distinct l' := by
  obtain ⟨a, b, rfl⟩ := List.append_of_mem hmem
  have hold : Distinct (it :: (a ++ b)) := h.perm List.perm_middle
  have hnew : (it :: l').Perm (it :: it' :: (a ++ b)) := calc
    (it :: l').Perm mid := hout.perm.symm
    mid.Perm (it' :: (a ++ it :: b)) := hin.perm
    (it' :: (a ++ it :: b)).Perm (it' :: it :: (a ++ b)) := List.perm_middle.cons it'
    (it' :: it :: (a ++ b)).Perm (it :: it' :: (a ++ b)) := List.Perm.swap ..
  refine Distinct.perm ?_ hnew.cons_inv.symm
  obtain ⟨hit, hrest⟩ := distinct_cons.mp hold
  refine distinct_cons.mpr ⟨fun x hx => ?_, hrest⟩
  apply hapart x _ (hit x hx)
  rcases List.mem_append.mp hx with hx | hx
  · exact List.mem_append_left _ hx
  · exact List.mem_append_right _ (List.mem_cons_of_mem _ hx)

theorem mem_dirItems_cons {e : DirectoryEntry} {index : Nat} {st : LfnState}
    (hx : x ∈ dirItems (e :: es) index st) : e.name0 ≠ 0 ∧
      (x.entry = e ∧ e.kind = .live ∨ x ∈ dirItems es (index + 1) (lfnStep st e)) := by
  have h0 : e.name0 ≠ 0 := by
    intro h0
    simp [dirItems, DirectoryEntry.kind_endMark h0] at hx
  refine ⟨h0, ?_⟩
  unfold dirItems at hx
  split at hx
  · simp at hx
  · rename_i hlive
    rcases List.mem_cons.mp hx with rfl | hx
    · exact .inl ⟨rfl, hlive⟩
    · exact .inr hx
  · exact .inr hx

/-- The scan for a short name meets every entry that has it, unless it is to be ignored. -/
theorem scanForShortName_found {shortName : List UInt8} {ignore : Option (List UInt8)}
    {index : Nat} {st : LfnState} (hx : x ∈ dirItems es index st)
    (hname : x.entry.name = shortName) (hignore : ignore ≠ some shortName) :
    scanForShortName shortName ignore es = .found () := by
  induction es generalizing index st with
  | nil => simp [dirItems] at hx
  | cons e rest ih =>
    obtain ⟨h0, ⟨rfl, hlive⟩ | hx⟩ := mem_dirItems_cons hx
    · have hkind : ¬ (x.entry.name0 = deletedMark ∨ x.entry.attributes = attrLfn) ∧
          ¬ x.entry.attributes &&& attrVolumeId ≠ 0 := by
        unfold DirectoryEntry.kind at hlive
        grind
      rw [scanForShortName, if_neg h0, if_neg hkind.1, if_neg hkind.2, hname, if_neg hignore,
        if_pos rfl]
    · have hrest := ih hx
      rw [scanForShortName, if_neg h0, hrest]
      simp only [ite_self]

/-- A short name that is not in use differs from those of the entries. -/
theorem shortNames_of_unused {ignore : Option (List UInt8)}
    (h : scanForShortName it.entry.name ignore es ≠ .found ()) (hx : x ∈ itemsOf es)
    (hignore : ignore ≠ some x.entry.name) : it.entry.name ≠ x.entry.name := by
  intro heq
  apply h
  exact scanForShortName_found hx heq.symm (heq ▸ hignore)

end

/-! ## What the operations keep -/

section

variable {ok : List DirectoryEntry → Prop} {g : Geometry} {v v' : Volume}
  {D D' : Nat → Prop} {own own' : Owner → List Nat} {d d' : Nat} {it it' : Item} {name : CStr}

theorem UniquelyNamed.mono (h : UniquelyNamed g v D) (hD : ∀ x, D' x → D x) :
    UniquelyNamed g v D' := fun x hx => h x (hD x hx)

theorem UniquelyNamed.sameDirs (h : UniquelyNamed g v D) (hsame : SameDirs g v v' D) :
    UniquelyNamed g v' D := by
  intro x hx
  rw [(hsame x hx).2]
  exact h x hx

/-- The entries of one directory have changed. -/
theorem UniquelyNamed.change (h : UniquelyNamed g v D)
    (hsame : SameDirs g v v' (fun x => D x ∧ x ≠ d))
    (hd : D d → Distinct (itemsOf (dirEntries g v' d))) : UniquelyNamed g v' D := by
  intro x hx
  by_cases hxd : x = d
  · rw [hxd] at hx ⊢
    exact hd hx
  · rw [(hsame x ⟨hx, hxd⟩).2]
    exact h x hx

theorem FileReplaced.uniquelyNamed [TidyRules ok] {append : Bool} {data : List UInt8}
    {new : List Nat} {e' : DirectoryEntry}
    (hf : FileReplaced ok g v v' D own d it append data new e') (hs : Sound ok g v D own)
    (h : UniquelyNamed g v D) : UniquelyNamed g v' D := by
  apply h.change hf.others
  intro hd
  obtain ⟨a, b, hab, hab'⟩ := hf.replaced hs hd
  have hold := h d hd
  rw [hab] at hold
  rw [hab']
  have hperm := distinct_cons.mp (hold.perm List.perm_middle)
  refine Distinct.perm ?_ List.perm_middle.symm
  refine distinct_cons.mpr ⟨fun x hx => ⟨(hperm.1 x hx).names, ?_⟩, hperm.2⟩
  show e'.name ≠ x.entry.name
  rw [hf.same.name]
  exact (hperm.1 x hx).shortNames

theorem Created.uniquelyNamed [TidyRules ok]
    (hc : Created ok g v v' D D' own own' d name it) (hs : Sound ok g v D own)
    (habsent : lookup (dirEntries g v d) name = none) (h : UniquelyNamed g v D) :
    UniquelyNamed g v' D := by
  apply h.change hc.others
  intro hd
  obtain ⟨a, b, hab, hab'⟩ := hc.added hs hd
  rw [hab']
  refine Distinct.perm ?_ List.perm_middle.symm
  rw [← hab]
  exact distinct_cons.mpr ⟨fun x hx => ⟨names_of_lookup_none habsent hc.named hx,
    shortNames_of_unused hc.unused hx (by simp)⟩, h d hd⟩

theorem DirCreated.uniquelyNamed [TidyRules ok] {parent : Nat}
    (hc : DirCreated ok g v v' D own own' d parent name it) (hs : Sound ok g v D own)
    (habsent : lookup (dirEntries g v d) name = none) (h : UniquelyNamed g v D) :
    UniquelyNamed g v' (fun x => D x ∨ x = it.entry.entryFirstCluster) := by
  intro x hx
  rcases hx with hx | rfl
  · exact hc.toCreated.uniquelyNamed hs habsent h x hx
  · rw [hc.entries, itemsOf_newDirEntries]
    exact List.Pairwise.nil

theorem Removed.uniquelyNamed [TidyRules ok] (hr : Removed ok g v v' D own d it)
    (hs : Sound ok g v D own) (h : UniquelyNamed g v D) :
    UniquelyNamed g v' (without D it.entry) := by
  apply (h.mono fun x (hx : without D it.entry x) => hx.1).change hr.others
  intro hd
  obtain ⟨a, b, hab, hab'⟩ := hr.removed hs
  have hold := h d hd.1
  rw [hab] at hold
  rw [hab']
  exact (distinct_cons.mp (hold.perm List.perm_middle)).2

/-- In the directory that an entry enters, the search for its short name has passed over the old
short name only where the entry leaves that directory. -/
theorem Moved.uniquelyNamed [TidyRules ok] (hm : Moved ok g v v' D own own' d d' it it' name)
    (hd' : D d') (habsent : lookup (dirEntries g v d') name = none) (h : UniquelyNamed g v D) :
    UniquelyNamed g v' D := by
  have hlists := hm.lists
  have hunused := hm.unused
  have hnames := fun x hx => names_of_lookup_none (x := x) habsent hm.named hx
  unfold ListsMoved at hlists
  intro x hx
  by_cases hdd : d = d'
  · subst hdd
    by_cases hxd : x = d
    · subst hxd
      rw [if_pos rfl] at hlists hunused
      obtain ⟨mid, hin, hout⟩ := hlists
      refine (h x hx).exchange hm.mem hin hout fun y hy hapart => ⟨hnames y hy, ?_⟩
      exact shortNames_of_unused hunused hy (by simpa using hapart.shortNames)
    · rw [(hm.others x ⟨hx, hxd, hxd⟩).2]
      exact h x hx
  · rw [if_neg hdd] at hlists hunused
    obtain ⟨hout, hin⟩ := hlists
    by_cases hxd' : x = d'
    · subst hxd'
      refine Distinct.perm ?_ hin.perm.symm
      exact distinct_cons.mpr ⟨fun y hy => ⟨hnames y hy,
        shortNames_of_unused hunused hy (by simp)⟩, h x hx⟩
    · by_cases hxd : x = d
      · subst hxd
        exact (distinct_cons.mp ((h x hx).perm hout.perm)).2
      · rw [(hm.others x ⟨hx, hxd, hxd'⟩).2]
        exact h x hx

theorem Renamed.uniquelyNamed [TidyRules ok] {vm : Volume} {oldPath newPath : CStr}
    {cs cs' : List CStr} {r r' : Option DirectoryEntry} {name' parentPath' : CStr}
    (hr : Renamed ok g v vm v' D own own' oldPath newPath cs cs' r r' name name' parentPath' it it')
    (hd' : D (dirCluster g r')) (h : UniquelyNamed g v D) : UniquelyNamed g v' D := by
  have hm := hr.moved.uniquelyNamed hd' hr.absent h
  have hparent := hr.parent
  split at hparent
  · apply hm.change hparent.others
    intro hd
    rw [hparent.items]
    exact hm _ hd
  · rw [hparent]
    exact hm

/-- Whatever a call has done, the entries differ after it. -/
theorem Effect.uniquelyNamed [TidyRules ok] {op : Operation}
    (he : Effect ok g v v' D own op D' own') (hs : Sound ok g v D own) (h : UniquelyNamed g v D) :
    UniquelyNamed g v' D' := by
  cases he with
  | nothing same => exact same ▸ h
  | writeFailed _ failed => exact h.sameDirs failed.untouched.dirs
  | replaced _ _ file => exact file.uniquelyNamed hs h
  | created _ absent file => exact file.toCreated.uniquelyNamed hs absent h
  | makeDirFailed _ failed => exact h.sameDirs failed.untouched.dirs
  | dirCreated _ absent dir => exact dir.uniquelyNamed hs absent h
  | removed _ _ entry => exact entry.uniquelyNamed hs h
  | renamed entry =>
    obtain ⟨_, hp'⟩ := entry.new
    exact entry.uniquelyNamed (hs.dir_of_resolve hp'.resolved hp'.dir) h

end

/-! ## Runs -/

/-- Runs on a well-formed volume with directories in shape keep the entries of every directory
different. -/
theorem uniquelyNamed_of_run {env : Env} {s s' : State} {ops : List Operation}
    (hfuel : env.geometry.totalClusters < env.fuel) (hrel : ¬ env.Faulty)
    (hwf : WellFormed env.geometry (s.volume env.geometry))
    (hshape : Shaped env.geometry (s.volume env.geometry)
      (Reachable env.geometry (s.volume env.geometry)))
    (hnames : UniquelyNamed env.geometry (s.volume env.geometry)
      (Reachable env.geometry (s.volume env.geometry)))
    (hrun : Runs (AdmissibleStep env) s ops s') :
    UniquelyNamed env.geometry (s'.volume env.geometry)
      (Reachable env.geometry (s'.volume env.geometry)) := by
  obtain ⟨D, own, hk, h⟩ := hrun.invariant
    (I := fun s => ∃ D own, Kept (Tidy SlotTidy) env.geometry (s.volume env.geometry) D own ∧
      UniquelyNamed env.geometry (s.volume env.geometry) D) (by
      rintro s op s' ⟨D, own, hk, h⟩ hstep
      obtain ⟨D', own', heff, hk'⟩ := hk.step hfuel hrel hstep
      exact ⟨D', own', hk', heff.uniquelyNamed hk.sound h⟩)
    ⟨_, _, ⟨hwf.sound, hshape⟩, hnames⟩
  exact h.mono fun x hx => hk.sound.reachable hx

/-- A directory is made beside two files, then a file is to get the name of the other. -/
theorem uniquelyNamed_of_run_makeDir : ∃ s', Runs (AdmissibleStep smallEnv) almostFullState
      [.makeDir [slash, 0x43], .rename [slash, 0x41] [slash, 0x42]] s' ∧
    UniquelyNamed smallGeometry (s'.volume smallGeometry)
      (Reachable smallGeometry (s'.volume smallGeometry)) := by
  have hmake : AdmissibleStep smallEnv almostFullState (.makeDir [slash, 0x43]) _ :=
    ⟨canonicalPath_letter (by decide) (by decide) (by decide), after_of_isOk (by decide +kernel)⟩
  have hclash : AdmissibleStep smallEnv (afterCall (.makeDir [slash, 0x43]) almostFullState)
      (.rename [slash, 0x41] [slash, 0x42]) _ :=
    ⟨⟨canonicalPath_letter (by decide) (by decide) (by decide),
      canonicalPath_letter (by decide) (by decide) (by decide)⟩,
      after_of_code (e := .alreadyExists) (by decide +kernel)⟩
  have hrun := Runs.cons hmake (.cons hclash (.nil _))
  exact ⟨_, hrun, uniquelyNamed_of_run (by decide) smallEnv_reliable
    (sound_of_check almostFullState_check).2
    (regular_of_check almostFullState_check (by decide +kernel)).shaped
    (uniquelyNamed_of_check almostFullState_check (by decide +kernel)) hrun⟩

/-- Two equal slots, as the data of a file. -/
def twinSlots : List UInt8 := (List.range 512).map fun o =>
  if o < 64 then (letterEntry 0x58 attrArchive 0 0).byte ⟨o % 32, offset_lt o⟩ else 0

/-- The calls that move `/D` into `/P` and then write to its file `B`. -/
def moveAndWrite : List Operation := [.rename (joinPath [[0x44]]) (joinPath [[0x50], [0x44]]),
  .writeFile (joinPath [[0x50], [0x44], [0x42]]) twinSlots false]

/-- The calls that give the file `OO` a longer name, create a file with that name, and then `F`. -/
def renameAndCreate : List Operation := [.rename (joinPath [[0x4F, 0x4F]]) (joinPath [longName]),
  .writeFile (joinPath [longName]) [] false, .writeFile (joinPath [[0x46]]) [] false]

/-- Moving a directory whose slot 1 is not `..` gives the file in that slot the first cluster of the
new parent, where what is written to the file then makes entries. And where a deleted long-name slot
in front of an entry is counted as one of its own, the slot of the new name is deleted together with
those of the old one, and its long name is left to the next entry. -/
theorem not_uniquelyNamed_of_run :
    (WellFormed smallGeometry (dotlessState.volume smallGeometry) ∧
      UniquelyNamed smallGeometry (dotlessState.volume smallGeometry)
        (Reachable smallGeometry (dotlessState.volume smallGeometry)) ∧
      Runs (AdmissibleStep smallEnv) dotlessState moveAndWrite
        (afterCalls moveAndWrite dotlessState) ∧
      ¬ UniquelyNamed smallGeometry ((afterCalls moveAndWrite dotlessState).volume smallGeometry)
        (Reachable smallGeometry ((afterCalls moveAndWrite dotlessState).volume smallGeometry))) ∧
    (WellFormed smallGeometry (looseState.volume smallGeometry) ∧
      UniquelyNamed smallGeometry (looseState.volume smallGeometry)
        (Reachable smallGeometry (looseState.volume smallGeometry)) ∧
      Runs (AdmissibleStep smallEnv) looseState renameAndCreate
        (afterCalls renameAndCreate looseState) ∧
      ¬ UniquelyNamed smallGeometry ((afterCalls renameAndCreate looseState).volume smallGeometry)
        (Reachable smallGeometry ((afterCalls renameAndCreate looseState).volume smallGeometry))) := by
  have hdotless : checkVolume smallGeometry (dotlessState.volume smallGeometry) [2, 3, 4] = true := by
    decide +kernel
  have hloose : checkVolume smallGeometry (looseState.volume smallGeometry) [2] = true := by
    decide +kernel
  have hlen : twinSlots.length ≤ 2 ^ 31 := by
    rw [twinSlots, List.length_map, List.length_range]
    decide
  refine ⟨⟨(sound_of_check hdotless).2, uniquelyNamed_of_check hdotless (by decide +kernel), ?_,
    fun hnames => ?_⟩, (sound_of_check hloose).2, uniquelyNamed_of_check hloose (by decide +kernel),
    ?_, fun hnames => ?_⟩
  · refine runs_afterCalls ?_ (by decide +kernel)
    simp only [moveAndWrite, List.forall_mem_cons]
    exact ⟨⟨canonicalPath_join (by decide +kernel), canonicalPath_join (by decide +kernel)⟩,
      ⟨canonicalPath_join (by decide +kernel), hlen⟩, by simp⟩
  · have hparent : Reachable smallGeometry
        ((afterCalls moveAndWrite dotlessState).volume smallGeometry) 4 :=
      .step (e := letterEntry 0x50 attrDirectory 4 0) (i := 1) .root (by decide +kernel)
        (by decide +kernel)
    have htwins := hnames 4 hparent
    revert htwins
    decide +kernel
  · refine runs_afterCalls ?_ (by decide +kernel)
    simp only [renameAndCreate, List.forall_mem_cons]
    exact ⟨⟨canonicalPath_join (by decide +kernel), canonicalPath_join (by decide +kernel)⟩,
      ⟨canonicalPath_join (by decide +kernel), by simp⟩,
      ⟨canonicalPath_join (by decide +kernel), by simp⟩, by simp⟩
  · have htwins := hnames 2 .root
    revert htwins
    decide +kernel

end FunnyOS.Fat32
