import FunnyOS.Fat32.Subtree
import FunnyOS.Fat32.Uniqueness
import FunnyOS.Fat32.WriteSizes

/-!
# The slots `.` and `..`

Every directory but the root begins with a slot `.` that holds its own first cluster and a slot `..`
that holds the first cluster of the directory with its entry, where 0 stands for the root as well.
The operations keep the slots of the kind `special` as they are: only `fat32_make_dir`, which writes
both for a new directory, and the last step of `fat32_rename`, which changes `..` for a directory
that has moved, have to do with them.
-/

namespace FunnyOS.Fat32

open Prog

/-- The slot `i` is special and has the name and one of the first clusters. -/
def HasDotSlot (es : List DirectoryEntry) (i : Nat) (name : CStr) (first : Nat → Prop) : Prop :=
  ∃ e, es[i]? = some e ∧ e.kind = .special ∧ e.name = fillSpecialDirName name ∧
    first e.entryFirstCluster

instance (es : List DirectoryEntry) (i : Nat) (name : CStr) (first : Nat → Prop)
    [DecidablePred first] : Decidable (HasDotSlot es i name first) :=
  decidable_of_iff ((es[i]?).any (fun e => e.kind = .special ∧
    e.name = fillSpecialDirName name ∧ first e.entryFirstCluster) = true)
    (by simp [HasDotSlot, Option.any_eq_true])

/-- What `..` may hold for a parent. -/
def NamesParent (g : Geometry) (parent first : Nat) : Prop :=
  first = parent ∨ parent = g.rootCluster ∧ first = 0

instance (g : Geometry) (parent first : Nat) : Decidable (NamesParent g parent first) :=
  inferInstanceAs (Decidable (_ ∨ _))

/-- The slots of the directory `d`, which has its entry in `parent`, begin with `.` and `..`. -/
structure DotSlots (g : Geometry) (es : List DirectoryEntry) (d parent : Nat) : Prop where
  dot : HasDotSlot es 0 [0x2E] (· = d)
  dotDot : HasDotSlot es 1 [0x2E, 0x2E] (NamesParent g parent)

instance (g : Geometry) (es : List DirectoryEntry) (d parent : Nat) :
    Decidable (DotSlots g es d parent) :=
  decidable_of_iff (HasDotSlot es 0 [0x2E] (· = d) ∧
    HasDotSlot es 1 [0x2E, 0x2E] (NamesParent g parent))
    ⟨fun h => ⟨h.1, h.2⟩, fun h => ⟨h.dot, h.dotDot⟩⟩

/-- Every directory that has its entry in a directory of `D` has the two slots. -/
def Dotted (g : Geometry) (v : Volume) (D : Nat → Prop) : Prop :=
  ∀ d, D d → ∀ it ∈ itemsOf (dirEntries g v d), it.entry.isDirectory = true →
    DotSlots g (dirEntries g v it.entry.entryFirstCluster) it.entry.entryFirstCluster d

section

variable {ok : List DirectoryEntry → Prop} {g : Geometry} {v v' : Volume}
  {D D' : Nat → Prop} {own own' : Owner → List Nat} {d d' x c m parent i j : Nat} {it it' : Item}
  {name name' : CStr} {append : Bool} {data : List UInt8} {new : List Nat}
  {e e' : DirectoryEntry} {es es' : List DirectoryEntry}

/-! ## What keeps the slots -/

/-- The special slots stay. -/
def KeepsSpecial (es es' : List DirectoryEntry) : Prop :=
  ∀ (i : Nat) (e : DirectoryEntry), es[i]? = some e → e.kind = .special → es'[i]? = some e

theorem KeepsShape.keepsSpecial (h : KeepsShape es es') : KeepsSpecial es es' :=
  fun _ _ => h.special

theorem HasDotSlot.keep {first : Nat → Prop} (h : HasDotSlot es i name first)
    (hk : KeepsSpecial es es') : HasDotSlot es' i name first := by
  obtain ⟨e, he, hs, hname, hfirst⟩ := h
  exact ⟨e, hk i e he hs, hs, hname, hfirst⟩

theorem DotSlots.keep (h : DotSlots g es d parent) (hk : KeepsSpecial es es') :
    DotSlots g es' d parent := ⟨h.dot.keep hk, h.dotDot.keep hk⟩

theorem specialDirEntry_name :
    (specialDirEntry [0x2E] c).name = fillSpecialDirName [0x2E] ∧
      (specialDirEntry [0x2E, 0x2E] c).name = fillSpecialDirName [0x2E, 0x2E] := by
  have h : (specialDirEntry [0x2E] 0).name = fillSpecialDirName [0x2E] ∧
      (specialDirEntry [0x2E, 0x2E] 0).name = fillSpecialDirName [0x2E, 0x2E] := by decide +kernel
  exact h

/-- The slots of a new directory. -/
theorem dotSlots_new (hd : d < 2 ^ 32) (hc : c < 2 ^ 32) (hp : NamesParent g parent c) :
    DotSlots g (newDirEntries g d c) d parent where
  dot := ⟨_, rfl, special_dot.1, specialDirEntry_name.1, DirectoryEntry.entryFirstCluster_set hd⟩
  dotDot := ⟨_, rfl, special_dots.1, specialDirEntry_name.2, by
    rw [specialDirEntry, DirectoryEntry.entryFirstCluster_set hc]
    exact hp⟩

/-- What a slot `..` may be given for the directory that a path has led to. -/
theorem namesParent_dirCluster {r : Option DirectoryEntry} :
    NamesParent g (dirCluster g r) (parentCluster g r) := by
  cases r with
  | none => exact .inr ⟨rfl, rfl⟩
  | some e => exact .inl rfl

theorem parentCluster_lt {r : Option DirectoryEntry} (h : dirCluster g r < 2 ^ 32) :
    parentCluster g r < 2 ^ 32 := by
  unfold parentCluster
  split <;> omega

/-- The directories are in shape as far as `..` is concerned. -/
theorem Dotted.hasParentSlot [DirRules ok] (h : Dotted g v D) (hs : Sound ok g v D own)
    (hd : D d) (hne : d ≠ g.rootCluster) : HasParentSlot (dirEntries g v d) := by
  rcases hs.cert.dirs hd with heq | ⟨d', i, e, hd', he, hdir, rfl⟩ | ⟨l, hl⟩
  · exact absurd heq hne
  · obtain ⟨it, hit, -, rfl⟩ := (hs.live_iff_item hd').mp he
    obtain ⟨e, he, hk, -⟩ := (h d' hd' it hit hdir).dotDot
    exact ⟨e, he, hk⟩
  · rw [hs.settled] at hl
    cases hl

/-- Where every entry of a directory was there before, and the slots are kept. -/
theorem Dotted.of_live [DirRules ok] (h : Dotted g v D) (hs : Sound ok g v D own)
    (hs' : Sound ok g v' D' own') (hD : ∀ x, D' x → D x)
    (hlive : ∀ d i e, D' d → liveEntries g v' d i = some e → e.isDirectory = true →
      ∃ j, liveEntries g v d j = some e)
    (hk : ∀ x, D' x → KeepsSpecial (dirEntries g v x) (dirEntries g v' x)) : Dotted g v' D' := by
  intro d hd it hit hdir
  obtain ⟨j, he⟩ := hlive d it.index it.entry hd (liveEntries_item hit) hdir
  obtain ⟨it₀, hit₀, -, heq⟩ := (hs.live_iff_item (hD d hd)).mp he
  have hold := h d (hD d hd) it₀ hit₀ (heq.symm ▸ hdir)
  rw [heq] at hold
  exact hold.keep (hk _ (hs'.subdir hd hit hdir))

/-! ## The effects of a call -/

theorem Untouched.dotted [DirRules ok] (hu : Untouched ok g v v' D own own')
    (hs : Sound ok g v D own) (h : Dotted g v D) : Dotted g v' D :=
  h.of_live hs hu.sound (fun _ hx => hx)
    (fun _ i _ hd he _ => ⟨i, (hu.dirs.liveAt_eq hd i).symm.trans he⟩)
    fun _ hx => (hu.dirs.keepsShape hx).keepsSpecial

theorem FileReplaced.dotted [DirRules ok]
    (hf : FileReplaced ok g v v' D own d it append data new e') (hs : Sound ok g v D own)
    (h : Dotted g v D) : Dotted g v' D := by
  refine h.of_live hs hf.sound (fun _ hx => hx) (fun y j e hy he hdir => ⟨j, ?_⟩)
    fun _ hx => (hf.keepsShape hx).keepsSpecial
  by_cases hyd : y = d
  · subst hyd
    rw [liveEntries, hf.liveAt_eq] at he
    by_cases hj : j = it.index
    · -- the entry of the file is no directory
      rw [if_pos hj] at he
      obtain rfl := Option.some.inj he
      rw [isDirectory_of_sameName hf.same, hf.file] at hdir
      cases hdir
    · rwa [if_neg hj] at he
  · exact (hf.others.liveAt_eq ⟨hy, hyd⟩ j).symm.trans he

/-- An entry of a directory that was covered before is the new one or was there. -/
theorem Created.live_cases (hc : Created ok g v v' D D' own own' d name it) (hx : D x)
    (he : liveEntries g v' x i = some e) :
    x = d ∧ e = it.entry ∨ liveEntries g v x i = some e := by
  by_cases hxd : x = d
  · subst hxd
    rw [liveEntries, hc.liveAt_eq] at he
    by_cases hi : i = it.index
    · rw [if_pos hi] at he
      exact .inl ⟨rfl, (Option.some.inj he).symm⟩
    · rw [if_neg hi] at he
      exact .inr he
  · exact .inr ((hc.others.liveAt_eq ⟨hx, hxd⟩ i).symm.trans he)

theorem FileCreated.dotted [DirRules ok] (hf : FileCreated ok g v v' D own own' d name it data)
    (hs : Sound ok g v D own) (h : Dotted g v D) : Dotted g v' D := by
  refine h.of_live hs hf.sound (fun _ hx => hx) (fun y j e hy he hdir => ?_)
    fun _ hx => (hf.toCreated.keepsShape hx).keepsSpecial
  rcases hf.toCreated.live_cases hy he with ⟨-, rfl⟩ | hold
  · rw [hf.file] at hdir
    cases hdir
  · exact ⟨j, hold⟩

theorem DirCreated.dotted [DirRules ok] {r : Option DirectoryEntry}
    (hc : DirCreated ok g v v' D own own' (dirCluster g r)
      (parentCluster g r) name it)
    (hs : Sound ok g v D own) (hd : D (dirCluster g r)) (h : Dotted g v D) :
    Dotted g v' (fun d' => D d' ∨ d' = it.entry.entryFirstCluster) := by
  rintro x (hx | rfl) it₁ hit hdir
  · have hk := fun y (hy : D y) => (hc.toCreated.keepsShape hy).keepsSpecial
    rcases hc.toCreated.live_cases hx (liveEntries_item hit) with ⟨rfl, heq⟩ | hold
    · have hself := hc.sound.dir_lt (.inr rfl)
      have hparent := hs.dir_lt hd
      rw [heq, hc.entries]
      exact dotSlots_new hself (parentCluster_lt hparent) namesParent_dirCluster
    · obtain ⟨it₀, hit₀, -, heq⟩ := (hs.live_iff_item hx).mp hold
      have hdots := h x hx it₀ hit₀ (heq.symm ▸ hdir)
      rw [heq] at hdots
      exact hdots.keep (hk _ (heq ▸ hs.subdir hx hit₀ (heq.symm ▸ hdir)))
  · rw [hc.entries, itemsOf_newDirEntries] at hit
    cases hit

theorem Removed.dotted [DirRules ok] (hr : Removed ok g v v' D own d it) (hs : Sound ok g v D own)
    (h : Dotted g v D) : Dotted g v' (without D it.entry) := by
  refine h.of_live hs hr.sound (fun _ hx => hx.1) (fun y j e hy he _ => ⟨j, ?_⟩)
    fun _ hx => (hr.keepsShape hx).keepsSpecial
  by_cases hyd : y = d
  · subst hyd
    rw [liveEntries, hr.liveAt_eq] at he
    by_cases hj : j = it.index
    · rw [if_pos hj] at he
      cases he
    · rwa [if_neg hj] at he
  · exact (hr.others.liveAt_eq ⟨hy, hyd⟩ j).symm.trans he

/-! ### A rename -/

/-- A directory that has not moved keeps its two slots, and its entry is not the one that has
moved. -/
theorem Moved.dotSlots_other [DirRules ok] (hm : Moved ok g v v' D own own' d d' it it' name)
    (hs : Sound ok g v D own) (hd : D d) (h : Dotted g v D) (hx : D x)
    (hlive : liveEntries g v x i = some e) (hne : ¬ (x = d ∧ i = it.index))
    (hdir : e.isDirectory = true) :
    DotSlots g (dirEntries g v' e.entryFirstCluster) e.entryFirstCluster x ∧
      (it.entry.isDirectory = true → e.entryFirstCluster ≠ it.entry.entryFirstCluster) := by
  obtain ⟨it₀, hit₀, -, rfl⟩ := (hs.live_iff_item hx).mp hlive
  have hsub := hs.subdir hx hit₀ hdir
  refine ⟨(h x hx it₀ hit₀ hdir).keep (hm.shape _ hsub).keepsSpecial, ?_⟩
  intro hdir' heq
  have hmem := liveEntries_item hm.mem
  exact hne (hs.cert.entry_unique hd hx hmem hlive (hs.subdir_ne_zero hd hmem hdir') heq)

/-- The new slot `..` of a directory that has moved. -/
theorem ParentWritten.dotSlots (hr : ParentWritten g v v' D m c)
    (h : DotSlots g (dirEntries g v m) m d) (hc : c < 2 ^ 32) (hp : NamesParent g parent c) :
    DotSlots g (dirEntries g v' m) m parent := by
  obtain ⟨e₀, he₀, hk₀, hname₀, hfirst₀⟩ := h.dot
  obtain ⟨e₁, he₁, hk₁, hname₁, -⟩ := h.dotDot
  have hlt := (List.getElem?_eq_some_iff.mp he₁).1
  have hes := hr.entries
  rw [withParent_eq he₁] at hes
  constructor
  · refine ⟨e₀, ?_, hk₀, hname₀, hfirst₀⟩
    rw [hes, List.getElem?_set_ne (by decide), he₀]
  · refine ⟨e₁.entrySetFirstCluster c, ?_, sameName_setFirstCluster.kind_eq.trans hk₁, hname₁, ?_⟩
    · rw [hes, List.getElem?_set_self hlt]
    · rw [DirectoryEntry.entryFirstCluster_set hc]
      exact hp

theorem Renamed.dotted [DirRules ok] {vm : Volume} {oldPath newPath : CStr} {cs cs' : List CStr}
    {r r' : Option DirectoryEntry} {parentPath' : CStr}
    (hr : Renamed ok g v vm v' D own own' oldPath newPath cs cs' r r' name name' parentPath' it it')
    (hs : Sound ok g v D own) (h : Dotted g v D) : Dotted g v' D := by
  obtain ⟨parentDir, parentPath, hp⟩ := hr.old
  obtain ⟨parentDir', hp'⟩ := hr.new
  have hd := hs.dir_of_resolve hp.resolved hp.dir
  have hd' := hs.dir_of_resolve hp'.resolved hp'.dir
  have hm := hr.moved
  have hparent := hr.parent
  split at hparent
  · next hdir =>
      have hsub := hs.subdir hd hm.mem hdir
      have hmoved := (h _ hd it hm.mem hdir).keep (hm.shape _ hsub).keepsSpecial
      have hlt := hs.dir_lt hd'
      intro x hx it₁ hit₁ hdir₁
      have hlive := liveEntries_item hit₁
      rw [hparent.live_eq hm.sound hsub hx] at hlive
      rcases hm.live_cases hx hlive with ⟨rfl, -, heq⟩ | ⟨hne, hold⟩
      · rw [heq, hm.fields.first]
        exact hparent.dotSlots hmoved (parentCluster_lt hlt) namesParent_dirCluster
      · obtain ⟨hdots, hother⟩ := hm.dotSlots_other hs hd h hx hold hne hdir₁
        have hsub₁ := hparent.sound.subdir hx hit₁ hdir₁
        rwa [(hparent.others _ ⟨hsub₁, hother hdir⟩).2]
  · next hfile =>
      rw [hparent]
      intro x hx it₁ hit₁ hdir₁
      rcases hm.live_cases hx (liveEntries_item hit₁) with ⟨-, -, heq⟩ | ⟨hne, hold⟩
      · rw [heq, hm.fields.isDirectory] at hdir₁
        exact absurd hdir₁ hfile
      · exact (hm.dotSlots_other hs hd h hx hold hne hdir₁).1

/-- Whatever a call has done, the slots are there after it. -/
theorem Effect.dotted [DirRules ok] {op : Operation} (he : Effect ok g v v' D own op D' own')
    (hs : Sound ok g v D own) (h : Dotted g v D) : Dotted g v' D' := by
  cases he with
  | nothing same => exact same ▸ h
  | writeFailed _ failed => exact failed.untouched.dotted hs h
  | replaced _ _ file => exact file.dotted hs h
  | created _ _ file => exact file.dotted hs h
  | makeDirFailed _ failed => exact failed.untouched.dotted hs h
  | dirCreated parent _ dir => exact dir.dotted hs (hs.dir_of_resolve parent.resolved parent.dir) h
  | removed _ _ entry => exact entry.dotted hs h
  | renamed entry => exact entry.dotted hs h

end

/-! ## Slots that are left behind -/

section

variable {ok : List DirectoryEntry → Prop} {g : Geometry} {v vm v' : Volume} {D D' : Nat → Prop}
  {own : Owner → List Nat} {d m parent x : Nat} {it : Item} {es : List DirectoryEntry}

/-- Where the new entry is deleted with the old one the special slots stay: those that count as
slots of the old name have the attributes of one. -/
theorem EntryLost.keepsSpecial (h : EntryLost g v v' D d it) (hx : D x) :
    KeepsSpecial (dirEntries g v x) (dirEntries g v' x) := by
  by_cases hxd : x = d
  · subst hxd
    obtain ⟨_, _, _, _, _, es, hslots, -, -, hes⟩ := h.slots
    intro i e he hk
    obtain ⟨hle, hentry, hlive, hcounted⟩ := item_span h.mem
    obtain ⟨-, hentry', -, -⟩ := item_span (hslots.keep h.mem)
    have hlt := (List.getElem?_eq_some_iff.mp hentry').1
    rw [hes, getElem?_deleteSpan (by omega), if_neg, hslots.keepsShape.special he hk]
    rintro ⟨hlo, hhi⟩
    rcases Nat.lt_or_ge i it.index with hi | hi
    · exact attributes_ne_of_special hk (hcounted he hlo hi)
    · obtain rfl : i = it.index := by omega
      obtain rfl := Option.some.inj (hentry.symm.trans he)
      rw [hlive] at hk
      cases hk
  · rw [(h.others x ⟨hx, hxd⟩).2]
    exact fun _ _ he _ => he

/-- What is still reachable is accounted for. -/
theorem EntryLost.sound (h : EntryLost g v v' D d it) (hs : Sound Searchable g v D own) :
    Sound Searchable g v' (Reachable g v') (owners g v') ∧ ∀ x, Reachable g v' x → D x := by
  have hacc := (h.account hs).congr fun x hx j => h.live hx j
  exact ⟨hacc.sound_reachable, fun x hx => hacc.reachable hx⟩

theorem EntryLost.dotted (h : EntryLost g v v' D d it) (hs : Sound Searchable g v D own)
    (hdots : Dotted g v D) : Dotted g v' (Reachable g v') := by
  obtain ⟨hs', hD⟩ := h.sound hs
  exact hdots.of_live hs hs' hD (fun y j e hy he _ => ⟨j, (h.live_outside (hD y hy) he).1⟩)
    fun x hx => h.keepsSpecial (hD x hx)

/-- A directory that is lost is not reachable any more. -/
theorem EntryLost.not_reachable (h : EntryLost g v v' D d it) (hs : Sound ok g v D own) (hd : D d)
    (hdir : it.entry.isDirectory = true) : ¬ Reachable g v' it.entry.entryFirstCluster := fun hx =>
  (hs.outside_subtree hd (liveEntries_item h.mem) hdir
    (fun _ _ _ hy _ he => h.live_outside hy he) hx).2 .root

/-- A change of a directory that the account does not cover. -/
theorem ParentWritten.sound_outside (h : ParentWritten g v v' D m parent)
    (hs : Sound ok g v D' own) (hD : ∀ x, D' x → D x ∧ x ≠ m) : Sound ok g v' D' own := by
  refine Account.sound ⟨h.preserved.mounted.trans hs.mounted, h.fat ▸ hs.cert, fun {x} hx => ?_⟩
    hs.settled fun x hx i => h.others.liveAt_eq (hD x hx) i
  rw [(h.others x (hD x hx)).2]
  exact hs.tidy hx

theorem Dotted.congr (h : Dotted g v D) (hs : Sound ok g v D own) (hsame : SameDirs g v v' D) :
    Dotted g v' D := by
  intro d hd it hit hdir
  rw [(hsame d hd).2] at hit
  rw [(hsame _ (hs.subdir hd hit hdir)).2]
  exact h d hd it hit hdir

/-- Whether the entry is moved or lost, the directories that are left have their slots. -/
theorem RenameDone.dotted {oldPath newPath : CStr} {cs cs' : List CStr}
    {r r' : Option DirectoryEntry} {name name' parentPath' : CStr}
    (h : RenameDone Searchable g v vm v' D own oldPath newPath cs cs' r r' name name' parentPath'
      it)
    (hs : Sound Searchable g v D own) (hdots : Dotted g v D) :
    ∃ D' own', Sound Searchable g v' D' own' ∧ Dotted g v' D' := by
  obtain ⟨hd, -, hit⟩ := h.mem hs
  by_cases hover : dirCluster g r = dirCluster g r' ∧
      OverlapsOld (dirEntries g v (dirCluster g r)) it (newSlots g v r r' name' it)
  · cases h.slots with
    | moved apart _ _ _ => exact absurd hover apart
    | lost _ _ entry =>
      obtain ⟨hsm, hD⟩ := entry.sound hs
      have hdotsm := entry.dotted hs hdots
      have hparent := h.parent
      split at hparent
      · next hdir =>
          have hD' : ∀ x, Reachable g vm x → D x ∧ x ≠ it.entry.entryFirstCluster := fun x hx =>
            ⟨hD x hx, fun heq => entry.not_reachable hs hd hdir (heq ▸ hx)⟩
          exact ⟨_, _, hparent.sound_outside hsm hD',
            hdotsm.congr hsm fun x hx => hparent.others x (hD' x hx)⟩
      · rw [hparent]
        exact ⟨_, _, hsm, hdotsm⟩
  · obtain ⟨own', it', hr⟩ := h.renamed hs hover fun own' it' hm hdir => by
      -- slot 1 of a directory that moves holds `..`
      have hsub := hs.subdir hd hit hdir
      obtain ⟨e, he, hk⟩ := hdots.hasParentSlot hs hsub
        (hs.cert.entry_ne_root hd (liveEntries_item hit))
      exact withParent_special (hm.sound.tidy hsub) ((hm.shape _ hsub).special he hk) hk
    exact ⟨D, own', hr.sound, hr.dotted hs hdots⟩

/-- Lookups work in a directory whose slots are in order. -/
theorem Orderly.searchable (h : Orderly es) : Searchable es := by
  refine ⟨h.tidy.ended, fun i e he hk => ?_⟩
  obtain ⟨body, tail, rfl, hbody, -, htail⟩ := h
  by_cases hi : i < body.length
  · rw [List.getElem?_append_left hi] at he
    obtain ⟨hlt, heq⟩ := List.getElem?_eq_some_iff.mp he
    have hsplit : body = body.take i ++ e :: body.drop (i + 1) := by
      rw [← heq, List.getElem_cons_drop, List.take_append_drop]
    rw [hsplit] at hbody
    obtain ⟨-, hok, -⟩ := checked_append.mp hbody
    simp only [SetOk, hk] at hok
    refine ⟨hok.2, fun j a hj ha hka => ?_⟩
    subst hj
    rw [List.getElem?_append_left (by omega)] at ha
    -- behind a long-name slot another slot would have to follow
    have htake : body.take (j + 1) = body.take j ++ [a] := by
      rw [List.take_add_one, ha, Option.toList_some]
    have hnone := hok.1
    rw [htake, List.foldl_append, List.foldl_cons, List.foldl_nil, setStep, hka] at hnone
    cases hnone
  · rw [List.getElem?_append_right (by omega)] at he
    rw [DirectoryEntry.kind_endMark (htail e (List.mem_of_getElem? he))] at hk
    cases hk

theorem WellFormed.searchable (h : WellFormed g v) :
    Sound Searchable g v (Reachable g v) (owners g v) :=
  ⟨⟨h.mounted, h.sound.cert, fun hd => (h.slots hd).searchable⟩, rfl⟩

end

/-! ## Runs -/

/-- A well-formed volume whose directories begin with `.` and `..`. -/
structure WellDotted (g : Geometry) (v : Volume) : Prop where
  wellFormed : WellFormed g v
  dotted : Dotted g v (Reachable g v)

/-- Canonical paths, and data whose length is a 32-bit number. -/
def Operation.Canonical : Operation → Prop
  | .writeFile path data _ => CanonicalPath path ∧ data.length < 2 ^ 32
  | .makeDir path => CanonicalPath path
  | .remove path => CanonicalPath path
  | .rename oldPath newPath => CanonicalPath oldPath ∧ CanonicalPath newPath

/-- A call with canonical arguments returns. -/
def CanonicalStep (env : Env) (s : State) (op : Operation) (s' : State) : Prop :=
  op.Canonical ∧ After env s op s'

/-- Where a file is overwritten that has a chain to lose, the count of its new clusters does not
wrap. -/
def Operation.Counts (g : Geometry) (v : Volume) : Operation → Prop
  | .writeFile path data append => CountsClusters g v path data append
  | _ => True

/-- The same with the clusters counted. -/
def CountedStep (env : Env) (s : State) (op : Operation) (s' : State) : Prop :=
  CanonicalStep env s op s' ∧ op.Counts env.geometry (s.volume env.geometry)

section

variable {env : Env} {s s' : State} {op : Operation} {ops : List Operation}

/-- Data of at most `2 ^ 31` bytes has clusters that can be counted. -/
theorem AdmissibleStep.counted (h : AdmissibleStep env s op s') : CountedStep env s op s' := by
  obtain ⟨hadm, hafter⟩ := h
  have hle := env.geometry.clusterSize_le
  cases op with
  | writeFile path data append =>
    have hdata := hadm.2
    exact ⟨⟨⟨hadm.1, by omega⟩, hafter⟩, .inr (.inl (by omega))⟩
  | makeDir path => exact ⟨⟨hadm, hafter⟩, trivial⟩
  | remove path => exact ⟨⟨hadm, hafter⟩, trivial⟩
  | rename oldPath newPath => exact ⟨⟨hadm, hafter⟩, trivial⟩

/-- Whatever it returns, a call keeps the slots of the directories that are left. -/
theorem Dotted.step (hfuel : env.geometry.totalClusters < env.fuel) (hrel : ¬ env.Faulty)
    {D : Nat → Prop} {own : Owner → List Nat}
    (hs : Sound Searchable env.geometry (s.volume env.geometry) D own)
    (h : Dotted env.geometry (s.volume env.geometry) D) (hstep : CountedStep env s op s') :
    ∃ D' own', Sound Searchable env.geometry (s'.volume env.geometry) D' own' ∧
      Dotted env.geometry (s'.volume env.geometry) D' := by
  obtain ⟨⟨hcan, hafter⟩, hcount⟩ := hstep
  -- a call that does not rename, with data that a chain can hold
  have heffect : (∀ path data append, op = .writeFile path data append → data.length ≤ 2 ^ 31) →
      (∀ oldPath newPath, op ≠ .rename oldPath newPath) →
      ∃ D' own', Sound Searchable env.geometry (s'.volume env.geometry) D' own' ∧
        Dotted env.geometry (s'.volume env.geometry) D' := by
    intro hdata hop
    obtain ⟨D', own', heff⟩ :=
      hafter.of_sat (Operation.effect_sat hfuel hrel hs hdata hop)
    exact ⟨D', own', heff.sound hs, heff.dotted hs h⟩
  cases op with
  | writeFile path data append =>
    rcases Nat.lt_or_ge (2 ^ 31) data.length with hlarge | hsmall
    · obtain ⟨own', hu⟩ := hafter.of_sat (P := fun s' => ∃ own', Untouched Searchable env.geometry
          (s.volume env.geometry) (s'.volume env.geometry) D own own')
        (Sat.mono (fat32WriteFile_large_left hfuel hrel rfl hs hlarge hcan.2 hcount)
          (fun _ _ h => h.elim) fun _ _ h => h)
      exact ⟨D, own', hu.sound, hu.dotted hs h⟩
    · refine heffect (fun path' data' append' heq => ?_) (by simp)
      cases heq
      exact hsmall
  | makeDir path => exact heffect (by simp) (by simp)
  | remove path => exact heffect (by simp) (by simp)
  | rename oldPath newPath =>
    refine hafter.of_sat (P := fun s' => ∃ D' own', Sound Searchable env.geometry
      (s'.volume env.geometry) D' own' ∧ Dotted env.geometry (s'.volume env.geometry) D')
      (Sat.mono (fat32Rename_sat hfuel hrel rfl hs) ?_ fun _ s' hv => ⟨D, own, hv ▸ hs, hv ▸ h⟩)
    rintro ⟨⟩ s' (⟨-, hv⟩ | ⟨vm, cs, cs', r, r', name, name', parentPath', it, hdone⟩)
    · exact ⟨D, own, hv ▸ hs, hv ▸ h⟩
    · exact hdone.dotted hs h

/-- Runs in which no count of clusters wraps lead from a well-formed volume whose directories begin
with `.` and `..` to volumes whose directories begin so. -/
theorem dotted_of_run (hfuel : env.geometry.totalClusters < env.fuel) (hrel : ¬ env.Faulty)
    (hwf : WellDotted env.geometry (s.volume env.geometry))
    (hrun : Runs (CountedStep env) s ops s') :
    Dotted env.geometry (s'.volume env.geometry)
      (Reachable env.geometry (s'.volume env.geometry)) := by
  obtain ⟨D, own, hs, h⟩ := hrun.invariant
    (I := fun s => ∃ D own, Sound Searchable env.geometry (s.volume env.geometry) D own ∧
      Dotted env.geometry (s.volume env.geometry) D) (by
      rintro s op s' ⟨D, own, hs, h⟩ hstep
      exact h.step hfuel hrel hs hstep)
    ⟨_, _, hwf.wellFormed.searchable, hwf.dotted⟩
  exact fun x hx => h x (hs.reachable hx)

end

/-- The slots of the directories in a list that covers all of them are checked one by one. -/
theorem dotted_of_check {g : Geometry} {v : Volume} (ds : List Nat)
    (h : checkVolume g v ds = true)
    (hdots : ∀ d ∈ ds, ∀ it ∈ itemsOf (dirEntries g v d), it.entry.isDirectory = true →
      DotSlots g (dirEntries g v it.entry.entryFirstCluster) it.entry.entryFirstCluster d) :
    WellDotted g v :=
  ⟨(sound_of_check h).2, fun _ hd => hdots _ ((sound_of_check h).1.reachable hd)⟩

/-- A directory is made, moved into another one, and a file is written into it. -/
def makeAndMove : List Operation := [.makeDir (joinPath [[0x42]]),
  .rename (joinPath [[0x42]]) (joinPath [[0x41], [0x42]]),
  .writeFile (joinPath [[0x41], [0x42], [0x43]]) (List.replicate 10 0x58) false]

theorem dotted_of_run_move : ∃ s', Runs (CountedStep smallEnv) dirState makeAndMove s' ∧
    Dotted smallGeometry (s'.volume smallGeometry)
      (Reachable smallGeometry (s'.volume smallGeometry)) := by
  have hrun : Runs (AdmissibleStep smallEnv) dirState makeAndMove
      (afterCalls makeAndMove dirState) := by
    refine runs_afterCalls ?_ (by decide +kernel)
    simp only [makeAndMove, List.forall_mem_cons]
    exact ⟨canonicalPath_join (by decide +kernel),
      ⟨canonicalPath_join (by decide +kernel), canonicalPath_join (by decide +kernel)⟩,
      ⟨canonicalPath_join (by decide +kernel), by decide⟩, by simp⟩
  have hcounted := hrun.mono fun _ _ _ h => h.counted
  exact ⟨_, hcounted, dotted_of_run (by decide) smallEnv_reliable
    (dotted_of_check _ dirState_check.1 (by decide +kernel)) hcounted⟩

/-! ## A slot that is lost -/

/-- What a call of `fat32_write_file` comes to whose data has no cluster by the count that wraps:
the chain is set free, and the data is refused. -/
def writeWrapped (env : Env) (path : CStr) : Driver Unit := do
  checkMounted
  let (parentDir, name, _) ← lookupParentAndName env path
  let existing ← lookupFile env parentDir name
  let oldSize := match existing with
    | some ref => ref.entry.size
    | none => 0
  let firstCluster := match existing with
    | some ref => ref.entry.entryFirstCluster
    | none => 0
  let firstCluster ← ensureClusterChainLength env firstCluster
    (clustersForSize env.geometry oldSize) 0
  let _ ← trimClusterChain env firstCluster 0
  if ← flushFat env then raise .ioError else raise .ioError

theorem trimClusterChain_zero {env : Env} {first : Nat} {α : Type} {k : Nat → Driver α} :
    (trimClusterChain env first 0 >>= k) = trimClusterChain env first 0 >>= fun _ => k 0 := by
  unfold trimClusterChain
  rw [if_pos rfl]
  by_cases h : 2 ≤ first
  · simp only [if_pos h, Prog.bind_bind]
    rfl
  · simp only [if_neg h]
    rfl

theorem fat32WriteFile_wrapped {env : Env} {path : CStr} {data : List UInt8} (hne : data ≠ [])
    (hzero : clustersForSize env.geometry data.length = 0) :
    fat32WriteFile env path data false = writeWrapped env path := by
  unfold fat32WriteFile writeWrapped
  simp only [Bool.false_eq_true, if_false, hzero]
  refine bind_congr fun _ => bind_congr fun x => bind_congr fun existing =>
    bind_congr fun first => ?_
  rw [trimClusterChain_zero]
  refine bind_congr fun _ => bind_congr fun flushed => ?_
  split
  · have hwrite : writeDataToChain env 0 0 data = raise .ioError := by
      unfold writeDataToChain
      rw [if_neg hne, if_pos Nat.zero_lt_two]
    rw [hwrite]
    rfl
  · rfl

/-- A call whose data has no cluster by the count that wraps. -/
theorem canonicalStep_wrapped {path : CStr} {s : State} (hpath : CanonicalPath path)
    (hcode : (writeWrapped smallEnv path s).code = some .ioError) :
    CanonicalStep smallEnv s (.writeFile path (List.replicate (2 ^ 32 - 1) 0) false)
      ((writeWrapped smallEnv path s).finalState s) := by
  have hlength : (List.replicate (2 ^ 32 - 1) (0 : UInt8)).length = 2 ^ 32 - 1 :=
    List.length_replicate
  refine ⟨⟨hpath, by rw [hlength]; decide⟩, .inr ⟨.ioError, ?_⟩⟩
  have hne : List.replicate (2 ^ 32 - 1) (0 : UInt8) ≠ [] := by
    intro hnil
    rw [hnil] at hlength
    cases hlength
  change fat32WriteFile smallEnv _ _ false _ = _
  rw [fat32WriteFile_wrapped hne (by rw [hlength]; decide +kernel)]
  exact Prog.eq_error_of_code hcode

/-- The volume with the directory `/A` and the file `/F`. -/
def dirFileState : State :=
  afterCall (.writeFile (joinPath [[0x46]]) (List.replicate 10 0x58) false) dirState

/-- `/F` is overwritten with more data than its clusters can be counted for. Then the directory `/B`
is made, and `/F` is overwritten with ten bytes. -/
def loseDotSlot : List Operation :=
  [.writeFile (joinPath [[0x46]]) (List.replicate (2 ^ 32 - 1) 0) false,
    .makeDir (joinPath [[0x42]]),
    .writeFile (joinPath [[0x46]]) (List.replicate 10 0x58) false]

/-- The volume after the first of the calls, which fails. -/
def wrappedState : State :=
  (writeWrapped smallEnv (joinPath [[0x46]]) dirFileState).finalState dirFileState

/-- The chain of `/F` is set free under its entry. The new directory gets its cluster, and the ten
bytes are written over the slot `.` of this directory. -/
theorem not_dotted_of_run : ∃ s',
    WellDotted smallGeometry (dirFileState.volume smallGeometry) ∧
    Runs (CanonicalStep smallEnv) dirFileState loseDotSlot s' ∧
    ¬ Dotted smallGeometry (s'.volume smallGeometry)
      (Reachable smallGeometry (s'.volume smallGeometry)) := by
  have hpath : CanonicalPath (joinPath [[0x46]]) := canonicalPath_join (by decide +kernel)
  have hfirst : CanonicalStep smallEnv dirFileState
      (.writeFile (joinPath [[0x46]]) (List.replicate (2 ^ 32 - 1) 0) false) wrappedState :=
    canonicalStep_wrapped hpath (by decide +kernel)
  have hrest : Runs (AdmissibleStep smallEnv) wrappedState loseDotSlot.tail
      (afterCalls loseDotSlot.tail wrappedState) := by
    refine runs_afterCalls ?_ (by decide +kernel)
    simp only [loseDotSlot, List.tail_cons, List.forall_mem_cons]
    exact ⟨canonicalPath_join (by decide +kernel), ⟨hpath, by decide⟩, by simp⟩
  refine ⟨_, dotted_of_check [2, 3] (by decide +kernel) (by decide +kernel),
    .cons hfirst (hrest.mono fun _ _ _ h => h.counted.1), fun h => ?_⟩
  -- the directory `/B` in slot 2 of the root
  have hslot := h 2 .root
  revert hslot
  decide +kernel

end FunnyOS.Fat32
