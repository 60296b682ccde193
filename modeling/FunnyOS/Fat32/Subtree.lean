import FunnyOS.Fat32.Integrity
import FunnyOS.Fat32.Tree

/-!
# Renaming and the tree of directories

`fat32_rename` refuses to move a directory into its own subtree by comparing path texts. The
comparison does not see other spellings of the same path, which `resolve_path` accepts: the path of
the new parent may lead through the directory that moves. Two more renames break the tree, whatever
the paths: one that writes the new name of a directory into slots that count as slots of the old
one, and one that writes the new parent into a slot 1 that is the entry of a directory. Every other
rename keeps it.
-/

namespace FunnyOS.Fat32

open Prog

/-- The directories form a tree: no entry names the root, and only one entry names a directory. -/
def TreeShaped (g : Geometry) (v : Volume) : Prop :=
  ∀ d i e, LiveIn g v d i e → e.isDirectory = true → e.entryFirstCluster ≠ g.rootCluster ∧
    ∀ d' i' e', LiveIn g v d' i' e' → e'.isDirectory = true →
      e'.entryFirstCluster = e.entryFirstCluster → d' = d ∧ i' = i

/-- Every directory that was reachable from the root still is, and the directories form a tree. -/
def KeepsTree (g : Geometry) (v v' : Volume) : Prop :=
  (∀ d, Reachable g v d → Reachable g v' d) ∧ TreeShaped g v'

/-! ## How a rename breaks the tree -/

/-- The old path names a directory, and the parent components of the new path lead through it. -/
def LeadsThrough (g : Geometry) (v : Volume) (oldPath newPath : CStr) : Prop :=
  ∃ e a b name r, resolve g v (splitComponents oldPath) = .ok (some e) ∧ e.isDirectory = true ∧
    splitComponents newPath = a ++ b ++ [name] ∧ resolve g v a = .ok r ∧ isDir r = true ∧
    dirCluster g r = e.entryFirstCluster

/-- The new name is written over deleted slots that count as slots of the old one. -/
def LosesEntry (g : Geometry) (v : Volume) (oldPath newPath : CStr) : Prop :=
  ∃ cs cs' r r' name name' parentPath' it,
    RenamePaths g v oldPath newPath cs cs' r r' name name' parentPath' it ∧
    dirCluster g r = dirCluster g r' ∧
    OverlapsOld (dirEntries g v (dirCluster g r)) it (newSlots g v r r' name' it)

/-- What makes a rename break the tree: it moves a directory below itself, it deletes the new entry
of a directory with the old one, or it writes the new parent over a directory in slot 1. -/
inductive BreaksTree (g : Geometry) (v : Volume) (oldPath newPath : CStr) : Prop
  | through (through : LeadsThrough g v oldPath newPath)
  | lost (e : DirectoryEntry) (found : resolve g v (splitComponents oldPath) = .ok (some e))
      (dir : e.isDirectory = true) (loses : LosesEntry g v oldPath newPath)
  | overwritten (e x : DirectoryEntry)
      (found : resolve g v (splitComponents oldPath) = .ok (some e)) (dir : e.isDirectory = true)
      (slot : liveEntries g v e.entryFirstCluster 1 = some x) (subdir : x.isDirectory = true)

section

variable {ok : List DirectoryEntry → Prop} {g : Geometry} {v vm v' : Volume}
  {D : Nat → Prop} {own own' : Owner → List Nat} {r r' : Option DirectoryEntry}
  {a b cs : List CStr} {name : CStr} {it it' : Item} {e : DirectoryEntry} {d d' i m parent x : Nat}

theorem Sound.treeShaped (h : Sound ok g v D own) : TreeShaped g v := by
  intro d i e he hdir
  obtain ⟨hroot, honce⟩ := h.tree he hdir
  exact ⟨hroot, fun d' i' e' he' hdir' heq => honce he' hdir' heq⟩

theorem Sound.subdir_ne_zero (h : Sound ok g v D own) (hd : D d)
    (he : liveEntries g v d i = some e) (hdir : e.isDirectory = true) :
    e.entryFirstCluster ≠ 0 := by
  obtain ⟨hch, hne⟩ := h.cert.dir_chain_of_entry hd he hdir
  have := (g.isValidDataCluster_iff.mp (hch.head_valid hne)).1
  omega

/-- A path that does not meet a directory reaches its end without the entry of the directory. -/
theorem reach_outside (hr : resolve g v cs = .ok r)
    (hd : isDir r = true) (hit : it ∈ itemsOf (dirEntries g v x))
    (hout : ∀ a b r₁, cs = a ++ b → resolve g v a = .ok r₁ → isDir r₁ = true →
      dirCluster g r₁ ≠ it.entry.entryFirstCluster) :
    Reach ((liveEntries g v).put x it.index none) g.rootCluster (dirCluster g r) := by
  induction cs using List.reverseRecOn generalizing r with
  | nil =>
    cases hr
    exact .root
  | append_singleton cs n ih =>
    obtain ⟨r₁, it₁, hr₁, hd₁, -, hl, rfl⟩ := resolve_snoc_ok hr
    have hprev := ih hr₁ hd₁ fun a b r₂ hsplit => hout a (b ++ [n]) r₂ (by rw [hsplit]; simp)
    have hlive := liveEntries_item (lookup_mem hl).1
    refine hprev.step (i := it₁.index) ?_ hd
    rw [Entries.put_other]
    · exact hlive
    · -- the entry of the directory would lead to it
      rintro ⟨heq, hidx⟩
      have hmem := (lookup_mem hl).1
      rw [heq] at hmem
      obtain rfl := item_eq_of_index hmem hit hidx
      exact hout (cs ++ [n]) [] _ (by simp) hr hd rfl

/-- What lies behind a directory on a path is reached from it. -/
theorem reach_behind (ha : resolve g v a = .ok r)
    (hr : resolve g v (a ++ b) = .ok r') (hd : isDir r' = true) :
    Reach (liveEntries g v) (dirCluster g r) (dirCluster g r') := by
  induction b using List.reverseRecOn generalizing r' with
  | nil =>
    rw [List.append_nil, ha] at hr
    cases hr
    exact .root
  | append_singleton b n ih =>
    rw [← List.append_assoc] at hr
    obtain ⟨r₁, it₁, hr₁, hd₁, -, hl, rfl⟩ := resolve_snoc_ok hr
    exact (ih hr₁ hd₁).step (liveEntries_item (lookup_mem hl).1) hd

/-- Where the entries outside the subtree of a directory are the old ones without the entry of the
directory, what is reachable lies outside the subtree. -/
theorem Sound.outside_subtree (hs : Sound ok g v D own) (hd : D d)
    (he : liveEntries g v d i = some e) (hdir : e.isDirectory = true) {L : Entries}
    (hL : ∀ y j e', D y → ¬ Reach (liveEntries g v) e.entryFirstCluster y → L y j = some e' →
      liveEntries g v y j = some e' ∧ ¬ (y = d ∧ j = i))
    (hx : Reach L g.rootCluster x) :
    Reachable g v x ∧ ¬ Reach (liveEntries g v) e.entryFirstCluster x := by
  have hclosed : ∀ {y}, Reach (liveEntries g v) e.entryFirstCluster y → D y := by
    intro y hy
    induction hy with
    | root => exact hs.cert.closed hd he hdir
    | step _ entry dir ih => exact hs.cert.closed ih entry dir
  induction hx with
  | root =>
    refine ⟨.root, fun hroot => ?_⟩
    generalize hrc : g.rootCluster = rc at hroot
    cases hroot with
    | root => exact hs.cert.entry_ne_root hd he hrc.symm
    | step parent entry dir => exact hs.cert.entry_ne_root (hclosed parent) entry hrc.symm
  | @step y j e' parent entry dir ih =>
    obtain ⟨hy, hnot⟩ := ih
    have hDy := hs.reachable hy
    obtain ⟨hentry, hne⟩ := hL y j e' hDy hnot entry
    refine ⟨hy.step hentry dir, fun hbelow => ?_⟩
    -- the one entry that names a directory of the subtree lies in it too
    generalize hc : e'.entryFirstCluster = c at hbelow
    cases hbelow with
    | root => exact hne (hs.cert.entry_unique hd hDy he hentry (hs.subdir_ne_zero hd he hdir) hc)
    | step parent' entry' dir' =>
      obtain ⟨hyz, -⟩ := hs.cert.entry_unique (hclosed parent') hDy entry' hentry
        (hs.subdir_ne_zero (hclosed parent') entry' dir') hc
      rw [hyz] at hnot
      exact hnot parent'

/-- A directory is not reached from below its own entry. -/
theorem Sound.not_reach_parent (hs : Sound ok g v D own) (hd : Reachable g v d)
    (he : liveEntries g v d i = some e) (hdir : e.isDirectory = true) :
    ¬ Reach (liveEntries g v) e.entryFirstCluster d := by
  intro hin
  refine (hs.outside_subtree (hs.reachable hd) he hdir (fun y j e' _ hy he' => ⟨he', ?_⟩) hd).2 hin
  rintro ⟨rfl, -⟩
  exact hy hin

/-- Where the directories that are reachable have the same subdirectories, the tree is the same. -/
theorem KeepsTree.congr (h : KeepsTree g v vm)
    (hsame : ∀ y, Reachable g vm y → ∀ j e, e.isDirectory = true →
      (liveEntries g v' y j = some e ↔ liveEntries g vm y j = some e)) : KeepsTree g v v' := by
  have hback : ∀ {x}, Reachable g v' x → Reachable g vm x := by
    intro x hx
    induction hx with
    | root => exact .root
    | @step y j e _ entry dir ih => exact ih.step ((hsame y ih j e dir).mp entry) dir
  have hlive : ∀ {d i e}, LiveIn g v' d i e → e.isDirectory = true → LiveIn g vm d i e :=
    fun {d i e} he hdir => ⟨hback he.1, (hsame d (hback he.1) i e hdir).mp he.2⟩
  refine ⟨fun x hx => ?_, fun d i e he hdir => ?_⟩
  · exact (h.1 x hx).mono fun y j e hy he hdir => ⟨j, e, (hsame y hy j e hdir).mpr he, hdir, rfl⟩
  · obtain ⟨hroot, honce⟩ := h.2 d i e (hlive he hdir) hdir
    exact ⟨hroot, fun d' i' e' he' hdir' => honce d' i' e' (hlive he' hdir') hdir'⟩

/-! ### The slot `..` -/

/-- Where slot 1 is no directory, the subdirectories are kept. -/
theorem ParentWritten.subdir_iff (h : ParentWritten g v v' D m parent)
    (hslot : ∀ x, liveEntries g v m 1 = some x → x.isDirectory = false) (hx : D x)
    (hdir : e.isDirectory = true) :
    liveEntries g v' x i = some e ↔ liveEntries g v x i = some e := by
  rw [h.live hx]
  split
  · next heq =>
      rw [heq.1, heq.2]
      constructor
      · intro he
        obtain ⟨y, hy, rfl⟩ := Option.map_eq_some_iff.mp he
        rw [isDirectory_of_sameName sameName_setFirstCluster, hslot y hy] at hdir
        cases hdir
      · intro he
        rw [hslot e he] at hdir
        cases hdir
  · rfl

theorem Sound.dir_lt (h : Sound ok g v D own) (hd : D d) : d < 2 ^ 32 := by
  obtain ⟨hch, hne⟩ := h.cert.dir_chain hd
  have hvalid := g.isValidDataCluster_iff.1 (hch.valid _ (hch.head_mem hne))
  have hlt := g.totalClusters_lt
  omega

theorem liveEntries_zero : liveEntries g v 0 i = none := by
  rw [liveEntries, dirEntries, clusterChain_zero]
  rfl

/-- A directory in slot 1 is cut off. -/
theorem ParentWritten.cut_off (h : ParentWritten g v v' D m parent) (hs : Sound ok g v D own)
    (hm : D m) (he : liveEntries g v m 1 = some e) (hdir : e.isDirectory = true)
    (hp : D parent ∨ parent = 0) (hne : parent ≠ e.entryFirstCluster) :
    ¬ Reachable g v' e.entryFirstCluster := by
  have hlt : parent < 2 ^ 32 := by
    rcases hp with hp | rfl
    · exact hs.dir_lt hp
    · decide
  have hinv : ∀ {x}, Reachable g v' x → (D x ∨ x = 0) ∧ x ≠ e.entryFirstCluster := by
    intro x hx
    induction hx with
    | root => exact ⟨.inl hs.cert.rootDir, (hs.cert.entry_ne_root hm he).symm⟩
    | @step y j e' _ entry dir ih =>
      rcases ih.1 with hy | rfl
      · rw [h.live hy] at entry
        split at entry
        · obtain ⟨x, -, rfl⟩ := Option.map_eq_some_iff.mp entry
          rw [DirectoryEntry.entryFirstCluster_set hlt]
          exact ⟨hp, hne⟩
        · next hother =>
            refine ⟨.inl (hs.cert.closed hy entry dir), fun heq => hother ?_⟩
            exact hs.cert.entry_unique hm hy he entry (hs.subdir_ne_zero hm he hdir) heq
      · rw [liveEntries_zero] at entry
        cases entry
  exact fun hx => (hinv hx).2 rfl

/-! ### The move -/

/-- An entry after a move is the one that has moved, or was where it is. -/
theorem Moved.live_cases (hm : Moved ok g v v' D own own' d d' it it' name) (hx : D x)
    (he : liveEntries g v' x i = some e) :
    x = d' ∧ i = it'.index ∧ e = it'.entry ∨
      ¬ (x = d ∧ i = it.index) ∧ liveEntries g v x i = some e := by
  rw [hm.live x hx, movedEntries] at he
  by_cases hnew : x = d' ∧ i = it'.index
  · obtain ⟨rfl, rfl⟩ := hnew
    rw [Entries.put_self] at he
    exact .inl ⟨rfl, rfl, (Option.some.inj he).symm⟩
  · rw [Entries.put_other hnew] at he
    by_cases hold : x = d ∧ i = it.index
    · obtain ⟨rfl, rfl⟩ := hold
      rw [Entries.put_self] at he
      cases he
    · rw [Entries.put_other hold] at he
      exact .inr ⟨hold, he⟩

/-- The entries outside the subtree of a directory that is moved into it. -/
theorem Moved.live_outside (h : Moved ok g v v' D own own' d d' it it' name)
    (hin : Reach (liveEntries g v) it.entry.entryFirstCluster d') (hx : D x)
    (hout : ¬ Reach (liveEntries g v) it.entry.entryFirstCluster x)
    (he : liveEntries g v' x i = some e) :
    liveEntries g v x i = some e ∧ ¬ (x = d ∧ i = it.index) := by
  rcases h.live_cases hx he with ⟨rfl, -⟩ | ⟨hne, hold⟩
  · exact absurd hin hout
  · exact ⟨hold, hne⟩

theorem EntryLost.live_outside (h : EntryLost g v v' D d it) (hx : D x)
    (he : liveEntries g v' x i = some e) :
    liveEntries g v x i = some e ∧ ¬ (x = d ∧ i = it.index) := by
  rw [h.live hx] at he
  by_cases hold : x = d ∧ i = it.index
  · rw [hold.1, hold.2, Entries.put_self] at he
    cases he
  · rw [Entries.put_other hold] at he
    exact ⟨he, hold⟩

end

/-! ## The operation -/

section

variable {ok : List DirectoryEntry → Prop} {g : Geometry} {v vm v' : Volume} {env : Env}
  {s s' : State} {oldPath newPath : CStr} {D : Nat → Prop} {own : Owner → List Nat}
  {cs cs' : List CStr} {r r' : Option DirectoryEntry} {name name' parentPath' : CStr} {it : Item}
  {x : DirectoryEntry}

theorem RenamePaths.resolve_old
    (h : RenamePaths g v oldPath newPath cs cs' r r' name name' parentPath' it) :
    resolve g v (splitComponents oldPath) = .ok (some it.entry) := by
  obtain ⟨_, _, hp⟩ := h.old
  simp only [hp.split, resolve_snoc, hp.resolved, hp.dir, hp.valid, h.found]
  rfl

/-- The path of the new parent, whose components are `cs'`, leads through the directory. -/
def Passes (g : Geometry) (v : Volume) (cs' : List CStr) (m : Nat) : Prop :=
  ∃ a b r, cs' = a ++ b ∧ resolve g v a = .ok r ∧ isDir r = true ∧ dirCluster g r = m

theorem RenamePaths.leadsThrough_iff
    (h : RenamePaths g v oldPath newPath cs cs' r r' name name' parentPath' it) :
    LeadsThrough g v oldPath newPath ↔
      it.entry.isDirectory = true ∧ Passes g v cs' it.entry.entryFirstCluster := by
  obtain ⟨_, hp'⟩ := h.new
  constructor
  · rintro ⟨e, a, b, n, r₁, hold, hdir, hnew, hr₁, hd₁, heq⟩
    rw [h.resolve_old] at hold
    cases hold
    exact ⟨hdir, a, b, r₁, (List.append_inj' (hp'.split.symm.trans hnew) rfl).1, hr₁, hd₁, heq⟩
  · rintro ⟨hdir, a, b, r₁, rfl, hr₁, hd₁, heq⟩
    exact ⟨it.entry, a, b, name', r₁, h.resolve_old, hdir, hp'.split, hr₁, hd₁, heq⟩

theorem RenamePaths.losesEntry_iff
    (h : RenamePaths g v oldPath newPath cs cs' r r' name name' parentPath' it) :
    LosesEntry g v oldPath newPath ↔ dirCluster g r = dirCluster g r' ∧
      OverlapsOld (dirEntries g v (dirCluster g r)) it (newSlots g v r r' name' it) := by
  constructor
  · rintro ⟨cs₀, cs₀', r₀, r₀', name₀, name₀', _, it₀, h₀, hsame, hover⟩
    obtain ⟨_, _, hp⟩ := h.old
    obtain ⟨_, hp'⟩ := h.new
    obtain ⟨_, _, hp₀⟩ := h₀.old
    obtain ⟨_, hp₀'⟩ := h₀.new
    -- the paths determine what they lead to
    obtain ⟨rfl, hname⟩ := List.append_inj' (hp.split.symm.trans hp₀.split) rfl
    obtain ⟨rfl, hname'⟩ := List.append_inj' (hp'.split.symm.trans hp₀'.split) rfl
    obtain rfl : r = r₀ := Except.ok.inj (hp.resolved.symm.trans hp₀.resolved)
    obtain rfl : r' = r₀' := Except.ok.inj (hp'.resolved.symm.trans hp₀'.resolved)
    obtain rfl : name = name₀ := (List.cons.inj hname).1
    obtain rfl : name' = name₀' := (List.cons.inj hname').1
    obtain rfl : it = it₀ := Option.some.inj (h.found.symm.trans h₀.found)
    exact ⟨hsame, hover⟩
  · rintro ⟨hsame, hover⟩
    exact ⟨_, _, _, _, _, _, _, _, h, hsame, hover⟩

theorem RenamePaths.breaksTree_iff
    (h : RenamePaths g v oldPath newPath cs cs' r r' name name' parentPath' it) :
    BreaksTree g v oldPath newPath ↔ it.entry.isDirectory = true ∧
      (Passes g v cs' it.entry.entryFirstCluster ∨ LosesEntry g v oldPath newPath ∨
        ∃ x, liveEntries g v it.entry.entryFirstCluster 1 = some x ∧ x.isDirectory = true) := by
  have hfound : ∀ {e}, resolve g v (splitComponents oldPath) = .ok (some e) → it.entry = e :=
    fun he => Option.some.inj (Except.ok.inj (h.resolve_old.symm.trans he))
  constructor
  · rintro (hthrough | ⟨e, he, hdir, hlost⟩ | ⟨e, x, he, hdir, hx, hxdir⟩)
    · obtain ⟨hdir, hpass⟩ := h.leadsThrough_iff.mp hthrough
      exact ⟨hdir, .inl hpass⟩
    · obtain rfl := hfound he
      exact ⟨hdir, .inr (.inl hlost)⟩
    · obtain rfl := hfound he
      exact ⟨hdir, .inr (.inr ⟨x, hx, hxdir⟩)⟩
  · rintro ⟨hdir, hpass | hlost | ⟨x, hx, hxdir⟩⟩
    · exact .through (h.leadsThrough_iff.mpr ⟨hdir, hpass⟩)
    · exact .lost _ h.resolve_old hdir hlost
    · exact .overwritten _ x h.resolve_old hdir hx hxdir

/-- A directory is cut off where no entry outside its subtree leads to it any more. -/
theorem RenameDone.not_keepsTree
    (h : RenameDone ok g v vm v' D own oldPath newPath cs cs' r r' name name' parentPath' it)
    (hs : Sound ok g v D own) (hdir : it.entry.isDirectory = true)
    (hout : ∀ y j e, D y → ¬ Reach (liveEntries g v) it.entry.entryFirstCluster y →
      liveEntries g vm y j = some e →
      liveEntries g v y j = some e ∧ ¬ (y = dirCluster g r ∧ j = it.index)) :
    ¬ KeepsTree g v v' := by
  intro hkeep
  obtain ⟨hd, -, hit⟩ := h.mem hs
  obtain ⟨_, _, hp⟩ := h.old
  have hparent := h.parent
  rw [if_pos hdir] at hparent
  have hlive := liveEntries_item hit
  have hm := (hs.reachable_of_resolve hp.resolved hp.dir).step hlive hdir
  refine (hs.outside_subtree hd hlive hdir (fun y j e hy hbelow he => ?_) (hkeep.1 _ hm)).2 .root
  have hym : ¬ (y = it.entry.entryFirstCluster ∧ j = 1) := by
    rintro ⟨rfl, -⟩
    exact hbelow .root
  rw [hparent.live hy, if_neg hym] at he
  exact hout y j e hy hbelow he

/-- The slot `..` is not given the cluster of a directory in slot 1. -/
theorem Sound.parentCluster_ne (hs : Sound ok g v D own) {m : Nat} (hm : D m)
    (hr : resolve g v cs' = .ok r') (hd : isDir r' = true) (hnot : ¬ Passes g v cs' m)
    (hx : liveEntries g v m 1 = some x) (hxdir : x.isDirectory = true) :
    (D (parentCluster g r') ∨ parentCluster g r' = 0) ∧
      parentCluster g r' ≠ x.entryFirstCluster := by
  cases r' with
  | none => exact ⟨.inr rfl, (hs.subdir_ne_zero hm hx hxdir).symm⟩
  | some e =>
    refine ⟨.inl (hs.dir_of_resolve hr hd), fun heq => ?_⟩
    rcases List.eq_nil_or_concat cs' with rfl | ⟨a, n, rfl⟩
    · cases hr
    · rw [List.concat_eq_append] at hr hnot
      obtain ⟨r₁, it₁, hr₁, hd₁, -, hl, he⟩ := resolve_snoc_ok hr
      obtain rfl := Option.some.inj he
      -- the one entry that names it is in the directory that moves
      obtain ⟨hdm, -⟩ := hs.cert.entry_unique hm (hs.dir_of_resolve hr₁ hd₁) hx
        (liveEntries_item (lookup_mem hl).1) (hs.subdir_ne_zero hm hx hxdir) heq
      exact hnot ⟨a, [n], r₁, rfl, hr₁, hd₁, hdm⟩

/-- A directory that is moved is itself neither its old parent nor, if the path of the new parent
does not pass through it, the new one. -/
theorem RenameDone.apart
    (h : RenameDone ok g v vm v' D own oldPath newPath cs cs' r r' name name' parentPath' it)
    (hs : Sound ok g v D own) (hdir : it.entry.isDirectory = true)
    (hnot : ¬ Passes g v cs' it.entry.entryFirstCluster) :
    it.entry.entryFirstCluster ≠ dirCluster g r ∧
      it.entry.entryFirstCluster ≠ dirCluster g r' := by
  obtain ⟨_, _, hp⟩ := h.old
  obtain ⟨_, hp'⟩ := h.new
  have hit := (lookup_mem h.found).1
  constructor
  · intro heq
    have hbelow := hs.not_reach_parent (hs.reachable_of_resolve hp.resolved hp.dir)
      (liveEntries_item hit) hdir
    rw [heq] at hbelow
    exact hbelow .root
  · intro heq
    exact hnot ⟨cs', [], r', by simp, hp'.resolved, hp'.dir, heq.symm⟩

/-- What a rename of a directory does to the tree. -/
theorem RenameDone.keepsTree_iff
    (h : RenameDone ok g v vm v' D own oldPath newPath cs cs' r r' name name' parentPath' it)
    (hs : Sound ok g v D own) (hdir : it.entry.isDirectory = true) :
    KeepsTree g v v' ↔ ¬ BreaksTree g v oldPath newPath := by
  obtain ⟨hd, hd', hit⟩ := h.mem hs
  obtain ⟨_, _, hp⟩ := h.old
  obtain ⟨_, hp'⟩ := h.new
  have hm := hs.subdir hd hit hdir
  have hreach := (hs.reachable_of_resolve hp.resolved hp.dir).step (liveEntries_item hit) hdir
  have hparent := h.parent
  rw [if_pos hdir] at hparent
  rw [h.breaksTree_iff, h.losesEntry_iff]
  cases h.slots with
  | lost same overlap entry =>
    have hbreak := h.not_keepsTree hs hdir fun y j e hy _ he => entry.live_outside hy he
    exact ⟨fun hkeep => absurd hkeep hbreak,
      fun hnot => absurd ⟨hdir, .inr (.inl ⟨same, overlap⟩)⟩ hnot⟩
  | moved apart own' it' entry =>
    by_cases hpass : Passes g v cs' it.entry.entryFirstCluster
    · refine ⟨fun hkeep => ?_, fun hnot => absurd ⟨hdir, .inl hpass⟩ hnot⟩
      obtain ⟨a, b, r₁, rfl, hr₁, -, heq⟩ := hpass
      have hin := reach_behind hr₁ hp'.resolved hp'.dir
      rw [heq] at hin
      exact absurd hkeep
        (h.not_keepsTree hs hdir fun y j e hy hout he => entry.live_outside hin hy hout he)
    · obtain ⟨hne, hne'⟩ := h.apart hs hdir hpass
      constructor
      · rintro hkeep ⟨-, hpass' | hlost | ⟨x, hx, hxdir⟩⟩
        · exact hpass hpass'
        · exact apart hlost
        · obtain ⟨hpar, hparne⟩ := hs.parentCluster_ne hm hp'.resolved hp'.dir hpass hx hxdir
          have hx' := entry.live_other hm hx fun heq => hne heq.1
          exact hparent.cut_off entry.sound hm hx' hxdir hpar hparne
            (hkeep.1 _ (hreach.step hx hxdir))
      · intro hnot
        have havoid := reach_outside hp'.resolved hp'.dir hit fun a b r₁ hsplit hr₁ hd₁ heq =>
          hpass ⟨a, b, r₁, hsplit, hr₁, hd₁, heq⟩
        have hkeep : KeepsTree g v vm :=
          ⟨fun y hy => entry.reachable hs hd hd' (fun _ => havoid) hy, entry.sound.treeShaped⟩
        refine hkeep.congr fun y hy j e he =>
          hparent.subdir_iff (fun x hx => ?_) (entry.sound.reachable hy) he
        -- slot 1 was the same before the move
        rcases entry.live_cases hm hx with ⟨heq, -⟩ | ⟨-, hx⟩
        · exact absurd heq hne'
        · exact Bool.eq_false_iff.mpr fun hxdir => hnot ⟨hdir, .inr (.inr ⟨x, hx, hxdir⟩)⟩

/-- A rename of a file keeps the tree, even where the file is lost. -/
theorem RenameDone.keepsTree_file
    (h : RenameDone ok g v vm v' D own oldPath newPath cs cs' r r' name name' parentPath' it)
    (hs : Sound ok g v D own) (hfile : ¬ it.entry.isDirectory = true) : KeepsTree g v v' := by
  obtain ⟨hd, hd', hit⟩ := h.mem hs
  have hparent := h.parent
  rw [if_neg hfile] at hparent
  subst hparent
  cases h.slots with
  | moved _ own' it' entry =>
    exact ⟨fun y hy => entry.reachable hs hd hd' (fun hdir => absurd hdir hfile) hy,
      entry.sound.treeShaped⟩
  | lost _ _ entry =>
    refine KeepsTree.congr ⟨fun _ hx => hx, hs.treeShaped⟩ fun y hy j e hdir => ?_
    rw [entry.live (hs.reachable hy)]
    by_cases hold : y = dirCluster g r ∧ j = it.index
    · -- the file is no directory
      rw [hold.1, hold.2, Entries.put_self, liveEntries_item hit]
      refine ⟨nofun, fun heq => ?_⟩
      obtain rfl := Option.some.inj heq
      exact absurd hdir hfile
    · rw [Entries.put_other hold]

/-- Whatever the spellings of the two paths, a successful call of `fat32_rename` on a well-formed
volume keeps the tree of directories exactly if it does not break it in one of three ways. -/
theorem keepsTree_iff_of_rename (hfuel : env.geometry.totalClusters < env.fuel)
    (hrel : ¬ env.Faulty) (hwf : WellFormed env.geometry (s.volume env.geometry))
    (hcall : fat32Rename env oldPath newPath s = .ok () s') :
    KeepsTree env.geometry (s.volume env.geometry) (s'.volume env.geometry) ↔
      oldPath = newPath ∨ ¬ BreaksTree env.geometry (s.volume env.geometry) oldPath newPath := by
  have hs := hwf.sound
  rcases (fat32Rename_sat hfuel hrel rfl hs).of_ok hcall with
    ⟨heq, hv⟩ | ⟨vm, cs, cs', r, r', name, name', parentPath', it, hr⟩
  · rw [hv]
    exact ⟨fun _ => .inl heq, fun _ => ⟨fun _ hd => hd, hs.treeShaped⟩⟩
  · have hne : oldPath ≠ newPath := by
      -- with equal paths the entry would be there and not be there
      rintro rfl
      obtain ⟨_, _, hp⟩ := hr.old
      obtain ⟨_, hp'⟩ := hr.new
      obtain ⟨rfl, hname⟩ := List.append_inj' (hp.split.symm.trans hp'.split) rfl
      cases hname
      obtain rfl : r = r' := Except.ok.inj (hp.resolved.symm.trans hp'.resolved)
      have habsent := hr.absent
      rw [hr.found] at habsent
      cases habsent
    rw [or_iff_right hne]
    by_cases hdir : it.entry.isDirectory = true
    · exact hr.keepsTree_iff hs hdir
    · exact ⟨fun _ hbreak => hdir (hr.breaksTree_iff.mp hbreak).1,
        fun _ => hr.keepsTree_file hs hdir⟩

end

/-- The volume with one directory, `A`. -/
def dirState : State := afterCall (.makeDir [slash, 0x41]) emptyState

theorem dirState_check :
    checkVolume smallGeometry (dirState.volume smallGeometry) [2, 3] = true ∧
      checkRegular smallGeometry (dirState.volume smallGeometry) [2, 3] = true := by
  decide +kernel

theorem keepsTree_iff_of_rename_self :
    KeepsTree smallGeometry (dirState.volume smallGeometry)
      ((afterCall (.rename [slash, 0x41] [slash, 0x61, slash, 0x42]) dirState).volume
        smallGeometry) ↔
    [slash, 0x41] = [slash, 0x61, slash, 0x42] ∨ ¬ BreaksTree smallGeometry
      (dirState.volume smallGeometry) [slash, 0x41] [slash, 0x61, slash, 0x42] :=
  keepsTree_iff_of_rename (by decide) smallEnv_reliable (sound_of_check dirState_check.1).2
    (Prog.eq_ok_of_isOk (o := (Operation.rename [slash, 0x41] [slash, 0x61, slash, 0x42]).call
      smallEnv dirState) (by decide +kernel))

/-- `/A` can be renamed to `/a/B`, which takes it out of the tree. -/
theorem rename_cuts_off :
    WellFormed smallGeometry (dirState.volume smallGeometry) ∧
    fat32Rename smallEnv [slash, 0x41] [slash, 0x61, slash, 0x42] dirState
      = .ok () (afterCall (.rename [slash, 0x41] [slash, 0x61, slash, 0x42]) dirState) ∧
    Reachable smallGeometry (dirState.volume smallGeometry) 3 ∧
    ¬ Reachable smallGeometry ((afterCall (.rename [slash, 0x41] [slash, 0x61, slash, 0x42])
      dirState).volume smallGeometry) 3 := by
  refine ⟨(sound_of_check dirState_check.1).2,
    Prog.eq_ok_of_isOk (o := (Operation.rename [slash, 0x41] [slash, 0x61, slash, 0x42]).call
      smallEnv dirState) (by decide +kernel), ?_, ?_⟩
  · -- slot 0 of the root names the directory
    have hlive : ((liveEntries smallGeometry (dirState.volume smallGeometry) 2 0).any
        fun e => e.isDirectory && e.entryFirstCluster == 3) = true := by decide +kernel
    obtain ⟨e, he, htest⟩ := (Option.any_eq_true _ _).mp hlive
    simp only [Bool.and_eq_true, beq_iff_eq] at htest
    have hreach := Reach.step (.root : Reach (liveEntries smallGeometry
      (dirState.volume smallGeometry)) 2 2) he htest.1
    rw [htest.2] at hreach
    exact hreach
  · intro hreach
    have hcheck : checkVolume smallGeometry ((afterCall (.rename [slash, 0x41]
        [slash, 0x61, slash, 0x42]) dirState).volume smallGeometry) [2] = true := by decide +kernel
    have hmem := (sound_of_check hcheck).1.reachable hreach
    simp at hmem

end FunnyOS.Fat32
