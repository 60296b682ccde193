import FunnyOS.Fat32.ReadBack
import FunnyOS.Fat32.Subtree
import FunnyOS.Fat32.Uniqueness

/-!
# What a rename changes

A successful call of `fat32_rename` takes the entry out of one listing and puts it, with the new
name, into another one. What lay below the old path lies below the new one, other paths answer as
before, and at most one cluster is appended to the new parent.
-/

namespace FunnyOS.Fat32

open Prog

/-! ## Lists with one more entry -/

/-- `l'` is `l` with one more element. -/
def OneMore {α : Type} (l l' : List α) (x : α) : Prop := ∃ a b, l = a ++ b ∧ l' = a ++ x :: b

section

variable {l l' : List Item} {it : Item} {n : CStr}

theorem Inserted.find_other (h : Inserted l l' it) (hn : nameEqualsIgnoreCase it.name n = false) :
    l'.find? (fun x => nameEqualsIgnoreCase x.name n)
      = l.find? (fun x => nameEqualsIgnoreCase x.name n) := by
  obtain ⟨a, b, rfl, rfl⟩ := h
  rw [List.find?_append, List.find?_append, List.find?_cons, hn]

theorem Inserted.find_self (h : Inserted l l' it)
    (hnone : l.find? (fun x => nameEqualsIgnoreCase x.name n) = none)
    (hn : nameEqualsIgnoreCase it.name n = true) :
    l'.find? (fun x => nameEqualsIgnoreCase x.name n) = some it := by
  obtain ⟨a, b, rfl, rfl⟩ := h
  rw [List.find?_append, Option.or_eq_none_iff] at hnone
  rw [List.find?_append, hnone.1, Option.none_or, List.find?_cons, hn]

/-- The names of a list and of one more entry differ. -/
theorem Inserted.unique_iff (h : Inserted l l' it) :
    l'.Pairwise (fun a b => nameEqualsIgnoreCase a.name b.name = false) ↔
      (∀ x ∈ l, nameEqualsIgnoreCase it.name x.name = false) ∧
        l.Pairwise (fun a b => nameEqualsIgnoreCase a.name b.name = false) := by
  rw [h.perm.pairwise_iff (fun hab => by rw [nameEqualsIgnoreCase_comm]; exact hab),
    List.pairwise_cons]

/-- Where the names differ, an entry that is taken out is not found again. -/
theorem Inserted.find_gone (h : Inserted l l' it)
    (huniq : l'.Pairwise fun a b => nameEqualsIgnoreCase a.name b.name = false)
    (hn : nameEqualsIgnoreCase it.name n = true) :
    l.find? (fun x => nameEqualsIgnoreCase x.name n) = none := by
  rw [List.find?_eq_none]
  intro x hx heq
  have hne := (h.unique_iff.1 huniq).1 x hx
  rw [nameEqualsIgnoreCase_trans hn (nameEqualsIgnoreCase_comm.trans heq)] at hne
  cases hne

theorem Inserted.infos (h : Inserted l l' it) :
    OneMore (l.map Item.info) (l'.map Item.info) it.info := by
  obtain ⟨a, b, rfl, rfl⟩ := h
  exact ⟨a.map Item.info, b.map Item.info, List.map_append,
    by rw [List.map_append, List.map_cons]⟩

/-- A name that no entry has. -/
theorem not_nameEquals_of_find (hnone : l.find? (fun x => nameEqualsIgnoreCase x.name n) = none)
    (hit : it ∈ l) : nameEqualsIgnoreCase it.name n = false :=
  Bool.eq_false_iff.mpr (List.find?_eq_none.mp hnone it hit)

end

/-! ## Lookups after a move -/

section

variable {ok : List DirectoryEntry → Prop} [TidyRules ok] {g : Geometry} {v v' : Volume}
  {D : Nat → Prop} {own own' : Owner → List Nat} {d d' x : Nat} {it it' : Item}
  {name name' n : CStr}

/-- Other names are found where they were. -/
theorem Moved.lookup_other (h : Moved ok g v v' D own own' d d' it it' name') (hx : D x)
    (hold : x = d → nameEqualsIgnoreCase it.name n = false)
    (hnew : x = d' → nameEqualsIgnoreCase it'.name n = false) :
    lookup (dirEntries g v' x) n = lookup (dirEntries g v x) n := by
  have hlists := h.lists
  unfold ListsMoved at hlists
  unfold lookup
  by_cases hxd : x = d
  · subst hxd
    split at hlists
    · next hdd =>
        obtain ⟨mid, hin, hout⟩ := hlists
        rw [← hout.find_other (hold rfl), hin.find_other (hnew hdd)]
    · exact (hlists.1.find_other (hold rfl)).symm
  · by_cases hxd' : x = d'
    · subst hxd'
      rw [if_neg (Ne.symm hxd)] at hlists
      exact hlists.2.find_other (hnew rfl)
    · rw [(h.others x ⟨hx, hxd, hxd'⟩).2]

/-- The new name leads to the entry. -/
theorem Moved.lookup_new (h : Moved ok g v v' D own own' d d' it it' name')
    (habsent : lookup (dirEntries g v d') name' = none) :
    lookup (dirEntries g v' d') name' = some it' := by
  have hlists := h.lists
  unfold ListsMoved at hlists
  unfold lookup at habsent ⊢
  split at hlists
  · next hdd =>
      subst hdd
      obtain ⟨mid, hin, hout⟩ := hlists
      rw [← hout.find_other (not_nameEquals_of_find habsent h.mem)]
      exact hin.find_self habsent h.named
  · exact hlists.2.find_self habsent h.named

/-- The old name leads nowhere. -/
theorem Moved.lookup_old (h : Moved ok g v v' D own own' d d' it it' name')
    (huniq : UniqueNames (dirEntries g v d))
    (habsent : lookup (dirEntries g v d') name' = none)
    (hn : nameEqualsIgnoreCase it.name name = true) :
    lookup (dirEntries g v' d) name = none := by
  have hlists := h.lists
  unfold ListsMoved at hlists
  unfold lookup at habsent ⊢
  split at hlists
  · next hdd =>
      subst hdd
      obtain ⟨mid, hin, hout⟩ := hlists
      refine hout.find_gone (hin.unique_iff.2 ⟨?_, huniq⟩) hn
      intro x hx
      rw [← Bool.not_eq_true]
      intro heq
      have hne := not_nameEquals_of_find habsent hx
      rw [nameEqualsIgnoreCase_trans (nameEqualsIgnoreCase_comm.trans heq) h.named] at hne
      cases hne
  · exact hlists.1.find_gone huniq hn

theorem Moved.frame (h : Moved ok g v v' D own own' d d' it it' name')
    (hnamed : nameEqualsIgnoreCase it.name name = true) (hname : name.map kToupper = name)
    (hname' : name'.map kToupper = name') :
    Frame g v v' D (fun x n => x = d ∧ n = name ∨ x = d' ∧ n = name')
      (fun c => c ∈ clusterChain g v.fat d ∨ c ∈ clusterChain g v.fat d') where
  lookups x n hx hn hnot := by
    rw [h.lookup_other hx
      (fun hxd => nameEquals_other hnamed hname hn fun heq => hnot (.inl ⟨hxd, heq⟩))
      (fun hxd => nameEquals_other h.named hname' hn fun heq => hnot (.inr ⟨hxd, heq⟩))]
  dirs := h.others.mono fun x hx => ⟨hx.1, fun heq => hx.2 name (.inl ⟨heq, rfl⟩),
    fun heq => hx.2 name' (.inr ⟨heq, rfl⟩)⟩
  preserved := h.preserved

end

/-! ## The slot `..` -/

section

variable {ok : List DirectoryEntry → Prop} {g : Geometry} {v v' : Volume} {D : Nat → Prop}
  {own : Owner → List Nat} {m parent : Nat} {path : CStr} {cs : List CStr}

/-- A new `..` changes nothing that is found, listed or read. -/
theorem Reparented.resolve_eq (h : Reparented ok g v v' D own m parent) (hs : Sound ok g v D own) :
    resolve g v' cs = resolve g v cs := by
  refine resolve_congr ?_
  intro pre n rest r _ hr hd
  have hx := hs.dir_of_resolve hr hd
  by_cases hxm : dirCluster g r = m
  · rw [hxm, lookup, lookup, h.items]
  · rw [(h.others _ ⟨hx, hxm⟩).2]

theorem Reparented.listing_eq (h : Reparented ok g v v' D own m parent)
    (hs : Sound ok g v D own) : listing g v' path = listing g v path := by
  rw [listing, listing, h.resolve_eq hs]
  rcases hr : resolve g v (splitComponents path) with e | r
  · rfl
  · by_cases hd : isDir r = true
    · simp only [hd, if_true]
      by_cases hxm : dirCluster g r = m
      · rw [hxm, h.items]
      · rw [(h.others _ ⟨hs.dir_of_resolve hr hd, hxm⟩).2]
    · simp only [hd]
      rfl

theorem Reparented.contents_eq (h : Reparented ok g v v' D own m parent) (hm : D m)
    (hs : Sound ok g v D own) : contents g v' path = contents g v path := by
  rw [contents, contents, h.resolve_eq hs]
  rcases hr : resolve g v (splitComponents path) with code | _ | e
  · rfl
  · rfl
  · by_cases hdir : e.isDirectory = true
    · simp only [hdir, if_true]
    · simp only [hdir]
      obtain ⟨x, it, hx, hit, rfl⟩ := hs.entry_of_resolve hr
      exact h.preserved.fileContent (hs.entryOk hx hit).chain fun c hc =>
        hs.file_apart hx hit (Bool.eq_false_iff.mpr hdir) hm hc

end

/-! ## A cluster that is appended -/

/-- A chain whose links change by one appended cluster is longer by that cluster. -/
theorem clusterChain_appended {g : Geometry} {fat fat' : Nat → Nat} {d c last : Nat} {l l' : List Nat}
    (h : Chain g fat d l) (h' : Chain g fat' d l') (hpre : l <+: l') (hc : c ∈ freeClusters g fat)
    (hlast : last ∈ l)
    (hfat : fat' = fun x => if x = last then c else if x = c then endOfChain else fat x) :
    l' = l ++ [c] := by
  obtain ⟨hvalid, hfree⟩ := mem_freeClusters.mp hc
  have hne : c ≠ last := by
    rintro rfl
    exact h.fat_ne_zero c hlast hfree
  have hnext : fat32NextCluster g fat' last = c := by
    rw [fat32NextCluster_of_valid (h.valid last hlast), hfat]
    simp only [if_true]
    exact valid_mod hvalid
  have hend : Chain g fat' c [c] := by
    refine chain_cons.mpr ⟨rfl, hvalid, ?_⟩
    rw [fat32NextCluster_of_valid hvalid, hfat]
    simp only [if_neg hne, if_true, endOfChain_mod]
    exact chain_nil.mpr (Nat.le_refl _)
  obtain ⟨t, rfl⟩ := hpre
  obtain ⟨p, q, rfl⟩ := List.append_of_mem hlast
  rw [List.append_assoc, List.cons_append] at h'
  have hrest := (chain_cons.mp (Linked.suffix h')).2.2
  rw [hnext] at hrest
  have heq : q ++ t = [c] := Chain.unique hrest hend
  cases q with
  | nil =>
    rw [List.nil_append] at heq
    rw [heq]
  | cons x q =>
    -- the next cluster of the old chain would be free
    obtain rfl : x = c := (List.cons.inj heq).1
    exact absurd hfree (h.fat_ne_zero x (by simp))

/-! ## The paths of a call -/

section

variable {g : Geometry} {v vm v' : Volume} {D : Nat → Prop} {own own' : Owner → List Nat}
  {oldPath newPath path : CStr} {cs cs' q a : List CStr} {r r' r₁ : Option DirectoryEntry}
  {name name' parentPath' : CStr} {it it' : Item}

theorem Renamed.resolve_eq (h : Renamed (Tidy SlotTidy) g v vm v' D own own' oldPath newPath cs cs'
    r r' name name' parentPath' it it') : resolve g v' a = resolve g vm a := by
  have hparent := h.parent
  split at hparent
  · exact hparent.resolve_eq h.moved.sound
  · rw [hparent]

theorem Renamed.listing_eq (h : Renamed (Tidy SlotTidy) g v vm v' D own own' oldPath newPath cs cs'
    r r' name name' parentPath' it it') : listing g v' path = listing g vm path := by
  have hparent := h.parent
  split at hparent
  · exact hparent.listing_eq h.moved.sound
  · rw [hparent]

theorem Renamed.contents_eq (hs : Sound (Tidy SlotTidy) g v D own)
    (h : Renamed (Tidy SlotTidy) g v vm v' D own own' oldPath newPath cs cs' r r' name name'
      parentPath' it it') : contents g v' path = contents g vm path := by
  obtain ⟨parentDir, parentPath, hp⟩ := h.old
  have hparent := h.parent
  split at hparent
  · next hdir =>
      have hm := hs.subdir (hs.dir_of_resolve hp.resolved hp.dir) h.moved.mem hdir
      exact hparent.contents_eq hm h.moved.sound
  · rw [hparent]

theorem Renamed.fat_eq (h : Renamed (Tidy SlotTidy) g v vm v' D own own' oldPath newPath cs cs' r r'
    name name' parentPath' it it') : v'.fat = vm.fat := by
  have hparent := h.parent
  split at hparent
  · exact hparent.fat
  · rw [hparent]

/-- Two different canonical paths, and what they lead to. -/
structure RenamedPaths (g : Geometry) (v vm v' : Volume) (D : Nat → Prop)
    (own own' : Owner → List Nat) (cs cs' : List CStr) (r r' : Option DirectoryEntry) (name name' : CStr) (it it' : Item) :
    Prop where
  sound : Sound (Tidy SlotTidy) g v D own
  old : ∀ c ∈ cs ++ [name], CanonicalComponent c
  new : ∀ c ∈ cs' ++ [name'], CanonicalComponent c
  resolved : resolve g v cs = .ok r
  resolved' : resolve g v cs' = .ok r'
  dir : isDir r = true
  dir' : isDir r' = true
  valid : validateLongName name = true
  valid' : validateLongName name' = true
  found : lookup (dirEntries g v (dirCluster g r)) name = some it
  absent : lookup (dirEntries g v (dirCluster g r')) name' = none
  outside : ¬ (cs ++ [name]) <+: cs'
  unique : UniqueNames (dirEntries g v (dirCluster g r))
  moved : Moved (Tidy SlotTidy) g v vm D own own' (dirCluster g r) (dirCluster g r') it it' name'

namespace RenamedPaths

variable (h : RenamedPaths g v vm v' D own own' cs cs' r r' name name' it it')

include h

theorem named : nameEqualsIgnoreCase it.name name = true := (lookup_mem h.found).2

theorem self : resolve g v (cs ++ [name]) = .ok (some it.entry) := by
  simp only [resolve_snoc, h.resolved, h.dir, h.valid, h.found]
  rfl

theorem frame : Frame g v vm D
    (fun x n => x = dirCluster g r ∧ n = name ∨ x = dirCluster g r' ∧ n = name')
    (fun c => c ∈ clusterChain g v.fat (dirCluster g r) ∨
      c ∈ clusterChain g v.fat (dirCluster g r')) :=
  h.moved.frame h.named (h.old name (by simp)).upper (h.new name' (by simp)).upper

theorem upper : ∀ c ∈ cs, c.map kToupper = c := fun c hc => (h.old c (by simp [hc])).upper

theorem upper' : ∀ c ∈ cs', c.map kToupper = c := fun c hc => (h.new c (by simp [hc])).upper

/-- A path that leads neither through the old name nor through the new one. -/
theorem avoids (ha : ∀ c ∈ a, c.map kToupper = c) (hold : ¬ (cs ++ [name]) <+: a)
    (hnew : ¬ (cs' ++ [name']) <+: a) : Avoids g v
      (fun x n => x = dirCluster g r ∧ n = name ∨ x = dirCluster g r' ∧ n = name') a := by
  intro b n rest r₂ hsplit hr₂ hd₂ hchanged
  rcases hchanged with hc | hc
  · exact h.sound.not_through h.resolved h.dir h.upper ha hold hsplit hr₂ hd₂ hc
  · exact h.sound.not_through h.resolved' h.dir' h.upper' ha hnew hsplit hr₂ hd₂ hc

/-- The new path does not lead through itself to one of the parents: it did not exist. -/
theorem not_new_prefix (hr : resolve g v a = .ok r₁) (hne : a ≠ cs' ++ [name']) :
    ¬ (cs' ++ [name']) <+: a := by
  intro hpre
  obtain ⟨c, rest, rfl⟩ := exists_below hpre hne
  have hnone : resolve g v (cs' ++ [name']) = .error .notFound := by
    simp only [resolve_snoc, h.resolved', h.dir', h.valid', h.absent]
    rfl
  rw [resolve_below_error hnone] at hr
  cases hr

theorem parent_resolved : resolve g vm cs = .ok r := by
  rw [h.frame.resolve_eq h.sound h.upper (h.avoids h.upper
    (fun hpre => by simpa using hpre.length_le) ?_), h.resolved]
  refine h.not_new_prefix h.resolved fun heq => ?_
  have hself := h.resolved
  rw [heq, resolve_snoc, h.resolved'] at hself
  simp [h.dir', h.valid', h.absent] at hself

theorem parent_resolved' : resolve g vm cs' = .ok r' := by
  rw [h.frame.resolve_eq h.sound h.upper' (h.avoids h.upper' h.outside
    (fun hpre => by simpa using hpre.length_le)), h.resolved']

/-- The old path leads nowhere. -/
theorem gone : resolve g vm (cs ++ [name]) = .error .notFound := by
  simp only [resolve_snoc, h.parent_resolved, h.dir, h.valid,
    h.moved.lookup_old h.unique h.absent h.named]
  rfl

/-- The new path leads to the entry. -/
theorem self' : resolve g vm (cs' ++ [name']) = .ok (some it'.entry) := by
  simp only [resolve_snoc, h.parent_resolved', h.dir', h.valid', h.moved.lookup_new h.absent]
  rfl

/-- What lies below the old path is in neither of the parents. -/
theorem apart (hq : ∀ c ∈ q, CanonicalComponent c)
    (hr : resolve g v (cs ++ [name] ++ q) = .ok r₁) (hd : isDir r₁ = true) :
    dirCluster g r₁ ≠ dirCluster g r ∧ dirCluster g r₁ ≠ dirCluster g r' := by
  have hup : ∀ c ∈ cs ++ [name] ++ q, c.map kToupper = c := by
    intro c hc
    rcases List.mem_append.mp hc with hc | hc
    · exact (h.old c hc).upper
    · exact (hq c hc).upper
  constructor
  · intro heq
    have hpath := h.sound.resolve_unique hup h.upper hr h.resolved hd h.dir heq
    have hlen := congrArg List.length hpath
    simp only [List.length_append, List.length_singleton] at hlen
    omega
  · intro heq
    have hpath := h.sound.resolve_unique hup h.upper' hr h.resolved' hd h.dir' heq
    exact h.outside ⟨q, hpath⟩

/-- Below the new path is what was below the old one. -/
theorem below (hq : ∀ c ∈ q, CanonicalComponent c) :
    (∃ code, resolve g v (cs ++ [name] ++ q) = .error code ∧
      resolve g vm (cs' ++ [name'] ++ q) = .error code) ∨
    ∃ r₁ r₂, resolve g v (cs ++ [name] ++ q) = .ok r₁ ∧
      resolve g vm (cs' ++ [name'] ++ q) = .ok r₂ ∧ isDir r₂ = isDir r₁ ∧
      dirCluster g r₂ = dirCluster g r₁ ∧ (q ≠ [] → r₂ = r₁) := by
  induction q using List.reverseRecOn with
  | nil =>
    right
    refine ⟨some it.entry, some it'.entry, ?_, ?_, h.moved.fields.isDirectory,
      h.moved.fields.first, fun hne => absurd rfl hne⟩
    · rw [List.append_nil, h.self]
    · rw [List.append_nil, h.self']
  | append_singleton q n ih =>
    have hq' : ∀ c ∈ q, CanonicalComponent c := fun c hc => hq c (by simp [hc])
    have hn : n.map kToupper = n := (hq n (by simp)).upper
    rw [← List.append_assoc, ← List.append_assoc, resolve_snoc, resolve_snoc]
    rcases ih hq' with ⟨code, hr, hr'⟩ | ⟨r₁, r₂, hr, hr', hdir, hcluster, -⟩
    · left
      exact ⟨code, by rw [hr], by rw [hr']⟩
    · rw [hr, hr']
      simp only [hdir, hcluster]
      by_cases hd : isDir r₁ = true
      · -- the name is looked up in a directory whose names are the same
        obtain ⟨hne, hne'⟩ := h.apart hq' hr hd
        have hx := h.sound.dir_of_resolve hr hd
        have hlook : lookup (dirEntries g vm (dirCluster g r₁)) n
            = lookup (dirEntries g v (dirCluster g r₁)) n :=
          h.moved.lookup_other hx (fun heq => absurd heq hne) (fun heq => absurd heq hne')
        rw [hlook]
        simp only [hd, Bool.true_eq_false, if_false]
        by_cases hvalid : validateLongName n = true
        · simp only [hvalid, Bool.true_eq_false, if_false]
          rcases lookup (dirEntries g v (dirCluster g r₁)) n with _ | it₁
          · exact .inl ⟨.notFound, rfl, rfl⟩
          · exact .inr ⟨_, _, rfl, rfl, rfl, rfl, fun _ => rfl⟩
        · simp only [hvalid]
          exact .inl ⟨.invalidName, rfl, rfl⟩
      · simp only [hd]
        exact .inl ⟨.notADirectory, rfl, rfl⟩

theorem listing_below (hq : ∀ c ∈ q, CanonicalComponent c) :
    listing g vm (joinPath (cs' ++ [name'] ++ q)) = listing g v (joinPath (cs ++ [name] ++ q)) := by
  have hold : ∀ c ∈ cs ++ [name] ++ q, CanonicalComponent c := fun c hc =>
    (List.mem_append.mp hc).elim (h.old c) (hq c)
  have hnew : ∀ c ∈ cs' ++ [name'] ++ q, CanonicalComponent c := fun c hc =>
    (List.mem_append.mp hc).elim (h.new c) (hq c)
  rw [listing, listing, joinPath_components hold, joinPath_components hnew]
  rcases h.below hq with ⟨code, hr, hr'⟩ | ⟨r₁, r₂, hr, hr', hdir, hcluster, -⟩
  · rw [hr, hr']
  · rw [hr, hr']
    simp only [hdir, hcluster]
    by_cases hd : isDir r₁ = true
    · obtain ⟨hne, hne'⟩ := h.apart hq hr hd
      simp only [hd, if_true]
      rw [(h.moved.others _ ⟨h.sound.dir_of_resolve hr hd, hne, hne'⟩).2]
    · simp only [hd]
      rfl

/-- Files keep their content. -/
theorem fileContent_eq {x : Nat} {it₁ : Item} {e : DirectoryEntry} (hx : D x)
    (hit : it₁ ∈ itemsOf (dirEntries g v x)) (hfile : it₁.entry.isDirectory = false)
    (hfirst : e.entryFirstCluster = it₁.entry.entryFirstCluster)
    (hsize : e.size = it₁.entry.size) : fileContent g vm e = fileContent g v it₁.entry := by
  have hd := h.sound.dir_of_resolve h.resolved h.dir
  have hd' := h.sound.dir_of_resolve h.resolved' h.dir'
  rw [← h.moved.preserved.fileContent (h.sound.entryOk hx hit).chain, fileContent, fileContent,
    hfirst, hsize]
  intro c hc hX
  rcases hX with hX | hX
  · exact h.sound.file_apart hx hit hfile hd hc hX
  · exact h.sound.file_apart hx hit hfile hd' hc hX

theorem contents_below (hq : ∀ c ∈ q, CanonicalComponent c) :
    contents g vm (joinPath (cs' ++ [name'] ++ q))
      = contents g v (joinPath (cs ++ [name] ++ q)) := by
  have hold : ∀ c ∈ cs ++ [name] ++ q, CanonicalComponent c := fun c hc =>
    (List.mem_append.mp hc).elim (h.old c) (hq c)
  have hnew : ∀ c ∈ cs' ++ [name'] ++ q, CanonicalComponent c := fun c hc =>
    (List.mem_append.mp hc).elim (h.new c) (hq c)
  rw [contents, contents, joinPath_components hold, joinPath_components hnew]
  rcases h.below hq with ⟨code, hr, hr'⟩ | ⟨r₁, r₂, hr, hr', hdir, -, hsame⟩
  · rw [hr, hr']
  · rw [hr, hr']
    rcases List.eq_nil_or_concat q with rfl | ⟨q, n, rfl⟩
    · rw [List.append_nil] at hr hr'
      rw [h.self] at hr
      rw [h.self'] at hr'
      cases hr
      cases hr'
      simp only [h.moved.fields.isDirectory]
      by_cases hd : it.entry.isDirectory = true
      · simp only [hd, if_true]
      · simp only [hd]
        exact h.fileContent_eq (h.sound.dir_of_resolve h.resolved h.dir) h.moved.mem
          (Bool.eq_false_iff.mpr hd) h.moved.fields.first h.moved.fields.size
    · rw [hsame (by simp)]
      rcases r₁ with _ | e
      · rfl
      · by_cases hd : e.isDirectory = true
        · simp only [hd, if_true]
        · simp only [hd]
          obtain ⟨x, it₁, hx, hit, rfl⟩ := h.sound.entry_of_resolve hr
          exact h.fileContent_eq hx hit (Bool.eq_false_iff.mpr hd) rfl rfl

theorem statAt_below (hq : ∀ c ∈ q, CanonicalComponent c) (hne : q ≠ []) :
    statAt g vm (joinPath (cs' ++ [name'] ++ q)) = statAt g v (joinPath (cs ++ [name] ++ q)) := by
  have hold : ∀ c ∈ cs ++ [name] ++ q, CanonicalComponent c := fun c hc =>
    (List.mem_append.mp hc).elim (h.old c) (hq c)
  have hnew : ∀ c ∈ cs' ++ [name'] ++ q, CanonicalComponent c := fun c hc =>
    (List.mem_append.mp hc).elim (h.new c) (hq c)
  rw [statAt, statAt, joinPath_components hold, joinPath_components hnew]
  obtain ⟨q, n, rfl⟩ := (List.eq_nil_or_concat q).resolve_left hne
  rw [List.concat_eq_append] at *
  have hlast : lastComponentText (joinPath (cs' ++ [name'] ++ (q ++ [n])))
        (joinPath (cs' ++ [name'] ++ (q ++ [n])))
      = lastComponentText (joinPath (cs ++ [name] ++ (q ++ [n])))
        (joinPath (cs ++ [name] ++ (q ++ [n]))) := by
    rw [← List.append_assoc, ← List.append_assoc] at *
    rw [Canonical.lastComponentText_eq ⟨rfl, hnew⟩, Canonical.lastComponentText_eq ⟨rfl, hold⟩]
  rcases h.below hq with ⟨code, hr, hr'⟩ | ⟨r₁, r₂, hr, hr', -, -, hsame⟩
  · rw [hr, hr']
  · rw [hr, hr', hsame (by simp), hlast]

/-- One entry has left the listing of its directory, and one has entered another listing or the
same one. -/
theorem listings :
    (cs = cs' → ∃ l mid l', listing g v (joinPath cs) = .ok l ∧ listing g vm (joinPath cs) = .ok l' ∧
      OneMore l mid it'.info ∧ OneMore l' mid it.info) ∧
    (cs ≠ cs' → ∃ l l' m m', listing g v (joinPath cs) = .ok l ∧
      listing g vm (joinPath cs) = .ok l' ∧ OneMore l' l it.info ∧
      listing g v (joinPath cs') = .ok m ∧ listing g vm (joinPath cs') = .ok m' ∧
      OneMore m m' it'.info) := by
  have hold : ∀ c ∈ cs, CanonicalComponent c := fun c hc => h.old c (by simp [hc])
  have hnew : ∀ c ∈ cs', CanonicalComponent c := fun c hc => h.new c (by simp [hc])
  have hlist : listing g v (joinPath cs)
      = .ok ((itemsOf (dirEntries g v (dirCluster g r))).map Item.info) := by
    simp only [listing, joinPath_components hold, h.resolved, h.dir, if_true]
  have hlist₁ : listing g vm (joinPath cs)
      = .ok ((itemsOf (dirEntries g vm (dirCluster g r))).map Item.info) := by
    simp only [listing, joinPath_components hold, h.parent_resolved, h.dir, if_true]
  have hlists := h.moved.lists
  unfold ListsMoved at hlists
  constructor
  · rintro rfl
    obtain rfl : r = r' := Except.ok.inj (h.resolved.symm.trans h.resolved')
    rw [if_pos rfl] at hlists
    obtain ⟨mid, hin, hout⟩ := hlists
    exact ⟨_, mid.map Item.info, _, hlist, hlist₁, hin.infos, hout.infos⟩
  · intro hne
    have hdd : dirCluster g r ≠ dirCluster g r' := fun heq =>
      hne (h.sound.resolve_unique h.upper h.upper' h.resolved h.resolved' h.dir h.dir' heq)
    rw [if_neg hdd] at hlists
    refine ⟨_, _, _, _, hlist, hlist₁, hlists.1.infos, ?_, ?_, hlists.2.infos⟩
    · simp only [listing, joinPath_components hnew, h.resolved', h.dir', if_true]
    · simp only [listing, joinPath_components hnew, h.parent_resolved', h.dir', if_true]

/-- Paths that lead neither through the old name nor through the new one answer as before. -/
theorem others (hp : Canonical path a) (hold : ¬ (cs ++ [name]) <+: a)
    (hnew : ¬ (cs' ++ [name']) <+: a) : statAt g vm path = statAt g v path ∧
      contents g vm path = contents g v path ∧
      (a ≠ cs → a ≠ cs' → listing g vm path = listing g v path) := by
  have hup : ∀ c ∈ a, c.map kToupper = c := fun c hc => (hp.components c hc).upper
  have havoids := h.avoids hup hold hnew
  have hd := h.sound.dir_of_resolve h.resolved h.dir
  have hd' := h.sound.dir_of_resolve h.resolved' h.dir'
  refine ⟨h.frame.statAt_eq h.sound hp havoids, ?_, ?_⟩
  · refine h.frame.contents_eq h.sound hp havoids ?_
    intro a' n r₂ it₂ _ hr₂ hd₂ hfound hfile c hc hX
    have hx := h.sound.dir_of_resolve hr₂ hd₂
    have hit := (lookup_mem hfound).1
    rcases hX with hX | hX
    · exact h.sound.file_apart hx hit hfile hd hc hX
    · exact h.sound.file_apart hx hit hfile hd' hc hX
  · intro hne hne'
    refine h.frame.listing_eq h.sound hp havoids ?_
    rintro r₂ hr₂ hd₂ n (⟨heq, -⟩ | ⟨heq, -⟩)
    · exact hne (h.sound.resolve_unique hup h.upper hr₂ h.resolved hd₂ h.dir heq)
    · exact hne' (h.sound.resolve_unique hup h.upper' hr₂ h.resolved' hd₂ h.dir' heq)

/-- The links change by at most one cluster behind the chain of the new parent. -/
theorem links : vm.fat = v.fat ∨ ∃ c ∈ freeClusters g v.fat, ∃ last ∈ clusterChain g v.fat
    (dirCluster g r'), vm.fat = (fun x => if x = last then c else if x = c then endOfChain
      else v.fat x) ∧
    clusterChain g vm.fat (dirCluster g r') = clusterChain g v.fat (dirCluster g r') ++ [c] := by
  have hd' := h.sound.dir_of_resolve h.resolved' h.dir'
  refine h.moved.fat.imp id ?_
  rintro ⟨c, hc, last, hlast, hfat⟩
  exact ⟨c, hc, last, hlast, hfat, clusterChain_appended (h.sound.cert.dir_chain hd').1
    (h.moved.sound.cert.dir_chain hd').1 (h.moved.chains _ hd') hc hlast hfat⟩

end RenamedPaths

/-- The path of the new parent does not lead through the old path. -/
theorem RenamePaths.outside
    (h : RenamePaths g v oldPath newPath cs cs' r r' name name' parentPath' it)
    (hold : Canonical oldPath (cs ++ [name])) (hnew : Canonical newPath (cs' ++ [name'])) :
    ¬ (cs ++ [name]) <+: cs' := by
  obtain ⟨_, _, hp⟩ := h.old
  obtain ⟨_, hp'⟩ := h.new
  by_cases hdir : it.entry.isDirectory = true
  · exact not_prefix_of_guard hold (by simp) hnew hp'.text (h.guarded hdir)
  · -- nothing lies below a file
    have hself : resolve g v (cs ++ [name]) = .ok (some it.entry) := hp.split ▸ h.resolve_old
    intro hpre
    have hr' := hp'.resolved
    by_cases hne : cs' = cs ++ [name]
    · rw [hne, hself] at hr'
      cases hr'
      exact hdir hp'.dir
    · obtain ⟨c, rest, rfl⟩ := exists_below hpre hne
      rw [resolve_below_file hself (Bool.eq_false_iff.mpr hdir)] at hr'
      cases hr'

/-- With canonical paths it does not pass through the directory that moves. -/
theorem RenamePaths.not_passes {ok : List DirectoryEntry → Prop} (hs : Sound ok g v D own)
    (h : RenamePaths g v oldPath newPath cs cs' r r' name name' parentPath' it)
    (hold : Canonical oldPath (cs ++ [name])) (hnew : Canonical newPath (cs' ++ [name']))
    (hdir : it.entry.isDirectory = true) : ¬ Passes g v cs' it.entry.entryFirstCluster := by
  rintro ⟨a, b, r₁, rfl, hr₁, hd₁, heq⟩
  obtain ⟨_, _, hp⟩ := h.old
  have hself : resolve g v (cs ++ [name]) = .ok (some it.entry) := hp.split ▸ h.resolve_old
  have hpath := hs.resolve_unique (fun c hc => (hnew.components c (by simp [hc])).upper)
    (fun c hc => (hold.components c hc).upper) hr₁ hself hd₁ hdir heq
  refine h.outside hold hnew ?_
  rw [hpath]
  exact List.prefix_append _ _

/-- The paths of a call that has renamed an entry. -/
theorem Renamed.paths (hs : Sound (Tidy SlotTidy) g v D own)
    (h : Renamed (Tidy SlotTidy) g v vm v' D own own' oldPath newPath cs cs' r r' name name'
      parentPath' it it') (hold : Canonical oldPath (cs ++ [name]))
    (hnew : Canonical newPath (cs' ++ [name']))
    (huniq : UniqueNames (dirEntries g v (dirCluster g r))) :
    RenamedPaths g v vm v' D own own' cs cs' r r' name name' it it' := by
  obtain ⟨parentDir, parentPath, hp⟩ := h.old
  obtain ⟨parentDir', hp'⟩ := h.new
  exact ⟨hs, hold.components, hnew.components, hp.resolved, hp'.resolved, hp.dir, hp'.dir,
    hp.valid, hp'.valid, h.found, h.absent, h.toRenamePaths.outside hold hnew, huniq, h.moved⟩

/-! ## What a rename must not do -/

/-- A directory that moves has the same entries when its slot 1 has been given the cluster of the
new parent. -/
def SparesEntries (g : Geometry) (v : Volume) (oldPath newPath : CStr) : Prop :=
  ∀ cs cs' r r' name name' parentPath' it,
    RenamePaths g v oldPath newPath cs cs' r r' name name' parentPath' it →
    it.entry.isDirectory = true →
    itemsOf (withParent (dirEntries g v it.entry.entryFirstCluster) (parentCluster g r'))
      = itemsOf (dirEntries g v it.entry.entryFirstCluster)

/-- Where the directories are in shape, slot 1 is no entry, and no slot is counted too many. -/
theorem RenameSafe.spares (hs : Sound (Tidy SlotTidy) g v D own) (h : RenameSafe g v oldPath) :
    SparesEntries g v oldPath newPath ∧ ¬ LosesEntry g v oldPath newPath := by
  constructor
  · intro cs cs' r r' name name' parentPath' it hpaths hdir
    obtain ⟨_, _, hp⟩ := hpaths.old
    obtain ⟨hd, -, hit⟩ := hpaths.mem hs
    obtain ⟨e, he, hk⟩ := (h _ _ _ _ _ _ hp hpaths.found).2 hdir
    exact (withParent_special (hs.tidy (hs.subdir hd hit hdir)) he hk).2
  · rintro ⟨cs, cs', r, r', name, name', parentPath', it, hpaths, -, hover⟩
    obtain ⟨_, _, hp⟩ := hpaths.old
    obtain ⟨hd, -, hit⟩ := hpaths.mem hs
    exact (h _ _ _ _ _ _ hp hpaths.found).1.not_overlaps (hs.tidy hd) hit hover

/-- The entry is in place, and no other entry is another one. -/
theorem RenameDone.renamed_of_spared (hwf : WellFormed g v)
    (h : RenameDone (Tidy SlotTidy) g v vm v' (Reachable g v) (owners g v) oldPath newPath cs cs' r
      r' name name' parentPath' it)
    (hold : Canonical oldPath (cs ++ [name])) (hnew : Canonical newPath (cs' ++ [name']))
    (hspares : SparesEntries g v oldPath newPath) (hlost : ¬ LosesEntry g v oldPath newPath) :
    ∃ own' it', Renamed (Tidy SlotTidy) g v vm v' (Reachable g v) (owners g v) own' oldPath newPath
      cs cs' r r' name name' parentPath' it it' := by
  have hs := hwf.sound
  obtain ⟨hd, -, hit⟩ := h.mem hs
  refine h.renamed hs (fun hover => hlost (h.losesEntry_iff.mpr hover)) fun own' it' hm hdir => ?_
  have hsub := hs.subdir hd hit hdir
  obtain ⟨hne, hne'⟩ := h.apart hs hdir (h.not_passes hs hold hnew hdir)
  rw [(hm.others _ ⟨hsub, hne, hne'⟩).2]
  exact ⟨(hwf.slots hsub).withParent.tidy, hspares _ _ _ _ _ _ _ _ h.toRenamePaths hdir⟩

end

/-! ## The operation -/

/-- The entry `e` with the path `cs ++ [name]` has become the entry `e'` with the path
`cs' ++ [name']`. -/
structure PathRenamed (env : Env) (s s' : State) (cs : List CStr) (name : CStr) (cs' : List CStr)
    (name' : CStr) (e e' : DirectoryEntry) : Prop where
  found : resolve env.geometry (s.volume env.geometry) (cs ++ [name]) = .ok (some e)
  gone : (fat32Stat env (joinPath (cs ++ [name])) s').result = some (.error .notFound)
  entry : resolve env.geometry (s'.volume env.geometry) (cs' ++ [name']) = .ok (some e')
  fields : SameFields e e'
  stat : (fat32Stat env (joinPath (cs' ++ [name'])) s').result
    = some (.ok (decodeNodeInfo e' name'))
  listed : ∃ info info', nameEqualsIgnoreCase info.name name = true ∧
    info.isDir = e.isDirectory ∧ info.size = e.size ∧
    nameEqualsIgnoreCase info'.name name' = true ∧ info'.isDir = e.isDirectory ∧
    info'.size = e.size ∧
    (cs = cs' → ∃ l mid l',
      (fat32ListDir env (joinPath cs) collect [] s).result = some (.ok l) ∧
      (fat32ListDir env (joinPath cs) collect [] s').result = some (.ok l') ∧
      OneMore l mid info' ∧ OneMore l' mid info) ∧
    (cs ≠ cs' → ∃ l l' m m',
      (fat32ListDir env (joinPath cs) collect [] s).result = some (.ok l) ∧
      (fat32ListDir env (joinPath cs) collect [] s').result = some (.ok l') ∧
      OneMore l' l info ∧
      (fat32ListDir env (joinPath cs') collect [] s).result = some (.ok m) ∧
      (fat32ListDir env (joinPath cs') collect [] s').result = some (.ok m') ∧
      OneMore m m' info')
  below : ∀ q : List CStr, (∀ c ∈ q, CanonicalComponent c) →
    (q ≠ [] → (fat32Stat env (joinPath (cs' ++ [name'] ++ q)) s').result
      = (fat32Stat env (joinPath (cs ++ [name] ++ q)) s).result) ∧
    (∀ {κ : Type} (callback : κ → List UInt8 → κ × Bool) (context : κ),
      (fat32ReadFile env (joinPath (cs' ++ [name'] ++ q)) callback context s').result
        = (fat32ReadFile env (joinPath (cs ++ [name] ++ q)) callback context s).result) ∧
    (∀ {κ : Type} (callback : κ → Fat32NodeInfo → κ × Bool) (context : κ),
      (fat32ListDir env (joinPath (cs' ++ [name'] ++ q)) callback context s').result
        = (fat32ListDir env (joinPath (cs ++ [name] ++ q)) callback context s).result)
  others : ∀ other a, Canonical other a → ¬ (cs ++ [name]) <+: a → ¬ (cs' ++ [name']) <+: a →
    (fat32Stat env other s').result = (fat32Stat env other s).result ∧
    (∀ {κ : Type} (callback : κ → List UInt8 → κ × Bool) (context : κ),
      (fat32ReadFile env other callback context s').result
        = (fat32ReadFile env other callback context s).result) ∧
    (a ≠ cs → a ≠ cs' → ∀ {κ : Type} (callback : κ → Fat32NodeInfo → κ × Bool) (context : κ),
      (fat32ListDir env other callback context s').result
        = (fat32ListDir env other callback context s).result)
  links : s'.fat = s.fat ∨ ∃ parent', resolve env.geometry (s.volume env.geometry) cs' = .ok parent' ∧
    ∃ c ∈ freeClusters env.geometry s.fat,
      ∃ last ∈ clusterChain env.geometry s.fat (dirCluster env.geometry parent'),
        s'.fat = (fun x => if x = last then c else if x = c then endOfChain else s.fat x) ∧
        clusterChain env.geometry s'.fat (dirCluster env.geometry parent')
          = clusterChain env.geometry s.fat (dirCluster env.geometry parent') ++ [c]

/-- A successful call of `fat32_rename` on two different canonical paths moves what the old path
led to, and nothing else, where it neither overwrites an entry nor deletes the new one. -/
theorem pathRenamed_of_rename {env : Env} {s s' : State} {oldPath newPath : CStr}
    {old new : List CStr} (hfuel : env.geometry.totalClusters < env.fuel)
    (hrel : ¬ env.Faulty) (hwf : WellFormed env.geometry (s.volume env.geometry))
    (hnames : ∀ d, Reachable env.geometry (s.volume env.geometry) d →
      UniqueNames (dirEntries env.geometry (s.volume env.geometry) d))
    (hspares : SparesEntries env.geometry (s.volume env.geometry) oldPath newPath)
    (hlost : ¬ LosesEntry env.geometry (s.volume env.geometry) oldPath newPath)
    (hold : Canonical oldPath old) (hnew : Canonical newPath new) (hne : oldPath ≠ newPath)
    (hcall : fat32Rename env oldPath newPath s = .ok () s') :
    ∃ cs name cs' name' e e', old = cs ++ [name] ∧ new = cs' ++ [name'] ∧
      PathRenamed env s s' cs name cs' name' e e' := by
  have hs := hwf.sound
  rcases (fat32Rename_sat hfuel hrel rfl hs).of_ok hcall with
    ⟨heq, -⟩ | ⟨vm, cs, cs', r, r', name, name', parentPath', it, hdone⟩
  · exact absurd heq hne
  obtain ⟨parentDir, parentPath, hp⟩ := hdone.old
  obtain ⟨parentDir', hp'⟩ := hdone.new
  obtain rfl : old = cs ++ [name] := hold.splitComponents_eq.symm.trans hp.split
  obtain rfl : new = cs' ++ [name'] := hnew.splitComponents_eq.symm.trans hp'.split
  obtain ⟨own', it', hr⟩ := hdone.renamed_of_spared hwf hold hnew hspares hlost
  have hpaths := hr.paths hs hold hnew
    (hnames _ (hs.reachable_of_resolve hp.resolved hp.dir))
  have hs' := hr.sound
  have hstat : ∀ path, (fat32Stat env path s').result = statAt env.geometry vm path := by
    intro path
    rw [fat32Stat_result hfuel hrel hs', statAt, statAt, hr.resolve_eq]
  have hread : ∀ {κ : Type} (callback : κ → List UInt8 → κ × Bool) (context : κ) path,
      (fat32ReadFile env path callback context s').result
        = some (readAnswer env.geometry callback context (contents env.geometry vm path)) := by
    intro κ callback context path
    rw [fat32ReadFile_result hfuel hrel hs', hr.contents_eq hs]
  have hlist : ∀ {κ : Type} (callback : κ → Fat32NodeInfo → κ × Bool) (context : κ) path,
      (fat32ListDir env path callback context s').result
        = some (listAnswer callback context (listing env.geometry vm path)) := by
    intro κ callback context path
    rw [fat32ListDir_result hfuel hrel hs', hr.listing_eq]
  refine ⟨cs, name, cs', name', it.entry, it'.entry, rfl, rfl, hpaths.self, ?_, ?_,
    hr.moved.fields, ?_, ?_, ?_, ?_, ?_⟩
  · rw [hstat, statAt, joinPath_components hold.components, hpaths.gone]
  · rw [hr.resolve_eq, hpaths.self']
  · have hlast : lastComponentText (joinPath (cs' ++ [name'])) (joinPath (cs' ++ [name'])) = name' :=
      Canonical.lastComponentText_eq ⟨rfl, hnew.components⟩
    rw [hstat, statAt, joinPath_components hnew.components, hpaths.self']
    simp only [hlast]
    rw [if_neg (not_le.2 (validateLongName_length hp'.valid).2)]
  · obtain ⟨hsame, hother⟩ := hpaths.listings
    refine ⟨it.info, it'.info, hpaths.named, rfl, rfl, hr.moved.named, hr.moved.fields.isDirectory,
      hr.moved.fields.size, ?_, ?_⟩
    · intro heq
      obtain ⟨l, mid, l', hl, hl', hin, hout⟩ := hsame heq
      refine ⟨l, mid, l', ?_, ?_, hin, hout⟩
      · rw [fat32ListDir_result hfuel hrel hs, hl, listAnswer, report_collect, List.nil_append]
      · rw [hlist, hl', listAnswer, report_collect, List.nil_append]
    · intro heq
      obtain ⟨l, l', m, m', hl, hl', hout, hm, hm', hin⟩ := hother heq
      refine ⟨l, l', m, m', ?_, ?_, hout, ?_, ?_, hin⟩
      · rw [fat32ListDir_result hfuel hrel hs, hl, listAnswer, report_collect, List.nil_append]
      · rw [hlist, hl', listAnswer, report_collect, List.nil_append]
      · rw [fat32ListDir_result hfuel hrel hs, hm, listAnswer, report_collect, List.nil_append]
      · rw [hlist, hm', listAnswer, report_collect, List.nil_append]
  · intro q hq
    refine ⟨fun hq' => ?_, fun callback context => ?_, fun callback context => ?_⟩
    · rw [hstat, fat32Stat_result hfuel hrel hs, hpaths.statAt_below hq hq']
    · rw [hread, fat32ReadFile_result hfuel hrel hs, hpaths.contents_below hq]
    · rw [hlist, fat32ListDir_result hfuel hrel hs, hpaths.listing_below hq]
  · intro other a hother hold' hnew'
    obtain ⟨hst, hco, hli⟩ := hpaths.others hother hold' hnew'
    refine ⟨?_, fun callback context => ?_, fun hcs hcs' κ callback context => ?_⟩
    · rw [hstat, fat32Stat_result hfuel hrel hs, hst]
    · rw [hread, fat32ReadFile_result hfuel hrel hs, hco]
    · rw [hlist, fat32ListDir_result hfuel hrel hs, hli hcs hcs']
  · have hfat : s'.fat = vm.fat := hr.fat_eq
    rw [hfat]
    exact hpaths.links.imp id fun h => ⟨r', hp'.resolved, h⟩

/-- A directory that is renamed in place. -/
theorem pathRenamed_of_rename_dir :
    ∃ cs name cs' name' e e', [[0x41]] = cs ++ [name] ∧ [[0x42]] = cs' ++ [name'] ∧
      PathRenamed smallEnv dirState (afterCall (.rename [slash, 0x41] [slash, 0x42]) dirState)
        cs name cs' name' e e' := by
  have hs := (sound_of_check dirState_check.1).2.sound
  have hsafe := (Kept.mk hs (regular_of_check dirState_check.1 dirState_check.2).shaped).renameSafe
    [slash, 0x41]
  exact pathRenamed_of_rename (by decide) smallEnv_reliable (sound_of_check dirState_check.1).2
    (namesOk_of_check dirState_check.1 (by decide +kernel)).unique (hsafe.spares hs).1
    (hsafe.spares hs).2 (canonical_letter (by decide) (by decide) (by decide))
    (canonical_letter (by decide) (by decide) (by decide)) (by decide)
    (Prog.eq_ok_of_isOk (o := (Operation.rename [slash, 0x41] [slash, 0x42]).call smallEnv dirState)
      (by decide +kernel))

/-- A file in slot 1 of a directory that is moved gets the first cluster of the new parent, and
reads as that directory's slots. And where a deleted long-name slot in front of an entry is counted
as one of its own, the new name is deleted together with the old one. -/
theorem rename_not_renamed :
    (WellFormed smallGeometry (dotlessState.volume smallGeometry) ∧
      (∀ d, Reachable smallGeometry (dotlessState.volume smallGeometry) d →
        UniqueNames (dirEntries smallGeometry (dotlessState.volume smallGeometry) d)) ∧
      Canonical (joinPath [[0x44]]) [[0x44]] ∧
      Canonical (joinPath [[0x50], [0x44]]) [[0x50], [0x44]] ∧
      moveDotless.call smallEnv dotlessState = .ok () (afterCall moveDotless dotlessState) ∧
      (fat32ReadFile smallEnv (joinPath [[0x50], [0x44], [0x42]]) gather []
          (afterCall moveDotless dotlessState)).result
        ≠ (fat32ReadFile smallEnv (joinPath [[0x44], [0x42]]) gather [] dotlessState).result) ∧
    (WellFormed smallGeometry (looseState.volume smallGeometry) ∧
      (∀ d, Reachable smallGeometry (looseState.volume smallGeometry) d →
        UniqueNames (dirEntries smallGeometry (looseState.volume smallGeometry) d)) ∧
      Canonical (joinPath [[0x4F, 0x4F]]) [[0x4F, 0x4F]] ∧
      Canonical (joinPath [longName]) [longName] ∧
      renameLoose.call smallEnv looseState = .ok () (afterCall renameLoose looseState) ∧
      (fat32Stat smallEnv (joinPath [longName]) (afterCall renameLoose looseState)).result
        = some (.error .notFound)) := by
  have hdotless : checkVolume smallGeometry (dotlessState.volume smallGeometry) [2, 3, 4] = true := by
    decide +kernel
  have hloose : checkVolume smallGeometry (looseState.volume smallGeometry) [2] = true := by
    decide +kernel
  refine ⟨⟨(sound_of_check hdotless).2, (namesOk_of_check hdotless (by decide +kernel)).unique,
    ⟨rfl, by decide +kernel⟩, ⟨rfl, by decide +kernel⟩, Prog.eq_ok_of_isOk (by decide +kernel), ?_⟩,
    (sound_of_check hloose).2, (namesOk_of_check hloose (by decide +kernel)).unique,
    ⟨rfl, by decide +kernel⟩, ⟨rfl, by decide +kernel⟩, Prog.eq_ok_of_isOk (by decide +kernel), ?_⟩
  · decide +kernel
  · decide +kernel

end FunnyOS.Fat32
