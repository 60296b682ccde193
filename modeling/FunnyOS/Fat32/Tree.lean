import FunnyOS.Fat32.Operations

/-!
# What the operations do to the tree of directories

Each operation keeps every directory reachable, except a directory that is removed. For
`fat32_rename` this rests on the new parent being reachable without the entry that moves
(`Sound.reach_avoiding`), which for canonical paths is what the test on the path texts says
(`not_prefix_of_guard`).
-/

namespace FunnyOS.Fat32

/-! ## Paths -/

section

variable {ok : List DirectoryEntry → Prop} {g : Geometry} {v v' : Volume}
  {D : Nat → Prop} {own : Owner → List Nat} {r r' : Option DirectoryEntry} {a cs cs' : List CStr}
  {name : CStr} {it it' : Item} {d d' x : Nat}

/-- What resolves to a directory is reachable. -/
theorem Sound.reachable_of_resolve (h : Sound ok g v D own) (hr : resolve g v cs = .ok r)
    (hd : isDir r = true) : Reachable g v (dirCluster g r) := by
  induction cs using List.reverseRecOn generalizing r with
  | nil =>
    cases hr
    exact .root
  | append_singleton cs n ih =>
    obtain ⟨r₁, it, hr₁, hd₁, -, hl, rfl⟩ := resolve_snoc_ok hr
    have hD := h.dir_of_resolve hr₁ hd₁
    exact (ih hr₁ hd₁).step (liveEntries_item (lookup_mem hl).1) (by simpa [isDir] using hd)

/-- A directory whose path does not lead through an entry is reachable without it. -/
theorem Sound.reach_avoiding (h : Sound ok g v D own) (ha : ∀ c ∈ a, c.map kToupper = c)
    (hname : name.map kToupper = name) (hcs : ∀ c ∈ cs, c.map kToupper = c)
    (hra : resolve g v a = .ok r) (hda : isDir r = true)
    (hfound : lookup (dirEntries g v (dirCluster g r)) name = some it)
    (hnot : ¬ (a ++ [name]) <+: cs) (hr : resolve g v cs = .ok r') (hd : isDir r' = true) :
    Reach ((liveEntries g v).put (dirCluster g r) it.index none) g.rootCluster
      (dirCluster g r') := by
  induction cs using List.reverseRecOn generalizing r' with
  | nil =>
    cases hr
    exact .root
  | append_singleton cs n ih =>
    obtain ⟨r₁, it₁, hr₁, hd₁, -, hl, rfl⟩ := resolve_snoc_ok hr
    have hcs' : ∀ c ∈ cs, c.map kToupper = c := fun c hc => hcs c (by simp [hc])
    have hprev := ih hcs' (fun hp => hnot (hp.trans (List.prefix_append _ _))) hr₁ hd₁
    have hD := h.dir_of_resolve hr₁ hd₁
    have hlive := liveEntries_item (lookup_mem hl).1
    refine hprev.step (i := it₁.index) ?_ (by simpa [isDir] using hd)
    rw [Entries.put_other]
    · exact hlive
    · -- the entry that is avoided would have the same path
      rintro ⟨heq, hidx⟩
      have hpath := h.resolve_unique hcs' ha hr₁ hra hd₁ hda heq
      obtain ⟨hmem, hn⟩ := lookup_mem hfound
      obtain ⟨hmem₁, hn₁⟩ := lookup_mem hl
      rw [heq] at hmem₁
      obtain rfl := item_eq_of_index hmem₁ hmem hidx
      have := eq_of_nameEquals hn₁ hn (hcs n (by simp)) hname
      exact hnot (by rw [hpath, this])

end

/-- The test on the texts of canonical paths notices a path that leads through another. -/
theorem not_prefix_of_guard {oldPath newPath parentPath name' : CStr} {cs cs' : List CStr}
    (hold : Canonical oldPath cs) (hne : cs ≠ []) (hnew : Canonical newPath (cs' ++ [name']))
    (htext : newPath = parentPath ++ slash :: name' ∨
      parentPath = [slash] ∧ newPath = slash :: name')
    (hguard : pathIsDescendantOf parentPath oldPath = false) : ¬ cs <+: cs' := by
  rintro ⟨rest, rfl⟩
  have htail : newPath = (cs ++ rest).flatMap (slash :: ·) ++ slash :: name' := by
    rw [hnew.text, joinPath_snoc]
  obtain ⟨c, cs, rfl⟩ := List.exists_cons_of_ne_nil hne
  have hparent : parentPath = (c :: cs ++ rest).flatMap (slash :: ·) := by
    rcases htext with h | ⟨-, h⟩
    · exact List.append_cancel_right (h.symm.trans htail)
    · rw [h] at htail
      have hlen := congrArg List.length htail
      simp only [List.cons_append, List.flatMap_cons, List.length_cons, List.length_append] at hlen
      omega
  have hpath : oldPath = (c :: cs).flatMap (slash :: ·) := hold.text
  have hsplit : parentPath = oldPath ++ rest.flatMap (slash :: ·) := by
    rw [hparent, hpath, List.flatMap_append]
  have hhead : oldPath.isPrefixOf parentPath = true := by
    rw [hsplit, List.isPrefixOf_iff_prefix]
    exact List.prefix_append _ _
  have hyes : pathIsDescendantOf parentPath oldPath = true := by
    unfold pathIsDescendantOf
    rw [if_pos hhead]
    split
    · rfl
    · rw [hsplit, List.drop_left]
      cases rest with
      | nil => rfl
      | cons x rest => simp
  rw [hguard] at hyes
  cases hyes

/-! ## Reachability -/

section

variable {ok : List DirectoryEntry → Prop} {g : Geometry} {v v' : Volume}
  {D D' : Nat → Prop} {own own' : Owner → List Nat} {it it' : Item} {name : CStr}
  {append : Bool} {data : List UInt8} {new : List Nat} {e' : DirectoryEntry} {d d' x : Nat}

theorem Untouched.reachable (h : Untouched ok g v v' D own own')
    (hD : ∀ x, Reachable g v x → D x) (hx : Reachable g v x) : Reachable g v' x :=
  (Reach.congr fun d hd i => h.dirs.liveAt_eq (hD d hd) i).mpr hx

/-- The directories that an account covers are those that are reachable. -/
def Covers (g : Geometry) (v : Volume) (D : Nat → Prop) : Prop := ∀ x, D x → Reachable g v x

theorem FileReplaced.reachable (hs : Sound ok g v D own)
    (h : FileReplaced ok g v v' D own d it append data new e') (hx : Reachable g v x) :
    Reachable g v' x := by
  refine Reach.mono hx fun y j e hy he hdir => ?_
  have hDy := hs.reachable hy
  refine ⟨j, e, ?_, hdir, rfl⟩
  by_cases hyd : y = d
  · subst hyd
    have hne : j ≠ it.index := by
      rintro rfl
      rw [liveEntries_item h.mem] at he
      obtain rfl := Option.some.inj he
      rw [h.file] at hdir
      cases hdir
    exact (h.liveAt_eq j).trans ((if_neg hne).trans he)
  · exact (h.others.liveAt_eq ⟨hDy, hyd⟩ j).trans he

theorem Created.reachable (hs : Sound ok g v D own)
    (h : Created ok g v v' D D' own own' d name it) (hx : Reachable g v x) :
    Reachable g v' x := by
  refine Reach.mono hx fun y j e hy he hdir => ⟨j, e, ?_, hdir, rfl⟩
  have hDy := hs.reachable hy
  by_cases hyd : y = d
  · subst hyd
    obtain ⟨_, _, _, hslots⟩ := h.slots
    have hne : j ≠ it.index := by
      rintro rfl
      cases hslots.vacant.symm.trans he
    exact (h.liveAt_eq j).trans ((if_neg hne).trans he)
  · exact (h.others.liveAt_eq ⟨hDy, hyd⟩ j).trans he

/-- The new entry is there. -/
theorem Created.live (h : Created ok g v v' D D' own own' d name it) :
    liveEntries g v' d it.index = some it.entry := (h.liveAt_eq it.index).trans (if_pos rfl)

theorem Removed.reachable [DirRules ok] (hs : Sound ok g v D own) (h : Removed ok g v v' D own d it)
    (hx : Reachable g v x) (hkeep : without D it.entry x) : Reachable g v' x := by
  induction hx with
  | root => exact .root
  | @step y j e parent entry dir ih =>
    have hDy := hs.reachable parent
    -- the removed directory has no entries
    have hy : without D it.entry y := by
      refine ⟨hDy, fun hrem => ?_⟩
      obtain ⟨it', hit', -⟩ := (hs.live_iff_item hDy).mp entry
      rw [hrem.2, h.empty hrem.1] at hit'
      cases hit'
    refine (ih hy).step (i := j) ?_ dir
    by_cases hyd : y = d
    · subst hyd
      have hne : j ≠ it.index := by
        rintro rfl
        rw [liveEntries_item h.mem] at entry
        obtain rfl := Option.some.inj entry
        exact hkeep.2 ⟨dir, rfl⟩
      exact (h.liveAt_eq j).trans ((if_neg hne).trans entry)
    · exact (h.others.liveAt_eq ⟨hy, hyd⟩ j).trans entry

/-- The entry that has moved is there. -/
theorem Moved.live_new (h : Moved ok g v v' D own own' d d' it it' name) (hd' : D d') :
    liveEntries g v' d' it'.index = some it'.entry := by
  rw [h.live d' hd', movedEntries, Entries.put_self]

/-- Every other entry is where it was. -/
theorem Moved.live_other (h : Moved ok g v v' D own own' d d' it it' name) {j : Nat}
    {e : DirectoryEntry} (hx : D x) (he : liveEntries g v x j = some e)
    (hne : ¬ (x = d ∧ j = it.index)) : liveEntries g v' x j = some e := by
  rw [h.live x hx, movedEntries, Entries.put_other, Entries.put_other hne]
  · exact he
  · rintro ⟨rfl, rfl⟩
    rcases h.vacant with hn | ⟨rfl, heq⟩
    · rw [hn] at he
      cases he
    · exact hne ⟨rfl, heq⟩

/-- A move keeps every directory reachable if the new parent is reachable without the entry that
moves. -/
theorem Moved.reachable (hs : Sound ok g v D own) (hd : D d) (hd' : D d')
    (h : Moved ok g v v' D own own' d d' it it' name)
    (havoid : it.entry.isDirectory = true →
      Reach ((liveEntries g v).put d it.index none) g.rootCluster d')
    (hx : Reachable g v x) : Reachable g v' x := by
  have hlive := liveEntries_item h.mem
  induction hx with
  | root => exact .root
  | @step y j e parent entry dir ih =>
    have hDy := hs.reachable parent
    by_cases hmoved : y = d ∧ j = it.index
    · obtain ⟨rfl, rfl⟩ := hmoved
      rw [hlive] at entry
      obtain rfl := Option.some.inj entry
      have hparent : Reachable g v' d' := by
        refine (havoid dir).mono fun z k e hz he hdir => ⟨k, e, ?_, hdir, rfl⟩
        have hne : ¬ (z = y ∧ k = it.index) := by
          rintro ⟨rfl, rfl⟩
          rw [Entries.put_self] at he
          cases he
        rw [Entries.put_other hne] at he
        have hzr : Reachable g v z := hz.mono fun w l e _ he hdir => ⟨l, e, by
          unfold Entries.put at he
          split at he
          · cases he
          · exact he, hdir, rfl⟩
        exact h.live_other (hs.reachable hzr) he hne
      have := hparent.step (h.live_new hd') (by rw [h.fields.isDirectory]; exact dir)
      rwa [h.fields.first] at this
    · exact ih.step (h.live_other hDy entry hmoved) dir

/-- The slot `..` leads nowhere. -/
theorem Reparented.reachable_iff [DirRules ok] {m parent : Nat} (hs : Sound ok g v D own)
    (h : Reparented ok g v v' D own m parent) (hm : D m) :
    Reachable g v' x ↔ Reachable g v x :=
  Reach.congr fun _ hy i => h.live_eq hs hm (hs.reachable hy) i

/-- With canonical paths the new parent is reachable without the entry that moves. -/
theorem Renamed.avoiding {vm : Volume} {oldPath newPath : CStr} {cs cs' : List CStr}
    {r r' : Option DirectoryEntry} {name name' parentPath' : CStr} (hs : Sound ok g v D own)
    (h : Renamed ok g v vm v' D own own' oldPath newPath cs cs' r r' name name' parentPath' it it')
    (hold : CanonicalPath oldPath) (hnew : CanonicalPath newPath)
    (hdir : it.entry.isDirectory = true) :
    Reach ((liveEntries g v).put (dirCluster g r) it.index none) g.rootCluster
      (dirCluster g r') := by
  obtain ⟨parentDir, parentPath, hp⟩ := h.old
  obtain ⟨parentDir', hp'⟩ := h.new
  obtain ⟨cs₀, hcan⟩ := hold
  obtain ⟨cs₁, hcan'⟩ := hnew
  obtain rfl : cs₀ = cs ++ [name] := hcan.splitComponents_eq.symm.trans hp.split
  obtain rfl : cs₁ = cs' ++ [name'] := hcan'.splitComponents_eq.symm.trans hp'.split
  have hupper : ∀ c ∈ cs ++ [name], c.map kToupper = c := fun c hc => (hcan.components c hc).upper
  refine hs.reach_avoiding (fun c hc => hupper c (by simp [hc])) (hupper name (by simp))
    (fun c hc => (hcan'.components c (by simp [hc])).upper) hp.resolved hp.dir h.found
    (not_prefix_of_guard hcan (by simp) hcan' hp'.text (h.guarded hdir)) hp'.resolved hp'.dir

end

end FunnyOS.Fat32
