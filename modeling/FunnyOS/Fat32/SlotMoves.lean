import FunnyOS.Fat32.Remove

/-!
# Moving an entry

`moveEntrySlots` takes an entry out of one directory and puts an entry with the same attributes,
size and first cluster, under another name, into another directory or the same one (`Moved`). It
counts the slots in front of the old entry by their attributes and finds free slots by their first
bytes. Where free slots have the attributes of a long name it may write the new entry into slots
that it then deletes with the old one (`EntryLost`).
-/

namespace FunnyOS.Fat32

open Prog

/-! ## What becomes of the entry -/

/-- `l'` is `l` with one more entry. -/
def Inserted (l l' : List Item) (it : Item) : Prop := ∃ a b, l = a ++ b ∧ l' = a ++ it :: b

/-- What has become of the entries of the two directories: `it` has left `d`, and `it'` has
entered `d'`. -/
def ListsMoved (g : Geometry) (v v' : Volume) (d d' : Nat) (it it' : Item) : Prop :=
  if d = d' then ∃ mid, Inserted (itemsOf (dirEntries g v d)) mid it' ∧
    Inserted (itemsOf (dirEntries g v' d)) mid it
  else Inserted (itemsOf (dirEntries g v' d)) (itemsOf (dirEntries g v d)) it ∧
    Inserted (itemsOf (dirEntries g v d')) (itemsOf (dirEntries g v' d')) it'

/-- An entry that keeps everything but its name. -/
structure SameFields (e e' : DirectoryEntry) : Prop where
  attributes : e'.attributes = e.attributes
  first : e'.entryFirstCluster = e.entryFirstCluster
  size : e'.size = e.size

/-- The entries after a move. -/
def movedEntries (L : Entries) (d d' : Nat) (it it' : Item) : Entries :=
  (L.put d it.index none).put d' it'.index (some it'.entry)

/-- The entry `it` of directory `d` has become the entry `it'` of directory `d'`. -/
structure Moved (ok : List DirectoryEntry → Prop) (g : Geometry) (v v' : Volume)
    (D : Nat → Prop) (own own' : Owner → List Nat) (d d' : Nat) (it it' : Item) (name : CStr) :
    Prop where
  mem : it ∈ itemsOf (dirEntries g v d)
  sound : Sound ok g v' D own'
  named : nameEqualsIgnoreCase it'.name name = true
  fields : SameFields it.entry it'.entry
  unused : scanForShortName it'.entry.name (if d = d' then some it.entry.name else none)
    (dirEntries g v d') ≠ .found ()
  lists : [TidyRules ok] → ListsMoved g v v' d d' it it'
  live : ∀ x, D x → ∀ j, liveEntries g v' x j = movedEntries (liveEntries g v) d d' it it' x j
  vacant : liveEntries g v d' it'.index = none ∨ d' = d ∧ it'.index = it.index
  others : SameDirs g v v' (fun x => D x ∧ x ≠ d ∧ x ≠ d')
  shape : ∀ x, D x → KeepsShape (dirEntries g v x) (dirEntries g v' x)
  chains : ∀ x, D x → clusterChain g v.fat x <+: clusterChain g v'.fat x
  preserved : Preserved v v' (fun c => c ∈ clusterChain g v.fat d ∨ c ∈ clusterChain g v.fat d')
  fat : v'.fat = v.fat ∨ ∃ c ∈ freeClusters g v.fat, ∃ last ∈ clusterChain g v.fat d',
    v'.fat = fun x => if x = last then c else if x = c then endOfChain else v.fat x
  tight : Tight g v.fat (liveEntries g v) D own → Tight g v'.fat (liveEntries g v') D own'

/-- The entry `it` of directory `d` is gone: the new one was among the slots deleted with it. -/
structure EntryLost (g : Geometry) (v v' : Volume) (D : Nat → Prop) (d : Nat) (it : Item) :
    Prop where
  mem : it ∈ itemsOf (dirEntries g v d)
  slots : ∃ name new zs start it' es, SlotsFilled (dirEntries g v d) es name new zs start it' ∧
    start < it.index ∧ it.index < start + new.length + it.lfnCount (dirEntries g v d) ∧
    dirEntries g v' d = deleteSpan es (it.index - it.lfnCount (dirEntries g v d))
      (it.lfnCount (dirEntries g v d) + 1)
  others : SameDirs g v v' (fun x => D x ∧ x ≠ d)
  fat : v'.fat = v.fat
  preserved : Preserved v v' (· ∈ clusterChain g v.fat d)

/-- What a move with `count` slots for the new name has done. -/
inductive SlotsMoved (ok : List DirectoryEntry → Prop) (g : Geometry) (v v' : Volume)
    (D : Nat → Prop) (own : Owner → List Nat) (d d' : Nat) (it : Item) (name : CStr)
    (count : Nat) : Prop
  | moved (apart : ¬ (d = d' ∧ OverlapsOld (dirEntries g v d) it count))
      (own' : Owner → List Nat) (it' : Item)
      (entry : Moved ok g v v' D own own' d d' it it' name)
  | lost (same : d = d') (overlap : OverlapsOld (dirEntries g v d) it count)
      (entry : EntryLost g v v' D d it)

theorem SameFields.isDirectory {e e' : DirectoryEntry} (h : SameFields e e') :
    e'.isDirectory = e.isDirectory := by
  unfold DirectoryEntry.isDirectory
  rw [h.attributes]

section

variable {ok : List DirectoryEntry → Prop} {g : Geometry} {v v₁ v' : Volume}
  {L : Entries} {D : Nat → Prop} {own own₂ : Owner → List Nat} {d d' : Nat} {it it' : Item}
  {name : CStr}

/-- A slot that was vacant, or has just been vacated. -/
theorem Entries.put_vacant {i j : Nat} (h : L d' j = none ∨ d' = d ∧ j = i) :
    L.put d i none d' j = none := by
  rcases h with hn | ⟨rfl, rfl⟩
  · unfold Entries.put
    split
    · rfl
    · exact hn
  · exact Entries.put_self

/-- In different slots the order does not matter. -/
theorem movedEntries_comm (hne : ¬ (d' = d ∧ it'.index = it.index)) :
    movedEntries L d d' it it' = (L.put d' it'.index (some it'.entry)).put d it.index none := by
  funext x j
  unfold movedEntries Entries.put
  by_cases h₁ : x = d' ∧ j = it'.index
  · rw [if_pos h₁, if_neg, if_pos h₁]
    rintro ⟨rfl, rfl⟩
    exact hne ⟨h₁.1.symm, h₁.2.symm⟩
  · rw [if_neg h₁, if_neg h₁]

/-- The chain that was pending is what the moved entry says about its clusters. -/
theorem entryOk_moved (h : Sound ok g v D own) (hd : D d)
    (hit : it ∈ itemsOf (dirEntries g v d)) (hacc : Account ok g v' L D own₂)
    {e' : DirectoryEntry} (hf : SameFields it.entry e')
    (hpre : own (.slot d it.index) <+: own₂ .pending)
    (hfile : it.entry.isDirectory = false → own₂ .pending = own (.slot d it.index) ∧
      ∀ c ∈ own (.slot d it.index), v'.fat c = v.fat c) :
    EntryOk g v'.fat e' (own₂ .pending) := by
  have hok := h.entryOk hd hit
  cases hdir : it.entry.isDirectory with
  | false =>
    obtain ⟨heq, hfat⟩ := hfile hdir
    have hsame := hok.congr hfat
    rw [heq]
    refine ⟨hf.first.symm ▸ hsame.chain, by simp [hf.isDirectory, hdir], fun _ => ?_⟩
    rw [hf.first, hf.size]
    exact hok.file hdir
  | true =>
    have hne := hok.dir hdir
    have hD := h.subdir hd hit hdir
    have hmem : it.entry.entryFirstCluster ∈ own₂ .pending :=
      hpre.subset ((hok.chain.chain_of_ne_nil hne).head_mem hne)
    obtain ⟨hch, hchne⟩ := hacc.cert.dir_chain hD
    have heq := hacc.cert.owner_eq hD hmem (hch.head_mem hchne)
    rw [heq]
    exact ⟨.inr ⟨hchne, hf.first.symm ▸ hch⟩, fun _ => hchne, by simp [hf.isDirectory, hdir]⟩

/-- The moved entry gets its chain back. -/
theorem sound_moved (h : Sound ok g v D own) (hd : D d) (hd' : D d')
    (hit : it ∈ itemsOf (dirEntries g v d))
    (hacc : Account ok g v' ((liveEntries g v).put d it.index none) D own₂)
    (hf : SameFields it.entry it'.entry)
    (hvacant : liveEntries g v d' it'.index = none ∨ d' = d ∧ it'.index = it.index)
    (hpre : own (.slot d it.index) <+: own₂ .pending)
    (hfile : it.entry.isDirectory = false → own₂ .pending = own (.slot d it.index) ∧
      ∀ c ∈ own (.slot d it.index), v'.fat c = v.fat c)
    (hL : ∀ x, D x → ∀ j, liveAt (dirEntries g v' x) j
      = movedEntries (liveEntries g v) d d' it it' x j) :
    Sound ok g v' D (giveChain own₂ d' it'.index) := by
  refine hacc.settle hd' (Entries.put_vacant hvacant) (entryOk_moved h hd hit hacc hf hpre hfile) ?_
    ?_ hL
  · intro hdir
    rw [hf.first]
    exact h.subdir hd hit (hf.isDirectory ▸ hdir)
  · intro hdir x l hl
    rw [hf.isDirectory] at hdir
    rw [(hfile hdir).1] at hl
    exact h.cert.file_head h.settled hd (liveEntries_item hit) hdir x l hl

/-- A moved entry leaves no space behind. -/
theorem tight_moved (hd : D d)
    (hit : it ∈ itemsOf (dirEntries g v d))
    (hacc : Account ok g v' ((liveEntries g v).put d it.index none) D own₂)
    (hf : SameFields it.entry it'.entry)
    (hvacant : liveEntries g v d' it'.index = none ∨ d' = d ∧ it'.index = it.index)
    (hfile : it.entry.isDirectory = false → own₂ .pending = own (.slot d it.index))
    (hL : ∀ x, D x → ∀ j, liveAt (dirEntries g v' x) j
      = movedEntries (liveEntries g v) d d' it it' x j)
    (ht : Tight g v.fat (liveEntries g v) D own)
    (ht₂ : Tight g v'.fat ((liveEntries g v).put d it.index none) D own₂) :
    Tight g v'.fat (liveEntries g v') D (giveChain own₂ d' it'.index) := by
  have hslot : own₂ (.slot d' it'.index) = [] :=
    hacc.cert.unused fun _ => Entries.put_vacant hvacant
  refine (ht₂.put (e := it'.entry) hslot fun hdir => ?_).congr hL
  rw [hf.isDirectory] at hdir
  rw [hfile hdir, hf.size]
  exact ht.exact hd (liveEntries_item hit) hdir

/-- A new name that needs no more slots is written over the old one. -/
theorem moved_inPlace [DirRules ok] (h : Sound ok g v D own) (hd : D d)
    (hit : it ∈ itemsOf (dirEntries g v d)) {entry : DirectoryEntry} {new : List DirectoryEntry}
    (hnew : NameBlock name entry new) (hf : SameFields it.entry entry)
    (hunused : scanForShortName entry.name (some it.entry.name) (dirEntries g v d) ≠ .found ())
    (hlen : new.length ≤ it.lfnCount (dirEntries g v d) + 1)
    (hedit : Edited g v v' (clusterChain g v.fat d) (deleteSpan
      (setSpan (dirEntries g v d) (it.index - it.lfnCount (dirEntries g v d)) new)
      (it.index - it.lfnCount (dirEntries g v d) + new.length)
      (it.lfnCount (dirEntries g v d) + 1 - new.length))) :
    ∃ it', Moved ok g v v' D own (giveChain (takeChain own d it.index) d it'.index) d d it it'
      name := by
  have hlive := liveEntries_item hit
  obtain ⟨found, attached, hname, hitems⟩ := hnew.items
  have hitems := hitems (it.index - it.lfnCount (dirEntries g v d))
  generalize hit' : (⟨it.index - it.lfnCount (dirEntries g v d) + (new.length - 1), entry, found,
    attached⟩ : Item) = it' at hitems
  have hentry : it'.entry = entry := by rw [← hit']
  have hindex : it'.index = it.index - it.lfnCount (dirEntries g v d) + (new.length - 1) := by
    rw [← hit']
  have hacc := h.toAccount.take h.settled hlive
  obtain ⟨hacc₂, hchain, hes, hsame⟩ := hacc.edit hd hedit
    (DirRules.inPlace (h.tidy hd) hit hnew hlen)
  obtain ⟨hle, -, -, -⟩ := item_span hit
  have hvacant : liveEntries g v d it'.index = none ∨ d = d ∧ it'.index = it.index := by
    by_cases heq : it'.index = it.index
    · exact .inr ⟨rfl, heq⟩
    · exact .inl (liveAt_counted hit (by omega) (by omega))
  have hL : ∀ x, D x → ∀ j, liveAt (dirEntries g v' x) j
      = movedEntries (liveEntries g v) d d it it' x j := by
    intro x hx j
    by_cases hxd : x = d
    · rw [hxd, hes, liveAt_inPlace hit hnew hlen, ← hindex, ← hentry]
      by_cases hj : j = it'.index
      · simp [movedEntries, Entries.put, hj]
      · by_cases hj' : j = it.index <;> simp [movedEntries, Entries.put, hj, hj', liveEntries]
    · rw [(hsame x ⟨hx, hxd⟩).2]
      simp [movedEntries, Entries.put, hxd, liveEntries]
  have hf' : SameFields it.entry it'.entry := hentry.symm ▸ hf
  have hpend : takeChain own d it.index .pending = own (.slot d it.index) := takeChain_pending
  have hfat : v'.fat = v.fat := hedit.fat
  refine ⟨it', hit, sound_moved h hd hd hit hacc₂ hf' hvacant (hpend ▸ List.prefix_refl _)
    (fun _ => ⟨hpend, fun c _ => by rw [hfat]⟩) hL, ?_, hf', ?_, fun {_} => ?_, hL, hvacant,
    hsame.mono fun x hx => ⟨hx.1, hx.2.1⟩, fun x hx => ?_, fun x hx => ?_,
    hedit.preserved.mono fun c hc => .inr (.inl hc), .inl hfat, fun ht => ?_⟩
  · rw [← hit']
    exact hname
  · rw [if_pos rfl, hentry]
    exact hunused
  · obtain ⟨-, a, b, ha, hb⟩ := itemReplaced_inPlace (TidyRules.tidy (h.tidy hd)) hit hlen
      hnew.closedBlock hitems
    unfold ListsMoved
    rw [if_pos rfl, hes]
    exact ⟨a ++ it :: it' :: b, ⟨a ++ [it], b, by rw [ha]; simp, by simp⟩, ⟨a, it' :: b, hb, rfl⟩⟩
  · exact hsame.keepsShape_put (hes ▸ keepsShape_inPlace hit hnew hlen) hx
  · rw [hfat]
  · refine tight_moved hd hit hacc₂ hf' hvacant (fun _ => hpend) hL ht ?_
    rw [hfat]
    exact ht.take h.settled

/-- The entry that moves is still there when the new one has been written. -/
theorem mem_of_placed {own₁ : Owner → List Nat} {grown : List Nat} {entry : DirectoryEntry}
    {new : List DirectoryEntry} (hd : D d) (hit : it ∈ itemsOf (dirEntries g v d))
    (hp : Placed g v v₁ D own own₁ d' grown name entry new it') :
    it ∈ itemsOf (dirEntries g v₁ d) := by
  by_cases hdd : d = d'
  · subst hdd
    obtain ⟨_, _, hslots, -⟩ := hp.slots
    exact hslots.keep hit
  · rw [(hp.others d ⟨hd, hdd⟩).2]
    exact hit

/-- Where an entry is written the shape of every directory is kept. -/
theorem keepsShape_placed {own₁ : Owner → List Nat} {grown : List Nat} {entry : DirectoryEntry}
    {new : List DirectoryEntry} {x : Nat} (hx : D x)
    (hp : Placed g v v₁ D own own₁ d' grown name entry new it') :
    KeepsShape (dirEntries g v x) (dirEntries g v₁ x) := by
  obtain ⟨_, _, hslots, -⟩ := hp.slots
  exact hp.others.keepsShape_put hslots.keepsShape hx

/-- The clusters that a moved entry has while the new one is written. -/
theorem pending_of_placed {own₁ : Owner → List Nat} {grown : List Nat}
    {entry : DirectoryEntry} {new : List DirectoryEntry} (h : Sound ok g v D own) (hd : D d)
    (hd' : D d') (hit : it ∈ itemsOf (dirEntries g v d))
    (hp : Placed g v v₁ D (takeChain own d it.index) own₁ d' grown name entry new it') :
    own (.slot d it.index) <+: own₁ .pending ∧ (it.entry.isDirectory = false →
      own₁ .pending = own (.slot d it.index) ∧
      ∀ c ∈ own (.slot d it.index), c ∉ clusterChain g v.fat d') := by
  obtain ⟨o, ho, rfl⟩ := hp.own
  constructor
  · by_cases hop : .pending = o
    · rw [← hop, Function.update_self, takeChain_pending]
      exact List.prefix_append _ _
    · rw [Function.update_of_ne hop, takeChain_pending]
  · intro hfile
    have hhead := h.cert.file_head h.settled hd (liveEntries_item hit) hfile
    refine ⟨?_, fun c hc => h.cert.owner_apart hd' (fun t ht => hhead _ t ht hd') hc⟩
    rw [Function.update_of_ne, takeChain_pending]
    rintro rfl
    obtain ⟨hch, hne⟩ := h.cert.dir_chain hd'
    obtain ⟨t, ht⟩ := hch.eq_cons hne
    rw [takeChain_pending] at ho
    exact hhead d' t (ho.trans ht) hd'

/-- The lists of entries when first an entry has come in and then the old one has gone. -/
theorem listsMoved_of_removed (hadded : ItemAdded (dirEntries g v d') (dirEntries g v₁ d') it')
    (hremoved : ItemRemoved (dirEntries g v₁ d) (dirEntries g v' d) it)
    (hold : d ≠ d' → dirEntries g v₁ d = dirEntries g v d)
    (hnew : d ≠ d' → dirEntries g v' d' = dirEntries g v₁ d') :
    ListsMoved g v v' d d' it it' := by
  obtain ⟨a, b, ha, hb⟩ := hremoved
  obtain ⟨a', b', ha', hb'⟩ := hadded
  unfold ListsMoved
  by_cases hdd : d = d'
  · subst hdd
    rw [if_pos rfl]
    exact ⟨_, ⟨a', b', ha', hb'⟩, ⟨a, b, hb, ha⟩⟩
  · rw [if_neg hdd]
    rw [hold hdd] at ha
    exact ⟨⟨a, b, hb, ha⟩, ⟨a', b', ha', (congrArg itemsOf (hnew hdd)).trans hb'⟩⟩

/-- A new name is written elsewhere, then the old one is deleted. -/
theorem moved_placed [DirRules ok] (h : Sound ok g v D own) (hd : D d) (hd' : D d')
    (hit : it ∈ itemsOf (dirEntries g v d)) {own₁ : Owner → List Nat} {grown : List Nat}
    {entry : DirectoryEntry} {new : List DirectoryEntry} (hf : SameFields it.entry entry)
    (hunused : scanForShortName entry.name (if d = d' then some it.entry.name else none)
      (dirEntries g v d') ≠ .found ())
    (hacc₁ : Account ok g v₁ ((liveEntries g v).put d it.index none) D own₁)
    (hp : Placed g v v₁ D (takeChain own d it.index) own₁ d' grown name entry new it')
    (hedit : Edited g v₁ v' (clusterChain g v₁.fat d) (deleteSpan (dirEntries g v₁ d)
      (it.index - it.lfnCount (dirEntries g v₁ d)) (it.lfnCount (dirEntries g v₁ d) + 1))) :
    Moved ok g v v' D own (giveChain own₁ d' it'.index) d d' it it' name := by
  have hlive := liveEntries_item hit
  have hit₁ := mem_of_placed hd hit hp
  obtain ⟨hacc₂, hchain₂, hes₂, hsame₂⟩ := hacc₁.edit hd hedit
    (DirRules.delete (hacc₁.tidy hd) hit₁)
  obtain ⟨zs, start, hslots, -⟩ := hp.slots
  have hnone := hslots.vacant
  obtain ⟨hpre, hfile⟩ := pending_of_placed h hd hd' hit hp
  have hne : ¬ (d' = d ∧ it'.index = it.index) := by
    rintro ⟨rfl, heq⟩
    have : liveAt (dirEntries g v d') it.index = some it.entry := hlive
    rw [heq, this] at hnone
    cases hnone
  have hL₁ : ∀ x, D x → ∀ j, liveAt (dirEntries g v₁ x) j
      = (liveEntries g v).put d' it'.index (some it'.entry) x j :=
    hp.others.live_put (fun _ _ _ => rfl) fun _ => hslots.liveAt_eq
  have hL : ∀ x, D x → ∀ j, liveAt (dirEntries g v' x) j
      = movedEntries (liveEntries g v) d d' it it' x j := by
    rw [movedEntries_comm hne]
    exact hsame₂.live_put hL₁ fun j => by rw [hes₂, liveAt_removed hit₁]
  have hf' : SameFields it.entry it'.entry := hp.entry.symm ▸ hf
  have hfile' : it.entry.isDirectory = false → own₁ .pending = own (.slot d it.index) ∧
      ∀ c ∈ own (.slot d it.index), v'.fat c = v.fat c := by
    intro hdir
    obtain ⟨heq, hapart⟩ := hfile hdir
    refine ⟨heq, fun c hc => ?_⟩
    rw [hedit.fat]
    exact hp.preserved.fat c (h.cert.fat_ne_zero hc) (hapart c hc)
  have hchains : ∀ x, D x → clusterChain g v.fat x <+: clusterChain g v₁.fat x := by
    intro x hx
    by_cases hxd : x = d'
    · rw [hxd, hp.chain]
      exact List.prefix_append _ _
    · rw [(hp.others x ⟨hx, hxd⟩).1]
  refine ⟨hit, sound_moved h hd hd' hit hacc₂ hf' (.inl hnone) hpre hfile' hL, hslots.named.2,
    hf', hp.entry.symm ▸ hunused, fun {_} => ?_, hL, .inl hnone, fun x hx => ?_, fun x hx => ?_,
    fun x hx => ?_, ?_, ?_, fun ht => ?_⟩
  · have hremoved := (itemRemoved_deleteSpan (TidyRules.tidy (hacc₁.tidy hd)) hit₁).2
    rw [← hes₂] at hremoved
    exact listsMoved_of_removed (hslots.added (TidyRules.tidy (h.tidy hd'))) hremoved
      (fun hdd => (hp.others d ⟨hd, hdd⟩).2) fun hdd => (hsame₂ d' ⟨hd', Ne.symm hdd⟩).2
  · obtain ⟨hc₁, he₁⟩ := hp.others x ⟨hx.1, hx.2.2⟩
    obtain ⟨hc₂, he₂⟩ := hsame₂ x ⟨hx.1, hx.2.1⟩
    exact ⟨hc₂.trans hc₁, he₂.trans he₁⟩
  · exact (keepsShape_placed hx hp).trans
      (hsame₂.keepsShape_put (hes₂ ▸ keepsShape_deleteSpan hit₁) hx)
  · rw [hedit.fat]
    exact hchains x hx
  · refine (hp.preserved.mono fun c hc => .inr (.inr hc)).trans hedit.preserved fun c hc => ?_
    have hc : c ∈ clusterChain g v₁.fat d := hc
    by_cases hdd : d = d'
    · rw [hdd, hp.chain] at hc
      rcases List.mem_append.mp hc with hc | hc
      · exact .inr (.inr hc)
      · exact .inl (mem_freeClusters.mp (hp.free c hc)).2
    · rw [(hp.others d ⟨hd, hdd⟩).1] at hc
      exact .inr (.inl hc)
  · rw [hedit.fat]
    rcases hp.fat with ⟨-, heq⟩ | ⟨c, hgrown, last, hlast, heq⟩
    · exact .inl heq
    · exact .inr ⟨c, hp.free c (by simp [hgrown]), last, hlast, heq⟩
  · refine tight_moved hd hit hacc₂ hf' (.inl hnone) (fun hdir => (hfile hdir).1) hL ht ?_
    rw [hedit.fat]
    exact hp.tight (h.toAccount.take h.settled hlive) hd' (ht.take h.settled)

/-! ### The entry that is lost -/

theorem EntryLost.liveAt_eq (h : EntryLost g v v' D d it) (i : Nat) :
    liveAt (dirEntries g v' d) i
      = if i = it.index then none else liveAt (dirEntries g v d) i := by
  obtain ⟨_, _, _, _, _, _, hslots, h₁, h₂, hes⟩ := h.slots
  rw [hes, hslots.liveAt_lost h.mem h₁ h₂]

theorem EntryLost.live (h : EntryLost g v v' D d it) {x : Nat} (hx : D x) (j : Nat) :
    liveEntries g v' x j = (liveEntries g v).put d it.index none x j :=
  h.others.live_put (fun _ _ _ => rfl) h.liveAt_eq x hx j

/-- What is left of the two names does not disturb a lookup. -/
theorem EntryLost.searchable (h : EntryLost g v v' D d it)
    (hs : Searchable (dirEntries g v d)) : Searchable (dirEntries g v' d) := by
  obtain ⟨_, _, _, _, _, es, hslots, -, -, hes⟩ := h.slots
  have hmid : Searchable es := by
    rw [hslots.eq]
    exact DirRules.place (DirRules.append hs hslots.zeros) hslots.free hslots.block
  obtain ⟨hle, -, -, -⟩ := item_span h.mem
  obtain ⟨-, hentry, hlive, -⟩ := item_span (hslots.keep h.mem)
  have hlt := (List.getElem?_eq_some_iff.mp hentry).1
  rw [hes]
  exact hmid.deleteSpan (by omega) hentry (DirectoryEntry.kind_eq_live.mp hlive).1 (by omega)

/-- The entry is deleted, and the clusters that it had belong to no entry. -/
theorem EntryLost.account (h : EntryLost g v v' D d it) (hs : Sound Searchable g v D own) :
    Account Searchable g v' ((liveEntries g v).put d it.index none) D
      (takeChain own d it.index) := by
  have hacc := hs.toAccount.take hs.settled (liveEntries_item h.mem)
  refine ⟨h.preserved.mounted.trans hacc.mounted, h.fat ▸ hacc.cert, fun {x} hx => ?_⟩
  by_cases hxd : x = d
  · subst hxd
    exact h.searchable (hs.tidy hx)
  · rw [(h.others x ⟨hx, hxd⟩).2]
    exact hs.tidy hx

/-- A new name is written over slots counted in front of the old entry. -/
theorem entryLost_of_edited {own₁ : Owner → List Nat} {grown : List Nat} {entry : DirectoryEntry}
    {new : List DirectoryEntry} (hit : it ∈ itemsOf (dirEntries g v d))
    (hover : OverlapsOld (dirEntries g v d) it new.length)
    (hp : Placed g v v₁ D own own₁ d grown name entry new it')
    (hacc₁ : Account ok g v₁ L D own₂) (hd : D d)
    (hedit : Edited g v₁ v' (clusterChain g v₁.fat d) (deleteSpan (dirEntries g v₁ d)
      (it.index - it.lfnCount (dirEntries g v d)) (it.lfnCount (dirEntries g v d) + 1))) :
    EntryLost g v v' D d it := by
  obtain ⟨zs, start, hslots, hsearch⟩ := hp.slots
  obtain ⟨-, start', hin, h₁, h₂⟩ := hover
  obtain ⟨hgrown, heq⟩ : grown = [] ∧ start = start' := by
    rcases hsearch with ⟨hgrown, hfound⟩ | hfound
    · exact ⟨hgrown, freeSearch_unique hfound hin⟩
    · exact (not_freeSearch_both hin hfound).elim
  subst heq
  have hfat : v₁.fat = v.fat := by
    rcases hp.fat with ⟨-, hfat⟩ | ⟨c, hc, -⟩
    · exact hfat
    · rw [hgrown] at hc
      cases hc
  refine ⟨hit, ⟨name, new, zs, start, it', _, hslots, h₁, h₂, ?_⟩, ?_, hedit.fat.trans hfat, ?_⟩
  · rw [dirEntries, hedit.fat]
    exact hedit.entries
  · refine hp.others.trans fun x hx => hedit.preserved.sameDir (hacc₁.cert.dir_chain hx.1).1 ?_
    exact fun c hc hc' => hacc₁.cert.dirs_apart hd hx.1 (Ne.symm hx.2) hc' hc
  · refine hp.preserved.trans hedit.preserved fun c hc => .inr ?_
    rwa [hfat] at hc

end

/-! ## The operation -/

section

variable {ok : List DirectoryEntry → Prop} [DirRules ok] {env : Env} {s : State}
  {D : Nat → Prop} {own : Owner → List Nat} {v : Volume} {d d' : Nat} {it : Item}
  {ref : EntryRef} {name : CStr} {entry : DirectoryEntry} {new : List DirectoryEntry}
  {oldParentDir newParentDir : DirectoryRef}

/-- The slots of the entry are moved. -/
theorem moveEntrySlots_sat (hfuel : env.geometry.totalClusters < env.fuel) (hrel : ¬ env.Faulty)
    (hv : s.volume env.geometry = v) (h : Sound ok env.geometry v D own) (hd : D d) (hd' : D d')
    (hold : oldParentDir.firstCluster = d) (hnewp : newParentDir.firstCluster = d')
    (hiff : oldParentDir = newParentDir ↔ d = d')
    (hit : it ∈ itemsOf (dirEntries env.geometry v d))
    (href : RefTo env (dirEntries env.geometry v d) d it ref) (hnew : NameBlock name entry new)
    (hf : SameFields it.entry entry)
    (hunused : scanForShortName entry.name (if d = d' then some it.entry.name else none)
      (dirEntries env.geometry v d') ≠ .found ()) :
    Sat (moveEntrySlots env oldParentDir newParentDir ref new) s
      (fun _ s' => SlotsMoved ok env.geometry v (s'.volume env.geometry) D own d d' it name
        new.length)
      (fun _ s' => s'.volume env.geometry = v) := by
  obtain ⟨hle, hentry, -, -⟩ := item_span hit
  have hlt := (List.getElem?_eq_some_iff.mp hentry).1
  have hcount := href.count.resolve_right hrel
  obtain ⟨hch, -⟩ := h.cert.dir_chain hd
  have hfat : s.fat = v.fat := congrArg Volume.fat hv
  have hch : Chain env.geometry s.fat d (clusterChain env.geometry v.fat d) := hfat.symm ▸ hch
  have hes : dirEntries env.geometry v d
      = chainEntries env.geometry (s.volume env.geometry) (clusterChain env.geometry v.fat d) := by
    rw [hv]
    rfl
  unfold moveEntrySlots
  simp only [href.index, hcount, hold]
  refine Sat.ite (fun hin => ?_) (fun hin => ?_)
  · obtain ⟨hdirs, hlen⟩ := hin
    obtain rfl : d = d' := hiff.mp hdirs
    rw [if_pos rfl] at hunused
    refine Sat.bind (writeEntrySpanAt_sat hch (by rw [← hes]; omega)) ?_ ?_
    · rintro e s' ⟨-, hf, -⟩
      exact absurd hf hrel
    rintro ⟨⟩ s₁ hedit
    rw [← hes, hv] at hedit
    have hdone : ∀ s' : State, Edited env.geometry v (s'.volume env.geometry)
        (clusterChain env.geometry v.fat d) (deleteSpan
          (setSpan (dirEntries env.geometry v d)
            (it.index - it.lfnCount (dirEntries env.geometry v d)) new)
          (it.index - it.lfnCount (dirEntries env.geometry v d) + new.length)
          (it.lfnCount (dirEntries env.geometry v d) + 1 - new.length)) →
        SlotsMoved ok env.geometry v (s'.volume env.geometry) D own d d it name new.length := by
      intro s' he
      obtain ⟨it', hm⟩ := moved_inPlace h hd hit hnew hf hunused hlen he
      exact .moved (fun hover => absurd hlen (Nat.not_le_of_lt hover.2.1)) _ it' hm
    refine Sat.ite (fun hmore => ?_) (fun hexact => Sat.pure (hdone s₁ ?_))
    · have hch₁ : Chain env.geometry s₁.fat d (clusterChain env.geometry v.fat d) := by
        have : s₁.fat = v.fat := hedit.fat
        rw [this]
        exact hfat ▸ hch
      refine Sat.mono (markEntryRangeDeleted_sat hch₁ ?_) ?_ ?_
      · rw [hedit.entries, setSpan_length (by omega)]
        omega
      · rintro ⟨⟩ s₂ hedit₂
        rw [hedit.entries] at hedit₂
        exact hdone s₂ (hedit.trans hedit₂)
      · rintro e s' ⟨-, hf, -⟩
        exact absurd hf hrel
    · have hzero : it.lfnCount (dirEntries env.geometry v d) + 1 - new.length = 0 := by omega
      rw [hzero]
      simp only [deleteSpan, List.take_zero, List.map_nil, setSpan_nil]
      exact hedit
  · have hacc := h.toAccount.take h.settled (liveEntries_item hit)
    rw [hnewp]
    refine Sat.assoc ?_
    refine Sat.bind (placeEntries_sat hfuel hrel (hv.symm ▸ hacc) hd' hnew)
      (fun e s' he => he.2.1.trans hv) ?_
    rintro ⟨⟩ s₁ ⟨own₁, grown, it', hacc₁, hp⟩
    rw [hv] at hp hacc₁
    have hit₁ := mem_of_placed hd hit hp
    have hlt₁ := (List.getElem?_eq_some_iff.mp (item_span hit₁).2.1).1
    refine Sat.mono (markEntryDeleted_sat hrel hacc₁ hd href.directory (href.index ▸ hlt₁)
      (by rw [href.index, hcount]; exact hle)) ?_ (fun _ _ h => h.elim)
    rintro ⟨⟩ s₂ hedit
    rw [href.index, hcount] at hedit
    by_cases hover : d = d' ∧ OverlapsOld (dirEntries env.geometry v d) it new.length
    · obtain ⟨rfl, hover⟩ := hover
      exact .lost rfl hover (entryLost_of_edited hit hover hp hacc₁ hd hedit)
    -- the slots counted in front of the entry are the same ones still
    have hcount₁ : it.lfnCount (dirEntries env.geometry (s₁.volume env.geometry) d)
        = it.lfnCount (dirEntries env.geometry v d) := by
      by_cases hdd : d = d'
      · subst hdd
        obtain ⟨zs, start, hslots, hsearch⟩ := hp.slots
        have hmore : it.lfnCount (dirEntries env.geometry v d) + 1 < new.length :=
          Nat.lt_of_not_le fun hle => hin ⟨hiff.mpr rfl, hle⟩
        have hapart := apart_of_not_overlaps hit (fun ho => hover ⟨rfl, ho⟩) hmore
          (hsearch.imp_left And.right)
        rw [hslots.eq, lfnCount_setSpan hslots.free hslots.block
          ((lfnCount_append hit).symm ▸ hapart), lfnCount_append hit]
      · rw [(hp.others d ⟨hd, hdd⟩).2]
    rw [← hcount₁] at hedit
    exact .moved hover _ it' (moved_placed h hd hd' hit hf hunused hacc₁ hp hedit)

end

end FunnyOS.Fat32
