import FunnyOS.Fat32.FileSpec
import FunnyOS.Fat32.LiveSlots
import FunnyOS.Fat32.Ownership

/-!
# The account of a volume

`Account ok g v L D own`: the clusters of the volume `v` are accounted for by `own`, and every
directory in `D` is as `ok` says. `Sound` is the case of a volume between two calls, where the entries
are those in the directories and no chain is pending. The steps of the operations, on
the pending chain and on one directory, keep the account.
-/

namespace FunnyOS.Fat32

/-- The live entries of all directories. -/
def liveEntries (g : Geometry) (v : Volume) : Entries := fun d i => liveAt (dirEntries g v d) i

/-! ## What stays -/

/-- Clusters in use keep their link and their content, except those in `X`. -/
structure Preserved (v v' : Volume) (X : Nat → Prop) : Prop where
  mounted : v'.mounted = v.mounted
  fat : ∀ c, v.fat c ≠ 0 → ¬ X c → v'.fat c = v.fat c
  data : ∀ c, v.fat c ≠ 0 → ¬ X c → v'.data c = v.data c

section

variable {g : Geometry} {v v₁ v' : Volume} {X Y : Nat → Prop} {l old new : List Nat}
  {first c d : Nat}

theorem Preserved.refl : Preserved v v X := ⟨rfl, fun _ _ _ => rfl, fun _ _ _ => rfl⟩

theorem Preserved.mono (h : Preserved v v' X) (hXY : ∀ c, X c → v.fat c = 0 ∨ Y c) :
    Preserved v v' Y where
  mounted := h.mounted
  fat c h0 hY := h.fat c h0 fun hX => (hXY c hX).elim h0 hY
  data c h0 hY := h.data c h0 fun hX => (hXY c hX).elim h0 hY

/-- What the second step touches was free before the first, or is in `X` as well. -/
theorem Preserved.trans (h : Preserved v v₁ X) (h' : Preserved v₁ v' Y)
    (hY : ∀ c, Y c → v.fat c = 0 ∨ X c) : Preserved v v' X where
  mounted := h'.mounted.trans h.mounted
  fat c h0 hX := by
    have h₁ := h.fat c h0 hX
    exact (h'.fat c (h₁ ▸ h0) fun hc => (hY c hc).elim h0 hX).trans h₁
  data c h0 hX := by
    have h₁ := h.fat c h0 hX
    exact (h'.data c (h₁ ▸ h0) fun hc => (hY c hc).elim h0 hX).trans (h.data c h0 hX)

theorem Reallocated.preserved (h : Reallocated g v v' old new first) :
    Preserved v v' (· ∈ old) where
  mounted := h.mounted
  fat _ h0 hX := h.links.keep hX h0
  data c h0 _ := h.data c h0

theorem Edited.preserved {es : List DirectoryEntry} (h : Edited g v v' l es) :
    Preserved v v' (· ∈ l) where
  mounted := h.mounted
  fat _ _ _ := by rw [h.fat]
  data c _ hX := h.others c hX

theorem Stored.preserved {offset : Nat} {data : List UInt8} (h : Stored g v v' l offset data) :
    Preserved v v' (· ∈ l) where
  mounted := h.mounted
  fat _ _ _ := by rw [h.fat]
  data c _ hX := h.others c hX

/-- The chain of a file is changed, in its links or its content; it had the clusters `old` and
has the clusters `new` from `first` on. -/
structure Rewritten (g : Geometry) (v v' : Volume) (old new : List Nat) (first : Nat) :
    Prop where
  links : Relinked g v.fat v'.fat old new first
  preserved : Preserved v v' (· ∈ old)

theorem Reallocated.rewritten (h : Reallocated g v v' old new first) :
    Rewritten g v v' old new first := ⟨h.links, h.preserved⟩

/-- Two changes of the same chain. -/
theorem Rewritten.trans {mid : List Nat} {first' : Nat} (h : Rewritten g v v₁ old mid first')
    (h' : Rewritten g v₁ v' mid new first) : Rewritten g v v' old new first where
  links := h.links.trans h'.links
  preserved := by
    refine h.preserved.trans h'.preserved fun c hc => ?_
    by_cases ho : c ∈ old
    · exact .inr ho
    · exact .inl (h.links.fresh c hc ho)

/-- A change of the content. -/
theorem Rewritten.store {offset : Nat} {data : List UInt8} (h : Rewritten g v v₁ old new first)
    (hs : Stored g v₁ v' new offset data) : Rewritten g v v' old new first where
  links := hs.fat.symm ▸ h.links
  preserved := by
    refine h.preserved.trans hs.preserved fun c hc => ?_
    by_cases ho : c ∈ old
    · exact .inr ho
    · exact .inl (h.links.fresh c hc ho)

/-- A cleared cluster linked behind a chain. -/
theorem Appended.preserved (h : Appended g v v₁ l first c)
    (hv : v' = v₁.setData g c (fun _ => 0)) : Preserved v v' (· ∈ l) where
  mounted := by rw [hv]; exact h.grown.mounted
  fat x h0 hX := by rw [hv]; exact h.grown.links.keep hX h0
  data x h0 _ := by
    have hx : x ≠ c := by
      rintro rfl
      exact h0 (mem_freeClusters.mp h.free).2
    rw [hv]
    funext o
    simp [Volume.setData, hx, h.data]

/-- A chain outside `X` stays as it is. -/
theorem Preserved.chain (h : Preserved v v' X) (hch : Chain g v.fat d l) (hX : ∀ c ∈ l, ¬ X c) :
    Chain g v'.fat d l :=
  hch.congr fun c hc => h.fat c (hch.fat_ne_zero c hc) (hX c hc)

theorem Preserved.chain_data (h : Preserved v v' X) (hch : Chain g v.fat d l)
    (hX : ∀ c ∈ l, ¬ X c) : ∀ c ∈ l, v'.data c = v.data c :=
  fun c hc => h.data c (hch.fat_ne_zero c hc) (hX c hc)

/-- The directories in `D` have the same clusters and slots. -/
def SameDirs (g : Geometry) (v v' : Volume) (D : Nat → Prop) : Prop :=
  ∀ d, D d → clusterChain g v'.fat d = clusterChain g v.fat d ∧
    dirEntries g v' d = dirEntries g v d

theorem SameDirs.refl {D : Nat → Prop} : SameDirs g v v D := fun _ _ => ⟨rfl, rfl⟩

theorem SameDirs.trans {D : Nat → Prop} (h : SameDirs g v v₁ D) (h' : SameDirs g v₁ v' D) :
    SameDirs g v v' D :=
  fun d hd => ⟨(h' d hd).1.trans (h d hd).1, (h' d hd).2.trans (h d hd).2⟩

theorem SameDirs.mono {D D' : Nat → Prop} (h : SameDirs g v v' D) (hD : ∀ d, D' d → D d) :
    SameDirs g v v' D' := fun d hd => h d (hD d hd)

theorem SameDirs.keepsShape {D : Nat → Prop} (h : SameDirs g v v' D) (hd : D d) :
    KeepsShape (dirEntries g v d) (dirEntries g v' d) := by
  rw [(h d hd).2]
  exact KeepsShape.refl

/-- Where the other directories are the same it is enough that `d` keeps its shape. -/
theorem SameDirs.keepsShape_put {D : Nat → Prop} (h : SameDirs g v v' (fun x => D x ∧ x ≠ d))
    (hd : KeepsShape (dirEntries g v d) (dirEntries g v' d)) {x : Nat} (hx : D x) :
    KeepsShape (dirEntries g v x) (dirEntries g v' x) := by
  by_cases hxd : x = d
  · rw [hxd]
    exact hd
  · exact h.keepsShape ⟨hx, hxd⟩

/-- The entries after one slot of the directory `d` has changed. -/
theorem SameDirs.live_put {D : Nat → Prop} {L : Entries} {i : Nat} {o : Option DirectoryEntry}
    (h : SameDirs g v v' (fun x => D x ∧ x ≠ d))
    (hL : ∀ x, D x → ∀ j, liveEntries g v x j = L x j)
    (hslot : ∀ j, liveAt (dirEntries g v' d) j = if j = i then o else liveAt (dirEntries g v d) j)
    (x : Nat) (hx : D x) (j : Nat) : liveEntries g v' x j = L.put d i o x j := by
  by_cases hxd : x = d
  · subst hxd
    rw [liveEntries, hslot]
    by_cases hj : j = i
    · rw [if_pos hj, hj, Entries.put_self]
    · rw [if_neg hj, Entries.put_other fun heq => hj heq.2]
      exact hL x hx j
  · rw [Entries.put_other fun heq => hxd heq.1, ← hL x hx, liveEntries, (h x ⟨hx, hxd⟩).2]
    rfl

theorem Preserved.sameDir (h : Preserved v v' X) (hch : Chain g v.fat d (clusterChain g v.fat d))
    (hX : ∀ c ∈ clusterChain g v.fat d, ¬ X c) :
    clusterChain g v'.fat d = clusterChain g v.fat d ∧ dirEntries g v' d = dirEntries g v d := by
  have hch' := h.chain hch hX
  refine ⟨hch'.clusterChain_eq, ?_⟩
  rw [dirEntries_eq hch', dirEntries_eq hch]
  exact chainEntries_congr (h.chain_data hch hX)

end

/-! ## The account -/

/-- The clusters of the volume are accounted for, and its directories are in order. -/
structure Account (ok : List DirectoryEntry → Prop) (g : Geometry) (v : Volume)
    (L : Entries) (D : Nat → Prop) (own : Owner → List Nat) : Prop where
  mounted : v.mounted = true
  cert : Cert g v.fat L D own
  tidy : ∀ {d}, D d → ok (dirEntries g v d)

/-- The account of a volume between two calls. -/
structure Sound (ok : List DirectoryEntry → Prop) (g : Geometry) (v : Volume)
    (D : Nat → Prop) (own : Owner → List Nat) : Prop extends
    Account ok g v (liveEntries g v) D own where
  settled : own .pending = []

namespace Account

variable {ok : List DirectoryEntry → Prop} {g : Geometry} {v v₁ v' : Volume}
  {L : Entries} {D : Nat → Prop} {own own' : Owner → List Nat} {d c first : Nat} {new : List Nat}
  {X : Nat → Prop}

/-- A step that leaves the directories alone. -/
theorem of_preserved (h : Account ok g v L D own) (hp : Preserved v v' X)
    (hcert : Cert g v'.fat L D own')
    (hX : ∀ d, D d → ∀ c ∈ clusterChain g v.fat d, ¬ X c) :
    Account ok g v' L D own' ∧ SameDirs g v v' D := by
  have hsame : SameDirs g v v' D := fun d hd => hp.sameDir (h.cert.dir_chain hd).1 (hX d hd)
  refine ⟨⟨hp.mounted.trans h.mounted, hcert, fun hd => ?_⟩, hsame⟩
  rw [(hsame _ hd).2]
  exact h.tidy hd

/-- The clusters of a file whose chain is pending belong to no directory. -/
theorem pending_apart (h : Account ok g v L D own)
    (hfile : ∀ d l, own .pending = d :: l → ¬ D d) :
    ∀ d, D d → ∀ c ∈ clusterChain g v.fat d, ¬ c ∈ own .pending := by
  intro d hd c hc hp
  exact h.cert.owner_apart hd (fun t ht => hfile d t ht hd) hp hc

/-- The pending chain of a file is changed, in its links or its content. -/
theorem rewrite (h : Account ok g v L D own) (hr : Rewritten g v v' (own .pending) new first)
    (hfile : ∀ d l, own .pending = d :: l → ¬ D d) :
    Account ok g v' L D (Function.update own .pending new) ∧ SameDirs g v v' D ∧
      ∀ d l, new = d :: l → ¬ D d := by
  have hapart := h.pending_apart hfile
  obtain ⟨hacc, hsame⟩ := h.of_preserved hr.preserved (h.cert.relinkPending hr.links hfile) hapart
  refine ⟨hacc, hsame, ?_⟩
  rintro d l rfl hd
  obtain ⟨hch, hne⟩ := h.cert.dir_chain hd
  have hmem := hch.head_mem hne
  by_cases hp : d ∈ own .pending
  · exact hapart d hd d hmem hp
  · exact hch.fat_ne_zero d hmem (hr.links.fresh d (by simp) hp)

/-- The pending chain of a file is given up without being freed. -/
theorem forget (h : Account ok g v L D own) (hfile : ∀ d l, own .pending = d :: l → ¬ D d) :
    Account ok g v L D (Function.update own .pending []) :=
  ⟨h.mounted, h.cert.forget hfile, h.tidy⟩

/-- Nothing that is in use changes. -/
theorem preserve (h : Account ok g v L D own) (hp : Preserved v v' (fun _ => False)) :
    Account ok g v' L D own ∧ SameDirs g v v' D :=
  h.of_preserved hp (h.cert.keep fun _ c hc => hp.fat c (h.cert.fat_ne_zero hc) id)
    (fun _ _ _ _ h => h)

/-- An entry that is a file gets more clusters. -/
theorem growFile {more : List Nat} {i : Nat} {e : DirectoryEntry} (h : Account ok g v L D own)
    (hpend : own .pending = []) (hd : D d) (he : L d i = some e) (hfile : e.isDirectory = false)
    (hr : Rewritten g v v' (own (.slot d i)) (own (.slot d i) ++ more) first)
    (hch : Chain g v.fat first (own (.slot d i))) (hne : own (.slot d i) ≠ []) :
    Account ok g v' L D (Function.update own (.slot d i) (own (.slot d i) ++ more)) ∧
      SameDirs g v v' D :=
  h.of_preserved hr.preserved (h.cert.grow hr.links hch hne) fun _ hd' _ hc hp =>
    h.cert.owner_apart hd' (fun t ht => h.cert.file_head hpend hd he hfile _ t ht hd') hp hc

/-- The entries of the account may be replaced by others that agree on the directories. -/
theorem congr {L' : Entries} (h : Account ok g v L D own)
    (hL : ∀ d, D d → ∀ i, L' d i = L d i) : Account ok g v L' D own :=
  ⟨h.mounted, h.cert.congr hL, h.tidy⟩

theorem take {i : Nat} {e : DirectoryEntry} (h : Account ok g v L D own)
    (hpend : own .pending = []) (he : L d i = some e) :
    Account ok g v (L.put d i none) D (takeChain own d i) :=
  ⟨h.mounted, h.cert.take hpend he, h.tidy⟩

theorem put {i : Nat} {e : DirectoryEntry} (h : Account ok g v L D own) (hd : D d)
    (hnone : L d i = none) (hok : EntryOk g v.fat e (own .pending))
    (hclosed : e.isDirectory = true → D e.entryFirstCluster)
    (hfile : e.isDirectory = false → ∀ d' l, own .pending = d' :: l → ¬ D d') :
    Account ok g v (L.put d i (some e)) D (giveChain own d i) :=
  ⟨h.mounted, h.cert.put hd hnone hok hclosed hfile, h.tidy⟩

/-- A pending chain becomes that of a directory without entries. -/
theorem addDir {l : List Nat} (h : Account ok g v L D own) (hp : own .pending = d :: l)
    (hnone : ∀ i, L d i = none) (ht : ok (dirEntries g v d)) :
    Account ok g v L (fun d' => D d' ∨ d' = d) own :=
  ⟨h.mounted, h.cert.addDir hp hnone, fun hd => hd.elim h.tidy fun heq => heq ▸ ht⟩

/-- A directory without entries whose chain is pending is given up. -/
theorem removeDir {l : List Nat} (h : Account ok g v L D own) (hp : own .pending = d :: l)
    (hnone : ∀ i, L d i = none) : Account ok g v L (fun d' => D d' ∧ d' ≠ d) own :=
  ⟨h.mounted, h.cert.removeDir hp hnone, fun hd => h.tidy hd.1⟩

/-- The slots of one directory are changed. -/
theorem edit {es' : List DirectoryEntry} (h : Account ok g v L D own) (hd : D d)
    (he : Edited g v v' (clusterChain g v.fat d) es') (ht : ok es') :
    Account ok g v' L D own ∧ clusterChain g v'.fat d = clusterChain g v.fat d ∧
      dirEntries g v' d = es' ∧ SameDirs g v v' (fun d' => D d' ∧ d' ≠ d) := by
  have hes : dirEntries g v' d = es' := by
    rw [dirEntries, he.fat]
    exact he.entries
  have hsame : SameDirs g v v' (fun d' => D d' ∧ d' ≠ d) := fun d' hd' =>
    he.preserved.sameDir (h.cert.dir_chain hd'.1).1
      fun c hc hc' => h.cert.dirs_apart hd hd'.1 (Ne.symm hd'.2) hc' hc
  refine ⟨⟨he.mounted.trans h.mounted, he.fat ▸ h.cert, ?_⟩, by rw [he.fat], hes, hsame⟩
  intro d' hd'
  by_cases hne : d' = d
  · rw [hne, hes]
    exact ht
  · rw [(hsame d' ⟨hd', hne⟩).2]
    exact h.tidy hd'

/-- A directory after room has been made in it: at most one cluster more, of empty slots. -/
structure Room (g : Geometry) (v v' : Volume) (D : Nat → Prop) (own own' : Owner → List Nat)
    (d : Nat) (grown : List Nat) : Prop where
  length_le : grown.length ≤ 1
  own : ∃ o, own o = clusterChain g v.fat d ∧ own' = Function.update own o (own o ++ grown)
  chain : clusterChain g v'.fat d = clusterChain g v.fat d ++ grown
  links : Relinked g v.fat v'.fat (clusterChain g v.fat d) (clusterChain g v.fat d ++ grown) d
  free : ∀ c ∈ grown, c ∈ freeClusters g v.fat
  slots : ∃ zs, dirEntries g v' d = dirEntries g v d ++ zs ∧ ∀ e ∈ zs, e.name0 = 0
  others : SameDirs g v v' (fun d' => D d' ∧ d' ≠ d)
  preserved : Preserved v v' (· ∈ clusterChain g v.fat d)
  fat : grown = [] ∧ v'.fat = v.fat ∨ ∃ c, grown = [c] ∧ ∃ last ∈ clusterChain g v.fat d,
    v'.fat = fun x => if x = last then c else if x = c then endOfChain else v.fat x

/-- Slots for a name are found in a directory. -/
theorem room [DirRules ok] {needed start : Nat} (h : Account ok g v L D own) (hd : D d)
    (hroom : RoomFound g v v' d (clusterChain g v.fat d) needed start)
    (hneed : needed ≤ maxNameEntries) :
    ∃ own' grown, Account ok g v' L D own' ∧ Room g v v' D own own' d grown ∧
      FreeRunAt (dirEntries g v' d) start needed ∧
      (grown = [] ∧ FreeSearch (dirEntries g v d) needed (.inr start) ∨
        FreeSearch (dirEntries g v d) needed (.inl start)) := by
  obtain ⟨o, ho, hch, hne⟩ := h.cert.owner_of_dir hd
  cases hroom with
  | inside same search =>
    subst same
    refine ⟨own, [], h, ?_, freeRunAt_of_inside search, .inl ⟨rfl, search⟩⟩
    refine ⟨by simp, ⟨o, ho, by simp⟩, by simp, ?_, by simp, ⟨[], by simp⟩, SameDirs.refl,
      Preserved.refl, .inl ⟨rfl, rfl⟩⟩
    rw [List.append_nil]
    exact Relinked.refl hch hne
  | extended c v₁ search grown cleared =>
    have hp := grown.preserved cleared
    have hfat : v'.fat = v₁.fat := by rw [cleared, Volume.setData_fat]
    have hr : Relinked g v.fat v'.fat (own o) (own o ++ [c]) d := by
      rw [hfat, ho]
      exact grown.grown.links
    have hch' : Chain g v'.fat d (clusterChain g v.fat d ++ [c]) := by
      rw [hfat]
      exact grown.grown.chain_of_ne_nil (by simp)
    have hfree := mem_freeClusters.mp grown.free
    have hsame : SameDirs g v v' (fun d' => D d' ∧ d' ≠ d) := fun d' hd' =>
      hp.sameDir (h.cert.dir_chain hd'.1).1
        fun c hc hc' => h.cert.dirs_apart hd hd'.1 (Ne.symm hd'.2) hc' hc
    have hdata : ∀ x ∈ clusterChain g v.fat d, v'.data x = v.data x := by
      intro x hx
      have hxc : x ≠ c := fun heq => hch.fat_ne_zero x hx (heq ▸ hfree.2)
      rw [cleared]
      funext o
      simp [Volume.setData, hxc, grown.data]
    have hzero : ∀ e ∈ clusterEntries g v' c, e.name0 = 0 := by
      intro e he
      obtain ⟨i, hi, rfl⟩ := List.mem_map.mp he
      have hi' : 32 * i < g.clusterSize := by
        have := List.mem_range.mp hi
        have := g.entriesPerCluster_mul
        omega
      simp [bufferEntry, DirectoryEntry.name0, cleared, Volume.setData, hi']
    have hes : dirEntries g v' d = dirEntries g v d ++ clusterEntries g v' c := by
      rw [dirEntries_eq hch', chainEntries_append, chainEntries_congr hdata, ← dirEntries_eq hch]
      simp
    have htidy := DirRules.append (h.tidy hd) hzero
    refine ⟨Function.update own o (own o ++ [c]), [c], ⟨hp.mounted.trans h.mounted,
      h.cert.grow hr (ho ▸ hch) (ho ▸ hne), ?_⟩, ?_, ?_, .inr (dirEntries_eq hch ▸ search)⟩
    · intro d' hd'
      by_cases hdd : d' = d
      · rw [hdd, hes]
        exact htidy
      · rw [(hsame d' ⟨hd', hdd⟩).2]
        exact h.tidy hd'
    · refine ⟨by simp, ⟨o, ho, rfl⟩, hch'.clusterChain_eq, ho ▸ hr, by simpa using grown.free,
        ⟨_, hes, hzero⟩, hsame, hp, .inr ⟨c, rfl, ?_⟩⟩
      rw [hfat]
      exact grown.fat
    · rw [hes]
      rw [← dirEntries_eq hch] at search
      refine freeRunAt_of_extended search (fun e he => .inl (hzero e he)) ?_
      have := g.entriesPerCluster_ge
      rw [clusterEntries_length]
      simp only [maxNameEntries] at hneed
      omega

/-- Making room changes no entry. -/
theorem Room.items {grown : List Nat} (h : Room g v v' D own own' d grown) :
    itemsOf (dirEntries g v' d) = itemsOf (dirEntries g v d) := by
  obtain ⟨zs, hzs, hz⟩ := h.slots
  rw [hzs]
  exact itemsOf_append_zeros hz

end Account

end FunnyOS.Fat32
