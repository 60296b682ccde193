import FunnyOS.Fat32.Frame
import FunnyOS.Fat32.Integrity

/-!
# Removing files and directories

A successful call of `fat32_remove` takes one entry with its long-name slots out of its directory
and sets its clusters free. Paths that do not lead through the entry answer as before, those that
do lead nowhere.
-/

namespace FunnyOS.Fat32

open Prog

/-- The entry `e` with the path `cs ++ [name]` has been removed. -/
structure PathRemoved (env : Env) (s s' : State) (cs : List CStr) (name : CStr)
    (e : DirectoryEntry) : Prop where
  found : resolve env.geometry (s.volume env.geometry) (cs ++ [name]) = .ok (some e)
  gone : (fat32Stat env (joinPath (cs ++ [name])) s').result = some (.error .notFound)
  listed : ∃ a b info,
    (fat32ListDir env (joinPath cs) collect [] s).result = some (.ok (a ++ info :: b)) ∧
    (fat32ListDir env (joinPath cs) collect [] s').result = some (.ok (a ++ b)) ∧
    nameEqualsIgnoreCase info.name name = true ∧ info.isDir = e.isDirectory ∧ info.size = e.size
  slots : ∀ parent, resolve env.geometry (s.volume env.geometry) cs = .ok parent →
    ∃ p r q,
      dirEntries env.geometry (s.volume env.geometry) (dirCluster env.geometry parent)
        = p ++ (r ++ [e]) ++ q ∧
      dirEntries env.geometry (s'.volume env.geometry) (dirCluster env.geometry parent)
        = p ++ (r ++ [e]).map .setDeleted ++ q ∧
      (∀ x ∈ r, x.attributes = attrLfn) ∧
      (Decodable (p ++ (r ++ [e]) ++ q) → ∀ x, p.getLast? = some x → x.kind ≠ .longName)
  others : ∀ other cs', Canonical other cs' → ¬ (cs ++ [name]) <+: cs' →
    (fat32Stat env other s').result = (fat32Stat env other s).result ∧
    (∀ {κ : Type} (callback : κ → List UInt8 → κ × Bool) (context : κ),
      (fat32ReadFile env other callback context s').result
        = (fat32ReadFile env other callback context s).result) ∧
    (cs' ≠ cs → ∀ {κ : Type} (callback : κ → Fat32NodeInfo → κ × Bool) (context : κ),
      (fat32ListDir env other callback context s').result
        = (fat32ListDir env other callback context s).result)
  below : ∀ other c rest, Canonical other (cs ++ [name] ++ c :: rest) → ∃ code code',
    (fat32Stat env other s).result = some (.error code) ∧
    (fat32Stat env other s').result = some (.error code')
  links : s'.fat = clearLinks s.fat (clusterChain env.geometry s.fat e.entryFirstCluster)
  empty : e.isDirectory = true →
    (fat32ListDir env (joinPath (cs ++ [name])) collect [] s).result = some (.ok [])

/-! ## Slots -/

/-- Slots that may be followed by anything do not end with a long-name slot. -/
theorem ClosedBlock.last_ne_longName {p : List DirectoryEntry} {x : DirectoryEntry}
    (h : ClosedBlock SlotStrict p) (hx : p.getLast? = some x) : x.kind ≠ .longName := by
  intro hk
  obtain ⟨p, rfl⟩ := List.getLast?_eq_some_iff.mp hx
  obtain ⟨hp, hlast, -⟩ := checked_append.mp h.tidy
  have hfollows := (hp.simulate setStep SetOk (fun st next => FollowsExactly next st)
    (fun _ _ _ hR hok => setOk_of_slotStrict hR hok)
    (show FollowsExactly none .initial from LfnState.dead_initial)).2
  have hend := (setOk_of_slotStrict hfollows hlast).2
  have hdead := h.dead
  rw [List.foldl_append, List.foldl_cons, List.foldl_nil] at hdead
  rw [setStep, hk] at hend
  exact hend.1 hdead

/-- What `deleteSpan` does to the slots of an entry. -/
theorem deleteSpan_block {es : List DirectoryEntry} {it : Item} (h : Orderly es)
    (hit : it ∈ itemsOf es) :
    ∃ p r q, es = p ++ (r ++ [it.entry]) ++ q ∧
      deleteSpan es (it.index - it.lfnCount es) (it.lfnCount es + 1)
        = p ++ (r ++ [it.entry]).map .setDeleted ++ q ∧
      (∀ x ∈ r, x.attributes = attrLfn) ∧
      (Decodable es → ∀ x, p.getLast? = some x → x.kind ≠ .longName) := by
  by_cases hdec : Decodable es
  · obtain ⟨p, r, q, hb⟩ := itemBlock_of_mem (tidy_slotStrict.mpr ⟨h, hdec⟩) hit
    exact ⟨p, r, q, hb.eq, hb.deleteSpan_eq, hb.attributes,
      fun _ x hx => hb.before.last_ne_longName hx⟩
  · obtain ⟨p, r, q, hb⟩ := itemBlock_of_mem h.tidy hit
    exact ⟨p, r, q, hb.eq, hb.deleteSpan_eq, hb.attributes, fun hdec' => absurd hdec' hdec⟩

/-! ## What stays -/

section

variable {ok : List DirectoryEntry → Prop} [TidyRules ok] {g : Geometry} {v v' : Volume}
  {D : Nat → Prop} {own : Owner → List Nat} {cs a b : List CStr} {path name n : CStr}
  {r r' : Option DirectoryEntry} {it : Item} {e : DirectoryEntry}

omit [TidyRules ok] in
/-- A directory whose path does not lead through the entry is kept. -/
theorem Sound.without_of_resolve (hs : Sound ok g v D own)
    (hself : resolve g v b = .ok (some e)) (ha : ∀ c ∈ a, c.map kToupper = c)
    (hb : ∀ c ∈ b, c.map kToupper = c) (hnot : a ≠ b) (hr : resolve g v a = .ok r)
    (hd : isDir r = true) : without D e (dirCluster g r) := by
  refine ⟨hs.dir_of_resolve hr hd, ?_⟩
  intro hrem
  exact hnot (hs.resolve_unique ha hb hr hself hd hrem.1 hrem.2)

/-- Paths that do not lead through the entry resolve as before. -/
theorem Removed.resolve_eq (h : Removed ok g v v' D own (dirCluster g r) it)
    (hs : Sound ok g v D own) (hself : resolve g v (cs ++ [name]) = .ok (some it.entry))
    (hr : resolve g v cs = .ok r) (hd : isDir r = true)
    (hnamed : nameEqualsIgnoreCase it.name name = true)
    (hup : ∀ c ∈ cs ++ [name], c.map kToupper = c) (ha : ∀ c ∈ a, c.map kToupper = c)
    (hnot : ¬ (cs ++ [name]) <+: a) : resolve g v' a = resolve g v a := by
  have hcs : ∀ c ∈ cs, c.map kToupper = c := fun c hc => hup c (by simp [hc])
  have hname : name.map kToupper = name := hup name (by simp)
  refine resolve_congr ?_
  intro pre m rest r' hsplit hr' hd'
  have hpre : ∀ c ∈ pre, c.map kToupper = c := fun c hc => ha c (by simp [hsplit, hc])
  by_cases heq : dirCluster g r' = dirCluster g r
  · have hm : m ≠ name := by
      intro hm
      exact hs.not_through hr hd hcs ha hnot hsplit hr' hd' ⟨heq, hm⟩
    rw [heq, lookup_removed (h.removed hs)
      (nameEquals_other hnamed hname (ha m (by simp [hsplit])) hm)]
  · have hkeep := hs.without_of_resolve hself hpre hup (fun hpath => hnot
      ⟨m :: rest, by rw [hsplit, hpath]⟩) hr' hd'
    rw [(h.others _ ⟨hkeep, heq⟩).2]

/-- Files that are not removed keep their content. -/
theorem Removed.contents_eq (h : Removed ok g v v' D own (dirCluster g r) it)
    (hs : Sound ok g v D own) (hself : resolve g v (cs ++ [name]) = .ok (some it.entry))
    (hr : resolve g v cs = .ok r) (hd : isDir r = true)
    (hnamed : nameEqualsIgnoreCase it.name name = true)
    (hup : ∀ c ∈ cs ++ [name], c.map kToupper = c) (hp : Canonical path a)
    (hnot : ¬ (cs ++ [name]) <+: a) : contents g v' path = contents g v path := by
  have ha : ∀ c ∈ a, c.map kToupper = c := fun c hc => (hp.components c hc).upper
  have hname : name.map kToupper = name := hup name (by simp)
  rw [contents, contents, hp.splitComponents_eq,
    h.resolve_eq hs hself hr hd hnamed hup ha hnot]
  rcases hres : resolve g v a with code | _ | e
  · rfl
  · rfl
  · by_cases hdir : e.isDirectory = true
    · simp only [hdir, if_true]
    · simp only [hdir]
      rcases List.eq_nil_or_concat a with rfl | ⟨a, m, rfl⟩
      · cases hres
      rw [List.concat_eq_append] at hres hnot ha
      obtain ⟨r', it', hra, hda, -, hfound, heq⟩ := resolve_snoc_ok hres
      obtain rfl := Option.some.inj heq
      have hx := hs.dir_of_resolve hra hda
      obtain ⟨hit', hn'⟩ := lookup_mem hfound
      refine h.preserved.fileContent (hs.entryOk hx hit').chain ?_
      intro c hc hX
      rcases hX with hmem | hmem
      · -- the entry that is removed has another path
        refine hs.entries_apart ?_ hc hmem
        rintro ⟨hdd, hidx⟩
        have hpath := hs.resolve_unique (fun c hc => ha c (by simp [hc]))
          (fun c hc => hup c (by simp [hc])) hra hr hda hd hdd
        rw [hdd] at hit'
        obtain rfl := item_eq_of_index hit' h.mem hidx
        have hm := eq_of_nameEquals hn' hnamed (ha m (by simp)) hname
        exact hnot (by rw [hpath, hm])
      · exact hs.file_apart hx hit' (Bool.eq_false_iff.mpr hdir) (hs.dir_of_resolve hr hd) hc hmem

/-- Other directories are listed as before. -/
theorem Removed.listing_eq (h : Removed ok g v v' D own (dirCluster g r) it)
    (hs : Sound ok g v D own) (hself : resolve g v (cs ++ [name]) = .ok (some it.entry))
    (hr : resolve g v cs = .ok r) (hd : isDir r = true)
    (hnamed : nameEqualsIgnoreCase it.name name = true)
    (hup : ∀ c ∈ cs ++ [name], c.map kToupper = c) (hp : Canonical path a)
    (hnot : ¬ (cs ++ [name]) <+: a) (hne : a ≠ cs) : listing g v' path = listing g v path := by
  have ha : ∀ c ∈ a, c.map kToupper = c := fun c hc => (hp.components c hc).upper
  rw [listing, listing, hp.splitComponents_eq,
    h.resolve_eq hs hself hr hd hnamed hup ha hnot]
  rcases hres : resolve g v a with code | r'
  · rfl
  · by_cases hd' : isDir r' = true
    · have hkeep := hs.without_of_resolve hself ha hup
        (fun hpath => hnot (by rw [hpath])) hres hd'
      have hother : dirCluster g r' ≠ dirCluster g r := by
        intro heq
        exact hne (hs.resolve_unique ha (fun c hc => hup c (by simp [hc])) hres hr hd' hd heq)
      simp only [hd', if_true]
      rw [(h.others _ ⟨hkeep, hother⟩).2]
    · simp only [hd']
      rfl

omit [TidyRules ok] in
/-- No path leads through the entry: a file has nothing below it, and a directory that is removed is
empty. -/
theorem Removed.below (h : Removed ok g v v' D own (dirCluster g r) it) {c : CStr}
    {rest : List CStr} (hself : resolve g v (cs ++ [name]) = .ok (some it.entry)) (x) :
    resolve g v (cs ++ [name] ++ c :: rest) ≠ .ok x := by
  intro hx
  obtain ⟨r', hr', hd'⟩ := resolve_left hx
  rw [hself] at hr'
  cases hr'
  obtain ⟨y, hy⟩ : ∃ y, resolve g v (cs ++ [name] ++ [c]) = .ok y := by
    cases rest with
    | nil => exact ⟨x, hx⟩
    | cons c' rest =>
      rw [List.append_cons] at hx
      obtain ⟨y, hy, -⟩ := resolve_left hx
      exact ⟨y, hy⟩
  obtain ⟨r', it', hr', -, -, hfound, -⟩ := resolve_snoc_ok hy
  rw [hself] at hr'
  cases hr'
  have hit := (lookup_mem hfound).1
  rw [dirCluster, h.empty hd'] at hit
  cases hit

end

/-! ## The operation -/

section

variable {env : Env} {s s' : State} {path : CStr} {cs : List CStr}

/-- A path that resolves nowhere is not found by `fat32_stat`. -/
theorem fat32Stat_error {ok : List DirectoryEntry → Prop} [DirRules ok] {D : Nat → Prop}
    {own : Owner → List Nat} (hfuel : env.geometry.totalClusters < env.fuel)
    (hrel : ¬ env.Faulty) (hs : Sound ok env.geometry (s.volume env.geometry) D own)
    (hpath : Canonical path cs)
    (hno : ∀ x, resolve env.geometry (s.volume env.geometry) cs ≠ .ok x) :
    ∃ code, (fat32Stat env path s).result = some (.error code) := by
  rw [fat32Stat_result hfuel hrel hs, statAt, hpath.splitComponents_eq]
  rcases hr : resolve env.geometry (s.volume env.geometry) cs with code | x
  · exact ⟨code, rfl⟩
  · exact absurd hr (hno x)

/-- A successful call of `fat32_remove` on a canonical path removes what the path led to, and
nothing else. -/
theorem pathRemoved_of_remove (hfuel : env.geometry.totalClusters < env.fuel)
    (hrel : ¬ env.Faulty) (hwf : WellFormed env.geometry (s.volume env.geometry))
    (hnames : ∀ d, Reachable env.geometry (s.volume env.geometry) d →
      UniqueNames (dirEntries env.geometry (s.volume env.geometry) d))
    (hpath : Canonical path cs) (hcall : fat32Remove env path s = .ok () s') :
    ∃ parent name e, cs = parent ++ [name] ∧ PathRemoved env s s' parent name e := by
  have hs := hwf.sound
  obtain ⟨parent, r, parentDir, name, parentPath, it, hp, hfound, hr⟩ :=
    (fat32Remove_sat hfuel hrel rfl hs).of_ok hcall
  obtain rfl : cs = parent ++ [name] := hpath.splitComponents_eq.symm.trans hp.split
  obtain ⟨hit, hnamed⟩ := lookup_mem hfound
  have hup : ∀ c ∈ parent ++ [name], c.map kToupper = c := fun c hc => (hpath.components c hc).upper
  have hcs : ∀ c ∈ parent, CanonicalComponent c := fun c hc => hpath.components c (by simp [hc])
  have hself : resolve env.geometry (s.volume env.geometry) (parent ++ [name])
      = .ok (some it.entry) := by
    simp only [resolve_snoc, hp.resolved, hp.dir, hp.valid, hfound]
    rfl
  have hD := hs.dir_of_resolve hp.resolved hp.dir
  have hsame : ∀ a : List CStr, (∀ c ∈ a, c.map kToupper = c) → ¬ (parent ++ [name]) <+: a →
      resolve env.geometry (s'.volume env.geometry) a
        = resolve env.geometry (s.volume env.geometry) a := fun a ha hnot =>
    hr.resolve_eq hs hself hp.resolved hp.dir hnamed hup ha hnot
  have hparent : resolve env.geometry (s'.volume env.geometry) parent = .ok r := by
    rw [hsame parent (fun c hc => hup c (by simp [hc]))
      (fun hpre => by simpa using hpre.length_le), hp.resolved]
  have hgone : resolve env.geometry (s'.volume env.geometry) (parent ++ [name])
      = .error .notFound := by
    simp only [resolve_snoc, hparent, hp.dir, hp.valid,
      lookup_removed_self (hr.removed hs) (hnames _ hD) hnamed]
    rfl
  refine ⟨parent, name, it.entry, rfl, hself, ?_, ?_, ?_, ?_, ?_, ?_, ?_⟩
  · rw [fat32Stat_result hfuel hrel hr.sound, statAt, joinPath_components hpath.components, hgone]
  · obtain ⟨a, b, hab, hab'⟩ := hr.removed hs
    refine ⟨a.map Item.info, b.map Item.info, it.info, ?_, ?_, hnamed, rfl, rfl⟩
    · rw [fat32ListDir_result hfuel hrel hs, listing, joinPath_components hcs, hp.resolved]
      simp only [hp.dir, if_true, listAnswer, report_collect, hab, List.map_append, List.map_cons,
        List.nil_append]
    · rw [fat32ListDir_result hfuel hrel hr.sound, listing, joinPath_components hcs, hparent]
      simp only [hp.dir, if_true, listAnswer, report_collect, hab', List.map_append,
        List.nil_append]
  · intro r' hr'
    rw [hp.resolved] at hr'
    cases hr'
    obtain ⟨p, q, t, heq, hspan, hattr, hlast⟩ := deleteSpan_block (hwf.slots hD) hit
    refine ⟨p, q, t, heq, hr.slots.trans hspan, hattr, ?_⟩
    rw [← heq]
    exact hlast
  · intro other cs' hother hnot
    have hup' : ∀ c ∈ cs', c.map kToupper = c := fun c hc => (hother.components c hc).upper
    refine ⟨?_, ?_, ?_⟩
    · rw [fat32Stat_result hfuel hrel hr.sound, fat32Stat_result hfuel hrel hs, statAt, statAt,
        hother.splitComponents_eq, hsame cs' hup' hnot]
    · intro κ callback context
      rw [fat32ReadFile_result hfuel hrel hr.sound, fat32ReadFile_result hfuel hrel hs,
        hr.contents_eq hs hself hp.resolved hp.dir hnamed hup hother hnot]
    · intro hne κ callback context
      rw [fat32ListDir_result hfuel hrel hr.sound, fat32ListDir_result hfuel hrel hs,
        hr.listing_eq hs hself hp.resolved hp.dir hnamed hup hother hnot hne]
  · intro other c rest hother
    obtain ⟨code, hcode⟩ := fat32Stat_error hfuel hrel hs hother (hr.below hself)
    obtain ⟨code', hcode'⟩ := fat32Stat_error hfuel hrel hr.sound hother (fun x hx => by
      obtain ⟨r', hr', -⟩ := resolve_left hx
      rw [hgone] at hr'
      cases hr')
    exact ⟨code, code', hcode, hcode'⟩
  · have hfat := hr.fat
    rw [hs.chain_eq hD (liveEntries_item hit)] at hfat
    exact hfat
  · intro hdir
    have hd : isDir (some it.entry) = true := hdir
    rw [fat32ListDir_result hfuel hrel hs, listing, joinPath_components hpath.components, hself]
    simp only [hd, if_true, dirCluster, hr.empty hdir, listAnswer, List.map_nil]
    rfl

theorem pathRemoved_of_remove_full :
    ∃ parent name e, [[0x41]] = parent ++ [name] ∧ PathRemoved smallEnv almostFullState
      (afterCall (.remove [slash, 0x41]) almostFullState) parent name e :=
  pathRemoved_of_remove (by decide) smallEnv_reliable
    (sound_of_check almostFullState_check).2
    (namesOk_of_check almostFullState_check (by decide +kernel)).unique
    (canonical_letter (by decide) (by decide) (by decide))
    (Prog.eq_ok_of_isOk (o := (Operation.remove [slash, 0x41]).call smallEnv almostFullState)
      (by decide +kernel))

/-- Of an entry whose long name the driver cannot decode only the short slot is deleted. -/
theorem remove_keeps_longName :
    WellFormed smallGeometry (strangeNameState.volume smallGeometry) ∧
    (∀ d, Reachable smallGeometry (strangeNameState.volume smallGeometry) d →
      UniqueNames (dirEntries smallGeometry (strangeNameState.volume smallGeometry) d)) ∧
    Canonical [slash, 0x41] [[0x41]] ∧
    fat32Remove smallEnv [slash, 0x41] strangeNameState
      = .ok () (afterCall (.remove [slash, 0x41]) strangeNameState) ∧
    ∃ lfn entry : DirectoryEntry, lfn.kind = .longName ∧ entry.kind = .live ∧
      lfn.lfnChecksum = shortNameChecksum entry.name ∧
      (dirEntries smallGeometry (strangeNameState.volume smallGeometry) 2).take 2
        = [lfn, entry] ∧
      (dirEntries smallGeometry ((afterCall (.remove [slash, 0x41])
        strangeNameState).volume smallGeometry) 2).take 2 = [lfn, entry.setDeleted] := by
  have hcheck : checkVolume smallGeometry (strangeNameState.volume smallGeometry) [2] = true := by
    decide +kernel
  have hnames := namesOk_of_check hcheck (by decide +kernel)
  refine ⟨(sound_of_check hcheck).2, hnames.unique,
    canonical_letter (by decide) (by decide) (by decide),
    Prog.eq_ok_of_isOk (o := (Operation.remove [slash, 0x41]).call smallEnv strangeNameState)
      (by decide +kernel),
    (dirEntries smallGeometry (strangeNameState.volume smallGeometry) 2).getD 0 .zero,
    (dirEntries smallGeometry (strangeNameState.volume smallGeometry) 2).getD 1 .zero, ?_⟩
  decide +kernel

end

end FunnyOS.Fat32
