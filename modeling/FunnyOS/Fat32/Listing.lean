import FunnyOS.Fat32.Failure

/-!
# What is listed is what a path finds

`ListedIn`: `fat32_list_dir` of a directory reports an entry under a name. Where the names in each
directory are valid and differ, walking along the listings from the root is what `resolve_path`
does, with the same errors.
-/

namespace FunnyOS.Fat32

open Prog

/-! ## Listings -/

/-- The callback that records everything that is reported. -/
def collect (infos : List Fat32NodeInfo) (info : Fat32NodeInfo) : List Fat32NodeInfo × Bool :=
  (infos ++ [info], true)

/-- `fat32_list_dir` of the directory with the components `cs` reports `info` under the name
`c`. -/
def ListedIn (env : Env) (s : State) (cs : List CStr) (c : CStr) (info : Fat32NodeInfo) : Prop :=
  ∃ infos, (fat32ListDir env (joinPath cs) collect [] s).result = some (.ok infos) ∧
    info ∈ infos ∧ nameEqualsIgnoreCase info.name c = true

/-- Every component is listed in the directory that the components before it lead to, and all
but the last as directories. -/
def Shown (env : Env) (s : State) (cs : List CStr) : Prop :=
  ∀ a c b, cs = a ++ c :: b → ∃ info, ListedIn env s a c info ∧ (b ≠ [] → info.isDir = true)

/-- The names in a directory differ, also ignoring case. -/
def UniqueNames (es : List DirectoryEntry) : Prop :=
  (itemsOf es).Pairwise fun a b => nameEqualsIgnoreCase a.name b.name = false

/-- The names in a directory are names that the driver accepts. -/
def ValidNames (es : List DirectoryEntry) : Prop :=
  ∀ it ∈ itemsOf es, validateLongName it.name = true

section

variable {g : Geometry} {v : Volume} {env : Env} {s : State} {a b cs : List CStr} {c : CStr}
  {es : List DirectoryEntry} {it : Item} {r : Option DirectoryEntry} {info : Fat32NodeInfo}
  {e : Fat32Result}

theorem report_collect (infos new : List Fat32NodeInfo) :
    report collect infos new = infos ++ new := by
  induction new generalizing infos with
  | nil => simp [report]
  | cons info rest ih => simp [report, collect, ih]

/-! ## Names -/

theorem nameEqualsIgnoreCase_comm {x y : CStr} :
    nameEqualsIgnoreCase x y = nameEqualsIgnoreCase y x := by
  simp only [nameEqualsIgnoreCase, Bool.beq_comm]

theorem nameEqualsIgnoreCase_trans {x y z : CStr} (h : nameEqualsIgnoreCase x y = true)
    (h' : nameEqualsIgnoreCase y z = true) : nameEqualsIgnoreCase x z = true := by
  simp only [nameEqualsIgnoreCase, beq_iff_eq] at h h' ⊢
  exact h.trans h'

/-- Where the names differ, the lookup finds what is there. -/
theorem UniqueNames.lookup_eq (h : UniqueNames es) (hit : it ∈ itemsOf es)
    (hname : nameEqualsIgnoreCase it.name c = true) : lookup es c = some it := by
  unfold UniqueNames at h
  unfold lookup
  generalize itemsOf es = items at h hit
  induction items with
  | nil => simp at hit
  | cons it' rest ih =>
      obtain ⟨hhead, hrest⟩ := List.pairwise_cons.1 h
      rcases List.mem_cons.1 hit with rfl | hit
      · rw [List.find?_cons, hname]
      · have hne : nameEqualsIgnoreCase it'.name c = false := by
          rw [← Bool.not_eq_true]
          intro heq
          have hsame := nameEqualsIgnoreCase_trans heq (nameEqualsIgnoreCase_comm ▸ hname)
          rw [hhead it hit] at hsame
          cases hsame
        rw [List.find?_cons, hne]
        exact ih hrest hit

theorem toupper_eq_dot : ∀ x, kToupper x = 0x2E ↔ x = 0x2E := forall_byte (by decide +kernel)

theorem toupper_eq_blank : ∀ x, kToupper x = 0x20 ↔ x = 0x20 := forall_byte (by decide +kernel)

theorem isInvalidLfnCharacter_toupper : ∀ x,
    isInvalidLfnCharacter (kToupper x) = isInvalidLfnCharacter x :=
  forall_byte (by decide +kernel)

theorem map_toupper_eq_dots (dots : CStr) (h : ∀ x ∈ dots, x = 0x2E) :
    c.map kToupper = dots ↔ c = dots := by
  induction c generalizing dots with
  | nil => simp
  | cons x c ih =>
      cases dots with
      | nil => simp
      | cons y dots =>
          have hy : y = 0x2E := h y (by simp)
          rw [List.map_cons, List.cons.injEq, List.cons.injEq, ih dots fun z hz => h z (by simp [hz]),
            hy, toupper_eq_dot]

/-- Whether a name is accepted does not depend on the case of its letters. -/
theorem validateLongName_toupper : validateLongName (c.map kToupper) = validateLongName c := by
  have hlast : ∀ y : UInt8, (∀ x, kToupper x = y ↔ x = y) →
      ((c.map kToupper).getLast? = some y ↔ c.getLast? = some y) := by
    intro y hy
    rw [List.getLast?_map, Option.map_eq_some_iff]
    simp [hy]
  rw [Bool.eq_iff_iff]
  simp only [validateLongName, Bool.and_eq_true, bne_iff_ne, ne_eq, List.map_eq_nil_iff,
    map_toupper_eq_dots [0x2E] (by simp),
    map_toupper_eq_dots [0x2E, 0x2E] (by simp), List.length_map, List.all_map,
    Function.comp_def, isInvalidLfnCharacter_toupper, hlast 0x20 toupper_eq_blank,
    hlast 0x2E toupper_eq_dot]

theorem validateLongName_of_nameEquals {x : CStr} (h : nameEqualsIgnoreCase x c = true)
    (hx : validateLongName x = true) : validateLongName c = true := by
  rw [← validateLongName_toupper, ← beq_iff_eq.1 h, validateLongName_toupper]
  exact hx

/-! ## Resolving -/

/-- A path that resolves, and leads on, leads through a directory. -/
theorem resolve_left (h : resolve g v (a ++ c :: b) = .ok r) :
    ∃ r', resolve g v a = .ok r' ∧ isDir r' = true := by
  have happ := resolveFrom_append (a := a) (b := c :: b) (g := g) (v := v) isDir_none (by simp)
  rw [← resolve, h, ← resolve] at happ
  rcases ha : resolve g v a with e | r'
  · rw [ha] at happ
    cases happ
  · rw [ha] at happ
    by_cases hd : isDir r' = true
    · exact ⟨r', rfl, hd⟩
    · simp [hd] at happ

/-- Where a path that does not resolve ends. -/
inductive Stuck (g : Geometry) (v : Volume) (r : Option DirectoryEntry) (c : CStr)
    (b : List CStr) : Fat32Result → Prop
  | invalid (h : validateLongName c = false) : Stuck g v r c b .invalidName
  | missing (hc : validateLongName c = true)
      (h : lookup (dirEntries g v (dirCluster g r)) c = none) : Stuck g v r c b .notFound
  | file (it : Item) (hc : validateLongName c = true)
      (h : lookup (dirEntries g v (dirCluster g r)) c = some it) (hb : b ≠ [])
      (hfile : it.entry.isDirectory = false) : Stuck g v r c b .notADirectory

theorem resolveFrom_stuck (hr : isDir r = true) (h : resolveFrom g v r cs = .error e) :
    ∃ a c b r', cs = a ++ c :: b ∧ resolveFrom g v r a = .ok r' ∧ isDir r' = true ∧
      Stuck g v r' c b e := by
  induction cs generalizing r with
  | nil => cases h
  | cons c rest ih =>
      rw [resolveFrom] at h
      split at h
      · next hc =>
          cases h
          exact ⟨[], c, rest, r, rfl, rfl, hr, .invalid hc⟩
      · next hc =>
          rw [Bool.not_eq_false] at hc
          rw [if_neg (by simp [hr])] at h
          rcases hlook : lookup (dirEntries g v (dirCluster g r)) c with _ | it
          · rw [hlook] at h
            cases h
            exact ⟨[], c, rest, r, rfl, rfl, hr, .missing hc hlook⟩
          · rw [hlook] at h
            simp only at h
            split at h
            · next hfile =>
                cases h
                exact ⟨[], c, rest, r, rfl, rfl, hr, .file it hc hlook hfile.1 hfile.2⟩
            · next hgo =>
                have hdir : rest ≠ [] → isDir (some it.entry) = true := by
                  intro hne
                  by_contra hd
                  exact hgo ⟨hne, by simpa [isDir] using hd⟩
                have hne : rest ≠ [] := by
                  rintro rfl
                  cases h
                obtain ⟨a, c', b, r', rfl, hres, hd', hstuck⟩ := ih (hdir hne) h
                refine ⟨c :: a, c', b, r', rfl, ?_, hd', hstuck⟩
                rw [resolveFrom, if_neg (by simp [hc]), if_neg (by simp [hr]), hlook]
                simp only [if_neg (show ¬(a ≠ [] ∧ it.entry.isDirectory = false) from
                  fun hfile => hgo ⟨hne, hfile.2⟩)]
                exact hres

end

/-! ## Both walks -/

section

variable {env : Env} {s : State} {a b cs : List CStr} {c path : CStr} {info : Fat32NodeInfo}

/-- The names of a volume are accepted by the driver and differ in each directory. -/
structure NamesOk (g : Geometry) (v : Volume) : Prop where
  unique : ∀ d, Reachable g v d → UniqueNames (dirEntries g v d)
  valid : ∀ d, Reachable g v d → ValidNames (dirEntries g v d)

theorem joinPath_components (h : ∀ c ∈ cs, CanonicalComponent c) :
    splitComponents (joinPath cs) = cs :=
  Canonical.splitComponents_eq ⟨rfl, h⟩

/-- What a directory lists is what is looked up in it. -/
theorem listedIn_iff (hfuel : env.geometry.totalClusters < env.fuel) (hrel : ¬ env.Faulty)
    (hwf : WellFormed env.geometry (s.volume env.geometry))
    (hnames : NamesOk env.geometry (s.volume env.geometry))
    (ha : ∀ c ∈ a, CanonicalComponent c) :
    ListedIn env s a c info ↔ ∃ r it, resolve env.geometry (s.volume env.geometry) a = .ok r ∧
      isDir r = true ∧ validateLongName c = true ∧
      lookup (dirEntries env.geometry (s.volume env.geometry) (dirCluster env.geometry r)) c
        = some it ∧ info = it.info := by
  have hlist : (fat32ListDir env (joinPath a) collect [] s).result =
      some (listAnswer collect [] (listing env.geometry (s.volume env.geometry) (joinPath a))) :=
    fat32ListDir_result hfuel hrel hwf.sound
  unfold ListedIn
  rw [hlist, listing, joinPath_components ha]
  rcases hr : resolve env.geometry (s.volume env.geometry) a with e | r
  · simp [listAnswer]
  · by_cases hd : isDir r = true
    · have hD := hwf.sound.dir_of_resolve hr hd
      simp only [hd, if_true, listAnswer, report_collect, List.nil_append, Option.some.injEq,
        Except.ok.injEq]
      constructor
      · rintro ⟨_, rfl, hmem, hname⟩
        obtain ⟨it, hit, rfl⟩ := List.mem_map.1 hmem
        exact ⟨r, it, rfl, hd, validateLongName_of_nameEquals hname (hnames.valid _ hD it hit),
          (hnames.unique _ hD).lookup_eq hit hname, rfl⟩
      · rintro ⟨_, it, rfl, -, -, hlook, rfl⟩
        obtain ⟨hit, hname⟩ := lookup_mem hlook
        exact ⟨_, rfl, List.mem_map_of_mem hit, hname⟩
    · simp only [hd, listAnswer]
      constructor
      · rintro ⟨_, h, -⟩
        cases h
      · rintro ⟨_, _, h, hd', -⟩
        cases h
        exact absurd hd' hd

theorem listedIn_resolve (hfuel : env.geometry.totalClusters < env.fuel) (hrel : ¬ env.Faulty)
    (hwf : WellFormed env.geometry (s.volume env.geometry))
    (hnames : NamesOk env.geometry (s.volume env.geometry))
    (ha : ∀ c ∈ a, CanonicalComponent c) :
    ListedIn env s a c info ↔ ∃ it : Item,
      resolve env.geometry (s.volume env.geometry) (a ++ [c]) = .ok (some it.entry) ∧
      (∃ r, resolve env.geometry (s.volume env.geometry) a = .ok r ∧
        lookup (dirEntries env.geometry (s.volume env.geometry) (dirCluster env.geometry r)) c
          = some it) ∧ info = it.info := by
  rw [listedIn_iff hfuel hrel hwf hnames ha]
  constructor
  · rintro ⟨r, it, hr, hd, hc, hlook, hinfo⟩
    refine ⟨it, ?_, ⟨r, hr, hlook⟩, hinfo⟩
    rw [resolve_snoc, hr]
    simp [hd, hc, hlook]
  · rintro ⟨it, hres, ⟨r, hr, hlook⟩, hinfo⟩
    obtain ⟨r', it', hr', hd, hc, -, -⟩ := resolve_snoc_ok hres
    rw [hr] at hr'
    cases hr'
    exact ⟨r, it, hr, hd, hc, hlook, hinfo⟩

/-- A path resolves exactly when the listings show it. -/
theorem resolve_iff_shown (hfuel : env.geometry.totalClusters < env.fuel) (hrel : ¬ env.Faulty)
    (hwf : WellFormed env.geometry (s.volume env.geometry))
    (hnames : NamesOk env.geometry (s.volume env.geometry))
    (hcs : ∀ c ∈ cs, CanonicalComponent c) :
    (∃ r, resolve env.geometry (s.volume env.geometry) cs = .ok r) ↔ Shown env s cs := by
  constructor
  · rintro ⟨r, hr⟩ a c b rfl
    obtain ⟨r', hr', hd'⟩ := resolve_left hr
    have hpart : ∃ r'', resolve env.geometry (s.volume env.geometry) (a ++ [c]) = .ok r'' ∧
        (b ≠ [] → isDir r'' = true) := by
      cases b with
      | nil => exact ⟨r, hr, fun h => absurd rfl h⟩
      | cons c' b =>
          rw [List.append_cons] at hr
          obtain ⟨r'', hr'', hd''⟩ := resolve_left hr
          exact ⟨r'', hr'', fun _ => hd''⟩
    obtain ⟨r'', hr'', hd''⟩ := hpart
    obtain ⟨r₀, it, hr₀, -, -, hlook, rfl⟩ := resolve_snoc_ok hr''
    refine ⟨it.info, ?_, fun hb => by simpa [isDir, Item.info, decodeNodeInfo] using hd'' hb⟩
    rw [listedIn_resolve hfuel hrel hwf hnames fun c hc => hcs c (by simp [hc])]
    exact ⟨it, hr'', ⟨r₀, hr₀, hlook⟩, rfl⟩
  · intro hshown
    rcases List.eq_nil_or_concat cs with rfl | ⟨a, c, rfl⟩
    · exact ⟨none, rfl⟩
    · rw [List.concat_eq_append] at *
      obtain ⟨info, hlisted, -⟩ := hshown a c [] rfl
      rw [listedIn_resolve hfuel hrel hwf hnames fun c hc => hcs c (by simp [hc])] at hlisted
      obtain ⟨it, hres, -⟩ := hlisted
      exact ⟨_, hres⟩

/-- What `fat32_stat` answers for a canonical path. -/
theorem fat32Stat_canonical (hfuel : env.geometry.totalClusters < env.fuel) (hrel : ¬ env.Faulty)
    (hwf : WellFormed env.geometry (s.volume env.geometry)) (hpath : Canonical path cs) :
    (fat32Stat env path s).result =
      match resolve env.geometry (s.volume env.geometry) cs with
      | .error e => some (.error e)
      | .ok none => some (.ok { name := [slash], isDir := true, size := 0 })
      | .ok (some e) => some (.ok (decodeNodeInfo e (lastComponentText path path))) := by
  rw [fat32Stat_result hfuel hrel hwf.sound, statAt, hpath.splitComponents_eq]
  rcases hr : resolve env.geometry (s.volume env.geometry) cs with e | _ | e
  · rfl
  · rfl
  · have hshort : (lastComponentText path path).length < nameCapacity := by
      rcases List.eq_nil_or_concat cs with rfl | ⟨a, c, rfl⟩
      · cases hr
      · rw [List.concat_eq_append] at *
        obtain ⟨_, _, _, _, hc, _, _⟩ := resolve_snoc_ok hr
        rw [hpath.lastComponentText_eq]
        exact (validateLongName_length hc).2
    simp only [if_neg (not_le.2 hshort)]

/-- `fat32_stat` finds exactly what the listings show, with the kind and the size listed; it
reports `FAT32_NOT_A_DIRECTORY` exactly where an inner component is listed as a file, and
otherwise the first component that is not listed is missing or no valid name. -/
theorem fat32Stat_iff_listed (hfuel : env.geometry.totalClusters < env.fuel)
    (hrel : ¬ env.Faulty) (hwf : WellFormed env.geometry (s.volume env.geometry))
    (hnames : NamesOk env.geometry (s.volume env.geometry)) (hpath : Canonical path cs) :
    ((∃ info, (fat32Stat env path s).result = some (.ok info)) ↔ Shown env s cs) ∧
    (∀ a c info listed, cs = a ++ [c] → (fat32Stat env path s).result = some (.ok info) →
      ListedIn env s a c listed → info.isDir = listed.isDir ∧ info.size = listed.size) ∧
    ((fat32Stat env path s).result = some (.error .notADirectory) ↔
      ∃ a c b listed, cs = a ++ c :: b ∧ b ≠ [] ∧ ListedIn env s a c listed ∧
        listed.isDir = false) ∧
    (¬ Shown env s cs → (fat32Stat env path s).result ≠ some (.error .notADirectory) →
      ∃ a c b, cs = a ++ c :: b ∧ Shown env s a ∧ (∀ listed, ¬ ListedIn env s a c listed) ∧
        (fat32Stat env path s).result =
          some (.error (if validateLongName c then .notFound else .invalidName))) := by
  have hstat := fat32Stat_canonical (s := s) hfuel hrel hwf hpath
  have hshown := resolve_iff_shown hfuel hrel hwf hnames hpath.components
  have hlisted : ∀ {a : List CStr}, (∀ c ∈ a, CanonicalComponent c) → ∀ {c info},
      ListedIn env s a c info ↔ ∃ it : Item,
        resolve env.geometry (s.volume env.geometry) (a ++ [c]) = .ok (some it.entry) ∧
        (∃ r, resolve env.geometry (s.volume env.geometry) a = .ok r ∧
          lookup (dirEntries env.geometry (s.volume env.geometry) (dirCluster env.geometry r)) c
            = some it) ∧ info = it.info :=
    fun {_} ha {_ _} => listedIn_resolve hfuel hrel hwf hnames ha
  refine ⟨?_, ?_, ?_, ?_⟩
  · rw [← hshown, hstat]
    rcases resolve env.geometry (s.volume env.geometry) cs with e | _ | e <;> simp
  · rintro a c info listed rfl hinfo hl
    rw [hlisted fun c hc => hpath.components c (by simp [hc])] at hl
    obtain ⟨it, hres, -, rfl⟩ := hl
    rw [hstat, hres] at hinfo
    cases hinfo
    exact ⟨rfl, rfl⟩
  · constructor
    · intro hnot
      rw [hstat] at hnot
      rcases hr : resolve env.geometry (s.volume env.geometry) cs with e | _ | e
      · rw [hr] at hnot
        cases hnot
        obtain ⟨a, c, b, r', rfl, hra, hd', hstuck⟩ := resolveFrom_stuck isDir_none hr
        cases hstuck with
        | file it hc hlook hb hfile =>
            refine ⟨a, c, b, it.info, rfl, hb, ?_, hfile⟩
            rw [listedIn_iff hfuel hrel hwf hnames fun c hc => hpath.components c (by simp [hc])]
            exact ⟨r', it, hra, hd', hc, hlook, rfl⟩
      · rw [hr] at hnot
        cases hnot
      · rw [hr] at hnot
        cases hnot
    · rintro ⟨a, c, b, listed, rfl, hb, hl, hfile⟩
      rw [hlisted fun c hc => hpath.components c (by simp [hc])] at hl
      obtain ⟨it, hres, -, rfl⟩ := hl
      have hfile : isDir (some it.entry) = false := hfile
      have happ := resolveFrom_append (g := env.geometry) (v := s.volume env.geometry)
        (a := a ++ [c]) isDir_none hb
      rw [← resolve, ← resolve, hres, List.append_assoc] at happ
      simp only [hfile, if_true] at happ
      rw [hstat, show a ++ c :: b = a ++ ([c] ++ b) from rfl, happ]
  · intro hno hnot
    rw [← hshown] at hno
    rw [hstat] at hnot ⊢
    rcases hr : resolve env.geometry (s.volume env.geometry) cs with e | r
    · obtain ⟨a, c, b, r', rfl, hra, hd', hstuck⟩ := resolveFrom_stuck isDir_none hr
      have ha : ∀ c ∈ a, CanonicalComponent c := fun c hc => hpath.components c (by simp [hc])
      refine ⟨a, c, b, rfl, (resolve_iff_shown hfuel hrel hwf hnames ha).1 ⟨_, hra⟩, ?_, ?_⟩
      · intro listed hl
        rw [listedIn_iff hfuel hrel hwf hnames ha] at hl
        obtain ⟨r₀, it, hr₀, -, hc, hlook, -⟩ := hl
        rw [resolve] at hr₀
        rw [hra] at hr₀
        cases hr₀
        cases hstuck with
        | invalid h => rw [hc] at h; cases h
        | missing _ h => rw [hlook] at h; cases h
        | file it => rw [hr] at hnot; exact hnot rfl
      · cases hstuck with
        | invalid h => simp [h]
        | missing hc h => simp [hc]
        | file it => rw [hr] at hnot; exact absurd rfl hnot
    · exact absurd ⟨r, hr⟩ hno

instance {es : List DirectoryEntry} : Decidable (UniqueNames es) :=
  inferInstanceAs (Decidable (List.Pairwise _ _))

instance {es : List DirectoryEntry} : Decidable (ValidNames es) :=
  inferInstanceAs (Decidable (∀ it ∈ itemsOf es, _))

theorem namesOk_of_check {g : Geometry} {v : Volume} {ds : List Nat}
    (h : checkVolume g v ds = true)
    (h' : ∀ d ∈ ds, UniqueNames (dirEntries g v d) ∧ ValidNames (dirEntries g v d)) :
    NamesOk g v := by
  obtain ⟨hsound, -⟩ := sound_of_check h
  exact ⟨fun d hd => (h' d (hsound.reachable hd)).1, fun d hd => (h' d (hsound.reachable hd)).2⟩

theorem fat32Stat_iff_listed_full :
    (∃ info, (fat32Stat smallEnv [slash, 0x41] almostFullState).result = some (.ok info)) ↔
      Shown smallEnv almostFullState [[0x41]] :=
  (fat32Stat_iff_listed (by decide) smallEnv_reliable (sound_of_check almostFullState_check).2
    (namesOk_of_check almostFullState_check (by decide +kernel))
    (canonical_letter (by decide) (by decide) (by decide))).1

end

end FunnyOS.Fat32
