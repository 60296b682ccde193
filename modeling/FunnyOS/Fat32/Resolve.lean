import FunnyOS.Fat32.Account
import FunnyOS.Fat32.Paths

/-!
# Path resolution on a volume

`resolve g v` is what `resolve_path` computes on a volume with an account: a walk through the
items of the directories. A canonical path is determined by the directory it names, so an
operation that changes the entries of one name in one directory leaves the resolution of every
other path as it is.
-/

namespace FunnyOS.Fat32

open Prog

/-! ## The walk -/

/-- The entry that a name denotes in a directory. -/
def lookup (es : List DirectoryEntry) (name : CStr) : Option Item :=
  (itemsOf es).find? (fun it => nameEqualsIgnoreCase it.name name)

/-- Where the directory starts that an entry stands for; `none` is the root. -/
def dirCluster (g : Geometry) : Option DirectoryEntry → Nat
  | none => g.rootCluster
  | some e => e.entryFirstCluster

/-- The entry is a directory; `none` is the root. -/
def isDir (r : Option DirectoryEntry) : Bool := r.all DirectoryEntry.isDirectory

/-- The walk of `resolve_path` from the entry resolved so far. -/
def resolveFrom (g : Geometry) (v : Volume) :
    Option DirectoryEntry → List CStr → Except Fat32Result (Option DirectoryEntry)
  | r, [] => .ok r
  | r, name :: rest =>
    if validateLongName name = false then .error .invalidName
    else if isDir r = false then .error .notADirectory
    else match lookup (dirEntries g v (dirCluster g r)) name with
      | none => .error .notFound
      | some it =>
        if rest ≠ [] ∧ it.entry.isDirectory = false then .error .notADirectory
        else resolveFrom g v (some it.entry) rest

/-- `resolve_path` on the components of a path. -/
def resolve (g : Geometry) (v : Volume) (components : List CStr) :
    Except Fat32Result (Option DirectoryEntry) := resolveFrom g v none components

section

variable {g : Geometry} {v v' : Volume} {r : Option DirectoryEntry} {a b : List CStr}
  {name : CStr}

theorem isDir_none : isDir none = true := rfl

/-- One more component at the end. -/
theorem resolveFrom_snoc (hr : isDir r = true) : resolveFrom g v r (a ++ [name]) =
    match resolveFrom g v r a with
    | .error e => .error e
    | .ok r' =>
      if isDir r' = false then .error .notADirectory
      else if validateLongName name = false then .error .invalidName
      else match lookup (dirEntries g v (dirCluster g r')) name with
        | none => .error .notFound
        | some it => .ok (some it.entry) := by
  induction a generalizing r with
  | nil =>
    rw [List.nil_append, resolveFrom, resolveFrom]
    simp only [hr, Bool.true_eq_false, if_false]
    split
    · rfl
    · cases lookup (dirEntries g v (dirCluster g r)) name with
      | none => rfl
      | some it => simp [resolveFrom]
  | cons x a ih =>
    rw [List.cons_append, resolveFrom, resolveFrom]
    split
    · rfl
    split
    · rfl
    cases lookup (dirEntries g v (dirCluster g r)) x with
    | none => rfl
    | some it =>
      simp only
      by_cases hd : it.entry.isDirectory = true
      · rw [if_neg (by simp [hd]), if_neg (by simp [hd])]
        exact ih (by simpa [isDir] using hd)
      · have hd' : it.entry.isDirectory = false := by simpa using hd
        rw [if_pos ⟨by simp, hd'⟩]
        cases a with
        | nil => simp [resolveFrom, isDir, hd']
        | cons y a => simp [hd']

theorem resolve_snoc : resolve g v (a ++ [name]) =
    match resolve g v a with
    | .error e => .error e
    | .ok r' =>
      if isDir r' = false then .error .notADirectory
      else if validateLongName name = false then .error .invalidName
      else match lookup (dirEntries g v (dirCluster g r')) name with
        | none => .error .notFound
        | some it => .ok (some it.entry) := resolveFrom_snoc isDir_none

@[simp] theorem resolve_nil : resolve g v [] = .ok none := rfl

/-- What a resolved path with components says about the last of them. -/
theorem resolve_snoc_ok {e : Option DirectoryEntry} (h : resolve g v (a ++ [name]) = .ok e) :
    ∃ r it, resolve g v a = .ok r ∧ isDir r = true ∧ validateLongName name = true ∧
      lookup (dirEntries g v (dirCluster g r)) name = some it ∧ e = some it.entry := by
  rw [resolve_snoc] at h
  split at h
  · simp at h
  · rename_i r hr
    split at h
    · simp at h
    · rename_i hd
      split at h
      · simp at h
      · rename_i hn
        split at h
        · simp at h
        · rename_i it hit
          exact ⟨r, it, hr, by simpa using hd, by simpa using hn, hit, by simpa using h.symm⟩

/-- A path is resolved in two parts. -/
theorem resolveFrom_append (hr : isDir r = true) (hb : b ≠ []) : resolveFrom g v r (a ++ b) =
    match resolveFrom g v r a with
    | .error e => .error e
    | .ok r' => if isDir r' = false then .error .notADirectory else resolveFrom g v r' b := by
  induction a generalizing r with
  | nil => simp [resolveFrom, hr]
  | cons x a ih =>
    rw [List.cons_append, resolveFrom, resolveFrom]
    split
    · rfl
    split
    · rfl
    cases lookup (dirEntries g v (dirCluster g r)) x with
    | none => rfl
    | some it =>
      simp only
      by_cases hd : it.entry.isDirectory = true
      · rw [if_neg (by simp [hd]), if_neg (by simp [hd])]
        exact ih (by simpa [isDir] using hd)
      · have hd' : it.entry.isDirectory = false := by simpa using hd
        rw [if_pos ⟨by simp [hb], hd'⟩]
        cases a with
        | nil => simp [resolveFrom, isDir, hd']
        | cons y a => simp [hd']

/-- Where the lookups on the way agree, a path resolves alike. -/
theorem resolve_congr {c : List CStr} (same : ∀ a name b r, c = a ++ name :: b →
      resolve g v a = .ok r → isDir r = true →
      (lookup (dirEntries g v' (dirCluster g r)) name).map Item.entry
        = (lookup (dirEntries g v (dirCluster g r)) name).map Item.entry) :
    resolve g v' c = resolve g v c := by
  induction c using List.reverseRecOn with
  | nil => rfl
  | append_singleton c name ih =>
    have hc : resolve g v' c = resolve g v c := by
      refine ih fun a n b r heq => same a n (b ++ [name]) r (by rw [heq]; simp)
    rw [resolve_snoc, resolve_snoc, hc]
    split
    · rfl
    · rename_i r hr
      split
      · rfl
      · rename_i hd
        split
        · rfl
        · have := same c name [] r rfl hr (by simpa using hd)
          cases hl : lookup (dirEntries g v (dirCluster g r)) name <;>
            cases hl' : lookup (dirEntries g v' (dirCluster g r)) name <;>
            simp [hl, hl'] at this ⊢
          exact this

theorem lookup_mem {es : List DirectoryEntry} {it : Item} (h : lookup es name = some it) :
    it ∈ itemsOf es ∧ nameEqualsIgnoreCase it.name name = true :=
  ⟨List.mem_of_find?_eq_some h, by simpa using List.find?_some (p := fun it : Item =>
    nameEqualsIgnoreCase it.name name) h⟩

end

/-! ## On a volume with an account -/

section

variable {ok : List DirectoryEntry → Prop} {g : Geometry} {v v' : Volume}
  {D : Nat → Prop} {own : Owner → List Nat} {r r' : Option DirectoryEntry} {a b : List CStr}
  {name : CStr} {it : Item} {d : Nat}

/-- The entry of an item is live in the sense of the account. -/
theorem liveEntries_item (hit : it ∈ itemsOf (dirEntries g v d)) :
    liveEntries g v d it.index = some it.entry := liveAt_item hit

theorem Sound.live_iff_item [DirRules ok] (h : Sound ok g v D own) (hd : D d) {i : Nat}
    {e : DirectoryEntry} : liveEntries g v d i = some e ↔
      ∃ it ∈ itemsOf (dirEntries g v d), it.index = i ∧ it.entry = e :=
  liveAt_iff_item (DirRules.ended (h.tidy hd))

theorem Sound.entryOk (h : Sound ok g v D own) (hd : D d)
    (hit : it ∈ itemsOf (dirEntries g v d)) :
    EntryOk g v.fat it.entry (own (.slot d it.index)) := h.cert.entry hd (liveEntries_item hit)

theorem Sound.subdir (h : Sound ok g v D own) (hd : D d)
    (hit : it ∈ itemsOf (dirEntries g v d)) (hdir : it.entry.isDirectory = true) :
    D it.entry.entryFirstCluster := h.cert.closed hd (liveEntries_item hit) hdir

/-- What resolves to a directory is one of the directories of the volume. -/
theorem Sound.dir_of_resolve (h : Sound ok g v D own) (hr : resolve g v a = .ok r)
    (hd : isDir r = true) : D (dirCluster g r) := by
  induction a using List.reverseRecOn generalizing r with
  | nil =>
    cases hr
    exact h.cert.rootDir
  | append_singleton a name ih =>
    obtain ⟨r', it, hr', hd', -, hl, rfl⟩ := resolve_snoc_ok hr
    exact h.subdir (ih hr' hd') (lookup_mem hl).1 (by simpa [isDir] using hd)

/-- What a path with components resolves to is not the root. -/
theorem Sound.resolve_ne_root (h : Sound ok g v D own) {e : DirectoryEntry}
    (hr : resolve g v a = .ok (some e)) : e.entryFirstCluster ≠ g.rootCluster := by
  rcases List.eq_nil_or_concat a with rfl | ⟨b, name, rfl⟩
  · cases hr
  · rw [List.concat_eq_append] at hr
    obtain ⟨r, it, hrb, hdir, -, hfound, heq⟩ := resolve_snoc_ok hr
    obtain rfl := Option.some.inj heq
    have hd := h.dir_of_resolve hrb hdir
    exact h.cert.entry_ne_root hd (liveEntries_item (lookup_mem hfound).1)

/-- Two parents are the same reference where they are the same directory. -/
theorem Sound.dirRef_eq_iff (h : Sound ok g v D own) (hr : resolve g v a = .ok r)
    (hr' : resolve g v b = .ok r') :
    (⟨r.isNone, dirCluster g r⟩ : DirectoryRef) = ⟨r'.isNone, dirCluster g r'⟩ ↔
      dirCluster g r = dirCluster g r' := by
  rw [DirectoryRef.mk.injEq]
  refine ⟨fun h => h.2, fun heq => ⟨?_, heq⟩⟩
  rcases r with _ | e <;> rcases r' with _ | e'
  · rfl
  · exact absurd heq.symm (h.resolve_ne_root hr')
  · exact absurd heq (h.resolve_ne_root hr)
  · rfl

/-- A directory has one canonical path. -/
theorem Sound.resolve_unique (h : Sound ok g v D own) (ha : ∀ c ∈ a, c.map kToupper = c)
    (hb : ∀ c ∈ b, c.map kToupper = c) (hra : resolve g v a = .ok r)
    (hrb : resolve g v b = .ok r') (hd : isDir r = true) (hd' : isDir r' = true)
    (heq : dirCluster g r = dirCluster g r') : a = b := by
  have root_ne : ∀ {a name r q}, resolve g v (a ++ [name]) = .ok r → isDir r = true →
      dirCluster g r ≠ dirCluster g none ∧ (resolve g v ([] : List CStr) = .ok q → q = none) := by
    intro a name r r' hr hd
    obtain ⟨r₁, it, hr₁, hd₁, -, hl, rfl⟩ := resolve_snoc_ok hr
    exact ⟨h.cert.entry_ne_root (h.dir_of_resolve hr₁ hd₁)
      (liveEntries_item (lookup_mem hl).1), fun h' => by simpa using h'.symm⟩
  induction a using List.reverseRecOn generalizing b r r' with
  | nil =>
    cases hra
    rcases List.eq_nil_or_concat b with rfl | ⟨b, m, rfl⟩
    · rfl
    · rw [List.concat_eq_append] at hrb
      exact absurd heq.symm (root_ne (q := none) hrb hd').1
  | append_singleton a n ih =>
    rcases List.eq_nil_or_concat b with rfl | ⟨b, m, rfl⟩
    · cases hrb
      exact absurd heq (root_ne (q := none) hra hd).1
    · rw [List.concat_eq_append] at hrb hb ⊢
      obtain ⟨r₁, it₁, hr₁, hd₁, -, hl₁, rfl⟩ := resolve_snoc_ok hra
      obtain ⟨r₂, it₂, hr₂, hd₂, -, hl₂, rfl⟩ := resolve_snoc_ok hrb
      obtain ⟨hmem₁, hname₁⟩ := lookup_mem hl₁
      obtain ⟨hmem₂, hname₂⟩ := lookup_mem hl₂
      have hD₁ := h.dir_of_resolve hr₁ hd₁
      have hD₂ := h.dir_of_resolve hr₂ hd₂
      have hok := h.entryOk hD₁ hmem₁
      have h0 : it₁.entry.entryFirstCluster ≠ 0 := fun h0 =>
        hok.dir (by simpa [isDir] using hd) (hok.chain.eq_nil_iff.mpr h0)
      obtain ⟨hdd, hidx⟩ := h.cert.entry_unique hD₁ hD₂ (liveEntries_item hmem₁)
        (liveEntries_item hmem₂) h0 heq.symm
      have hab : a = b := ih (fun c hc => ha c (by simp [hc])) (fun c hc => hb c (by simp [hc]))
        hr₁ hr₂ hd₁ hd₂ hdd.symm
      have hit : it₂ = it₁ := by
        rw [hdd] at hmem₂
        exact item_eq_of_index hmem₂ hmem₁ hidx
      have hnm : n = m := eq_of_nameEquals hname₁ (hit ▸ hname₂) (ha n (by simp)) (hb m (by simp))
      rw [hab, hnm]

/-- The entries that the directories in `D` have under each name are the same, except where
`changed`. -/
def SameLookups (g : Geometry) (v v' : Volume) (D : Nat → Prop) (changed : Nat → CStr → Prop) :
    Prop :=
  ∀ d n, D d → n.map kToupper = n → ¬ changed d n →
    (lookup (dirEntries g v' d) n).map Item.entry = (lookup (dirEntries g v d) n).map Item.entry

/-- A canonical path that does not lead through a changed name resolves as before. -/
theorem Sound.resolve_frame (h : Sound ok g v D own) {changed : Nat → CStr → Prop}
    (hsame : SameLookups g v v' D changed) (hb : ∀ c ∈ b, c.map kToupper = c)
    (hnot : ∀ a n rest r, b = a ++ n :: rest → resolve g v a = .ok r → isDir r = true →
      ¬ changed (dirCluster g r) n) : resolve g v' b = resolve g v b := by
  refine resolve_congr fun pre n rest r' hb' hr' hd' => ?_
  exact hsame _ n (h.dir_of_resolve hr' hd') (hb n (by simp [hb'])) (hnot _ _ _ _ hb' hr' hd')

/-- A canonical path leads through the name `n₀` of a directory only where it goes through the
path of that directory. -/
theorem Sound.not_through (h : Sound ok g v D own) {n₀ : CStr} (hr : resolve g v a = .ok r)
    (hd : isDir r = true) (ha : ∀ c ∈ a, c.map kToupper = c) (hb : ∀ c ∈ b, c.map kToupper = c)
    (hnot : ¬ (a ++ [n₀]) <+: b) {pre rest : List CStr} {n : CStr} (hsplit : b = pre ++ n :: rest)
    (hr' : resolve g v pre = .ok r') (hd' : isDir r' = true) :
    ¬ (dirCluster g r' = dirCluster g r ∧ n = n₀) := by
  rintro ⟨heq, rfl⟩
  refine hnot ⟨rest, ?_⟩
  have hpre : pre = a :=
    h.resolve_unique (fun c hc => hb c (by simp [hsplit, hc])) ha hr' hr hd' hd heq
  rw [hsplit, hpre]
  simp

end

/-! ## The routines -/

section

variable {ok : List DirectoryEntry → Prop} [DirRules ok] {env : Env} {s : State}
  {D : Nat → Prop} {own : Owner → List Nat} {r : Option DirectoryEntry} {path name : CStr}
  {d : Nat}

/-- The reference that `find_entry_in_cluster_dir` returns for an item; the number of its
long-name slots is exact unless the device has failed. -/
structure RefTo (env : Env) (es : List DirectoryEntry) (d : Nat) (it : Item) (ref : EntryRef) :
    Prop where
  directory : ref.directoryFirstCluster = d
  index : ref.entryIndex = it.index
  entry : ref.entry = it.entry
  count_le : ref.lfnEntryCount ≤ it.lfnCount es
  count : ref.lfnEntryCount = it.lfnCount es ∨ env.Faulty

/-- `find_entry_in_cluster_dir` looks up the name among the items. -/
theorem lookup_sat (hfuel : env.geometry.totalClusters < env.fuel)
    (h : Sound ok env.geometry (s.volume env.geometry) D own) (hd : D d)
    (hname : validateLongName name = true) :
    Sat (findEntryInClusterDir env d name) s
      (fun ref s' => s'.volume env.geometry = s.volume env.geometry ∧
        ∃ it, lookup (dirEntries env.geometry (s.volume env.geometry) d) name = some it ∧
          RefTo env (dirEntries env.geometry (s.volume env.geometry) d) d it ref)
      (fun e s' => s'.volume env.geometry = s.volume env.geometry ∧
        ((e = .notFound ∧
          lookup (dirEntries env.geometry (s.volume env.geometry) d) name = none) ∨
          e = .ioError ∧ env.Faulty)) := by
  obtain ⟨hch, -⟩ := h.cert.dir_chain hd
  have hes : chainEntries env.geometry (s.volume env.geometry)
      (clusterChain env.geometry (s.volume env.geometry).fat d)
        = dirEntries env.geometry (s.volume env.geometry) d := rfl
  have hscan := scanForName_eq 0 hname (DirRules.dotsPlain (h.tidy hd))
  refine (findEntryInClusterDir_sat hfuel hch).mono ?_ ?_
  · rintro ref s' ⟨hv, hdir, lfn, hfound, hcount⟩
    rw [hes] at hfound hcount
    rw [hfound] at hscan
    refine ⟨hv, _, hscan, hdir, rfl, rfl, ?_, ?_⟩
    · unfold Item.lfnCount
      simp only
      split <;> rename_i hatt
      · rw [if_pos hatt] at hcount
        exact hcount.1
      · rw [if_neg hatt] at hcount
        omega
    · unfold Item.lfnCount
      simp only
      split <;> rename_i hatt
      · rw [if_pos hatt] at hcount
        exact hcount.2
      · rw [if_neg hatt] at hcount
        exact .inl hcount
  · rintro e s' ⟨hv, ⟨rfl, hnot⟩ | hio⟩
    · refine ⟨hv, .inl ⟨rfl, ?_⟩⟩
      rw [hes] at hnot
      cases hs : scanForName name (dirEntries env.geometry (s.volume env.geometry) d) 0 .initial with
      | found x => exact absurd hs (hnot x)
      | endMark =>
        rw [hs] at hscan
        exact hscan
      | more lfn =>
        rw [hs] at hscan
        exact hscan
    · exact ⟨hv, .inr hio⟩

theorem resolveComponents_cons {c : CStr} {cs : List CStr} : resolveComponents env r (c :: cs) =
    if c.length ≥ nameCapacity then raise .invalidName
    else if !validateLongName c then raise .invalidName
    else if r.any (fun e => !e.isDirectory) then raise .notADirectory
    else findEntryInClusterDir env (dirCluster env.geometry r) c >>= fun ref =>
      if cs ≠ [] ∧ !ref.entry.isDirectory then raise .notADirectory
      else resolveComponents env (some ref.entry) cs := by
  cases r <;> rfl

/-- `resolve_path` from an entry resolved so far. -/
theorem resolveComponents_sat (hfuel : env.geometry.totalClusters < env.fuel)
    (h : Sound ok env.geometry (s.volume env.geometry) D own) {cs : List CStr}
    (hr : isDir r = true → D (dirCluster env.geometry r)) :
    Sat (resolveComponents env r cs) s
      (fun r' s' => s'.volume env.geometry = s.volume env.geometry ∧
        resolveFrom env.geometry (s.volume env.geometry) r cs = .ok r')
      (fun e s' => s'.volume env.geometry = s.volume env.geometry ∧
        (resolveFrom env.geometry (s.volume env.geometry) r cs = .error e ∨
          e = .ioError ∧ env.Faulty)) := by
  generalize hv : s.volume env.geometry = v at h ⊢
  induction cs generalizing r s with
  | nil => exact Sat.pure ⟨hv, rfl⟩
  | cons c cs ih =>
    rw [resolveComponents_cons]
    refine Sat.ite (fun hlen => Sat.raise ⟨hv, .inl ?_⟩) (fun _ => ?_)
    · rw [resolveFrom, if_pos]
      simp only [validateLongName, Bool.and_eq_false_iff, decide_eq_false_iff_not]
      exact .inl (.inl (.inl (.inr (Nat.not_lt.mpr hlen))))
    refine Sat.ite (fun hval => Sat.raise ⟨hv, .inl ?_⟩) (fun hval => ?_)
    · rw [resolveFrom, if_pos (by simpa using hval)]
    have hval : validateLongName c = true := by simpa using hval
    refine Sat.ite (fun hdir => Sat.raise ⟨hv, .inl ?_⟩) (fun hdir => ?_)
    · rw [resolveFrom, if_neg (by simp [hval]), if_pos]
      cases r with
      | none => simp at hdir
      | some e => simpa [isDir] using hdir
    have hdir : isDir r = true := by
      cases r with
      | none => rfl
      | some e => simpa [isDir] using hdir
    have hspec : resolveFrom env.geometry v r (c :: cs) =
        match lookup (dirEntries env.geometry v (dirCluster env.geometry r)) c with
        | none => .error .notFound
        | some it =>
          if cs ≠ [] ∧ it.entry.isDirectory = false then .error .notADirectory
          else resolveFrom env.geometry v (some it.entry) cs := by
      rw [resolveFrom, if_neg (by simp [hval]), if_neg (by simp [hdir])]
    rw [hspec]
    subst hv
    refine Sat.bind (lookup_sat hfuel h (hr hdir) hval) ?_ ?_
    · rintro e s' ⟨hv', ⟨rfl, hnone⟩ | hio⟩
      · exact ⟨hv', .inl (by rw [hnone])⟩
      · exact ⟨hv', .inr hio⟩
    · rintro ref s' ⟨hv', it, hit, href⟩
      rw [hit, href.entry]
      refine Sat.ite (fun hc => Sat.raise ⟨hv', .inl (if_pos (by simpa using hc))⟩) (fun hc => ?_)
      simp only
      rw [if_neg (by simpa using hc)]
      refine ih ?_ hv'
      intro hd
      exact h.subdir (hr hdir) (lookup_mem hit).1 (by simpa [isDir] using hd)

theorem resolvePath_sat (hfuel : env.geometry.totalClusters < env.fuel)
    (h : Sound ok env.geometry (s.volume env.geometry) D own) :
    Sat (resolvePath env path) s
      (fun r s' => s'.volume env.geometry = s.volume env.geometry ∧
        resolve env.geometry (s.volume env.geometry) (splitComponents path) = .ok r)
      (fun e s' => s'.volume env.geometry = s.volume env.geometry ∧
        (resolve env.geometry (s.volume env.geometry) (splitComponents path) = .error e ∨
          e = .ioError ∧ env.Faulty)) :=
  resolveComponents_sat hfuel h (fun _ => h.cert.rootDir)

/-- The directory and name that `lookup_parent_and_name` finds for a path. -/
structure ParentOf (g : Geometry) (v : Volume) (path : CStr) (cs : List CStr)
    (r : Option DirectoryEntry) (parentDir : DirectoryRef) (name parentPath : CStr) : Prop where
  split : splitComponents path = cs ++ [name]
  parentComponents : splitComponents parentPath = cs
  text : path = parentPath ++ slash :: name ∨ parentPath = [slash] ∧ path = slash :: name
  valid : validateLongName name = true
  resolved : resolve g v cs = .ok r
  dir : isDir r = true
  ref : parentDir = ⟨r.isNone, dirCluster g r⟩

theorem lookupParentAndName_sat (hfuel : env.geometry.totalClusters < env.fuel)
    (h : Sound ok env.geometry (s.volume env.geometry) D own) :
    Sat (lookupParentAndName env path) s
      (fun x s' => s'.volume env.geometry = s.volume env.geometry ∧
        ∃ cs r, ParentOf env.geometry (s.volume env.geometry) path cs r x.1 x.2.1 x.2.2)
      (fun _ s' => s'.volume env.geometry = s.volume env.geometry) := by
  refine Sat.bind splitPath_sat (fun e s' h' => by rw [h'.1]) ?_
  rintro ⟨parentPath, name⟩ s' ⟨hs', hsplit, htext⟩
  subst hs'
  refine Sat.ite (fun hval => ?_) (fun _ => Sat.raise rfl)
  refine Sat.bind (Q := fun x s₁ => s₁.volume env.geometry = s'.volume env.geometry ∧
      ∃ r, resolve env.geometry (s'.volume env.geometry) (splitComponents parentPath) = .ok r ∧
        isDir r = true ∧ x = ⟨r.isNone, dirCluster env.geometry r⟩)
    ?_ (fun _ _ h => h) ?_
  · refine Sat.bind (resolvePath_sat hfuel h) (fun e s' h' => h'.1) ?_
    rintro r s' ⟨hv, hr⟩
    cases r with
    | none => exact Sat.pure ⟨hv, none, hr, rfl, rfl⟩
    | some e =>
      refine Sat.ite (fun hd => Sat.pure ⟨hv, some e, hr, hd, rfl⟩) (fun _ => Sat.raise hv)
  · rintro ref s' ⟨hv, r, hr, hd, href⟩
    exact Sat.pure ⟨hv, splitComponents parentPath, r, hsplit, rfl, htext, hval, hr, hd, href⟩

theorem checkMounted_ok (hm : s.mounted = true) : checkMounted s = .ok () s := by
  change (if s.mounted = true then (pure () : Driver Unit) else raise .ioError) s = _
  rw [if_pos hm]
  rfl

theorem checkMounted_sat (hm : s.mounted = true) :
    Sat checkMounted s (fun _ s' => s' = s) (fun _ _ => False) := by
  refine Sat.get_bind ?_
  rw [if_pos hm]
  exact Sat.pure rfl

/-- How the operations that change the volume begin. -/
theorem startCall_sat {α : Type} {k : DirectoryRef × CStr × CStr → Driver α}
    {Q : α → State → Prop} {E : Fat32Result → State → Prop}
    (hfuel : env.geometry.totalClusters < env.fuel) {v : Volume} (hv : s.volume env.geometry = v)
    (h : Sound ok env.geometry v D own)
    (herr : ∀ e s', s'.volume env.geometry = v → E e s')
    (hk : ∀ cs r parentDir name parentPath s', s'.volume env.geometry = v →
      ParentOf env.geometry v path cs r parentDir name parentPath →
      D (dirCluster env.geometry r) → Sat (k (parentDir, name, parentPath)) s' Q E) :
    Sat (checkMounted >>= fun _ => lookupParentAndName env path >>= k) s Q E := by
  refine Sat.bind (checkMounted_sat ((congrArg Volume.mounted hv).trans h.mounted))
    (fun _ _ h => h.elim) ?_
  rintro ⟨⟩ s₀ rfl
  refine Sat.bind (lookupParentAndName_sat hfuel (hv.symm ▸ h))
    (fun e s' hs' => herr e s' (hs'.trans hv)) ?_
  rintro ⟨parentDir, name, parentPath⟩ s₁ ⟨hv₁, cs, r, hparent⟩
  rw [hv] at hv₁ hparent
  exact hk cs r _ _ _ s₁ hv₁ hparent (h.dir_of_resolve hparent.resolved hparent.dir)

end

end FunnyOS.Fat32
