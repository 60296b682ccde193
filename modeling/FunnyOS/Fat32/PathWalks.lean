import FunnyOS.Fat32.Check

/-!
# Path walks

`split_path`, `resolve_path` and `fat32_stat` each look for the last component of a path in a
loop of their own. `SplitSound` and `StatSound` say that the first and the third stay inside
their buffers and agree with the second; the two theorems at the end tell for which paths they
do.
-/

namespace FunnyOS.Fat32

open Prog

/-- Resolve the text before the last slash, and look up the text behind it. The operations, in
`lookup_parent_and_name`, test the name first, so that of two reasons to fail they report that
one. -/
def resolveParentAndLookUp (env : Env) (parent name : CStr) : Driver (Option DirectoryEntry) := do
  let parentDir ← resolveDirectory env parent
  if validateLongName name then do
    let ref ← findEntryInClusterDir env parentDir.firstCluster name
    pure (some ref.entry)
  else raise .invalidName

/-- `split_path` writes inside the buffers of its callers, and the texts that it returns lead to
the entry that `resolve_path` finds. -/
structure SplitSound (env : Env) (path : CStr) : Prop where
  bounds : Defined (splitPath path)
  agrees : ∀ s s' parent name, splitPath path s = .ok (parent, name) s' →
    parent.length < parentPathCapacity ∧ name.length < nameCapacity ∧
      resolvePath env path = resolveParentAndLookUp env parent name

/-- After `resolve_path` has found the entry `e`, `fat32_stat` reports it under the last
component of the path, which fits in the buffer. -/
def StatSound (env : Env) (s s' : State) (path : CStr) (e : DirectoryEntry) : Prop :=
  ∃ name, fat32Stat env path s = .ok (decodeNodeInfo e name) s' ∧
    (splitComponents path).getLast? = some name ∧ name.length < nameCapacity ∧ slash ∉ name

section

variable {env : Env} {s s' : State} {path parent name a b : CStr} {e : DirectoryEntry}
  {r : Option DirectoryEntry}

/-! ## Where the last slash is -/

/-- Behind the last slash, a text has no slash. -/
theorem slash_mem_drop_iff {n : Nat} (hfree : ∀ x ∈ name, x ≠ slash) :
    slash ∈ (parent ++ slash :: name).drop n ↔ n ≤ parent.length := by
  rw [List.drop_append]
  constructor
  · intro hmem
    by_contra hlt
    obtain ⟨m, hm⟩ : ∃ m, n - parent.length = m + 1 := ⟨n - parent.length - 1, by omega⟩
    rw [List.drop_eq_nil_of_le (by omega), hm, List.nil_append, List.drop_succ_cons] at hmem
    exact hfree slash (List.mem_of_mem_drop hmem) rfl
  · intro hle
    rw [Nat.sub_eq_zero_of_le hle]
    simp

theorem getLast?_ne_slash (hfree : ∀ x ∈ name, x ≠ slash) (hne : name ≠ []) :
    (parent ++ slash :: name).getLast? ≠ some slash := by
  rw [List.getLast?_append, List.getLast?_cons, List.getLast?_eq_some_getLast hne]
  intro h
  exact hfree _ (List.getLast_mem hne) (by simpa using h)

/-- A path with a slash, in front of and behind its last slash. -/
theorem exists_last_slash (h : slash ∈ path) : ∃ parent name,
    path = parent ++ slash :: name ∧ ∀ x ∈ name, x ≠ slash := by
  obtain ⟨hpath, hfree⟩ := splitPath_parts h rfl
  exact ⟨_, _, hpath, hfree⟩

/-! ## `split_path` -/

/-- The path that `split_path` cuts. -/
theorem splitPath_cut (hhead : path.head? = some slash)
    (hpath : path = parent ++ slash :: name) (hfree : ∀ x ∈ name, x ≠ slash) (hne : name ≠ []) :
    splitPath path =
      if parent.length ≥ parentPathCapacity then fault
      else if name.length ≥ nameCapacity then raise .invalidName
      else pure (if parent = [] then [slash] else parent, name) := by
  have hname : (path.reverse.takeWhile (· != slash)).reverse = name := by
    have hrev : path.reverse = name.reverse ++ slash :: parent.reverse := by simp [hpath]
    rw [hrev, List.takeWhile_append_of_pos, List.takeWhile_cons_of_neg (by simp)]
    · simp
    · intro x hx
      simpa using hfree x (by simpa using hx)
  have hparent : path.take (path.length - name.length - 1) = parent := by
    have hlen : path.length - name.length - 1 = parent.length := by
      simp only [hpath, List.length_append, List.length_cons]
      omega
    rw [hlen, hpath]
    exact List.take_left' rfl
  have hlong : path.length ≠ 1 := by
    have := List.length_pos_iff.2 hne
    simp only [hpath, List.length_append, List.length_cons]
    omega
  unfold splitPath
  rw [if_neg (by simp [hhead, hlong])]
  simp only [hname, hparent, if_neg hne]

/-- A path that ends with a slash has no last component to `split_path`. -/
theorem splitPath_trailing (hlast : path.getLast? = some slash) :
    splitPath path = raise .invalidName := by
  obtain ⟨a, rfl⟩ : ∃ a, path = a ++ [slash] := List.getLast?_eq_some_iff.1 hlast
  unfold splitPath
  simp

/-- `split_path` stays inside the buffer for the parent. -/
theorem splitPath_defined_iff : Defined (splitPath path) ↔
    slash ∉ path.drop parentPathCapacity ∨ path.head? ≠ some slash ∨
      path.getLast? = some slash := by
  by_cases hhead : path.head? = some slash
  · have hslash : slash ∈ path := List.mem_of_mem_head? (by rw [hhead]; rfl)
    obtain ⟨parent, name, rfl, hfree⟩ := exists_last_slash hslash
    by_cases hne : name = []
    · subst hne
      have hlast : (parent ++ [slash]).getLast? = some slash := by simp
      rw [splitPath_trailing hlast]
      simp only [hlast, or_true, iff_true]
      exact Defined.raise
    · rw [splitPath_cut hhead rfl hfree hne, slash_mem_drop_iff hfree]
      simp only [hhead, getLast?_ne_slash hfree hne, ne_eq, not_true_eq_false, or_false]
      constructor
      · intro h hle
        rw [if_pos hle] at h
        exact h emptyState emptyState rfl
      · intro hlt
        rw [if_neg hlt]
        exact Defined.ite Defined.raise Defined.pure
  · have hraise : splitPath path = raise .invalidName := by
      unfold splitPath
      exact if_pos (.inl hhead)
    rw [hraise]
    simp only [ne_eq, hhead, not_false_eq_true, true_or, or_true, iff_true]
    exact Defined.raise

/-! ## `resolve_path` -/

/-- The last component of a path is looked up in what the components in front of it lead to. -/
theorem resolveComponents_snoc {cs : List CStr} (hr : isDir r = true) :
    resolveComponents env r (cs ++ [name]) = (do
      let r' ← resolveComponents env r cs
      if isDir r' then
        if validateLongName name then do
          let ref ← findEntryInClusterDir env (dirCluster env.geometry r') name
          pure (some ref.entry)
        else raise .invalidName
      else raise .notADirectory) := by
  induction cs generalizing r with
  | nil =>
    rw [List.nil_append, resolveComponents_cons]
    change _ = if isDir r = true then _ else _
    rw [if_pos hr]
    have hany : r.any (fun e => !e.isDirectory) = false := by
      cases r with
      | none => rfl
      | some e => simpa [isDir] using hr
    by_cases hval : validateLongName name = true
    · have hlen := (validateLongName_length hval).2
      rw [if_neg (by omega), if_neg (by simp [hval]), if_neg (by simp [hany]), if_pos hval]
      simp only [ne_eq, not_true_eq_false, false_and, if_false]
      rfl
    · rw [if_neg hval]
      split
      · rfl
      · rw [if_pos (by simpa using hval)]
  | cons c cs ih =>
    rw [List.cons_append, resolveComponents_cons, resolveComponents_cons]
    split
    · rfl
    split
    · rfl
    split
    · rfl
    rw [bind_bind]
    congr 1
    funext ref
    by_cases hdir : ref.entry.isDirectory = true
    · rw [if_neg (by simp [hdir]), if_neg (by simp [hdir])]
      exact ih hdir
    · rw [if_pos (by simp [hdir])]
      split
      · rfl
      · -- the last of the components is no directory
        rename_i hcs
        have hnil : cs = [] := by
          by_contra hne
          exact hcs ⟨hne, by simp [hdir]⟩
        subst hnil
        change _ = if isDir (some ref.entry) = true then _ else _
        rw [if_neg (by simpa [isDir] using hdir)]

/-- Resolving a path is resolving the text in front of its last slash, and then looking up the
text behind it. -/
theorem resolvePath_split (h : splitComponents path = splitComponents parent ++ [name]) :
    resolvePath env path = resolveParentAndLookUp env parent name := by
  unfold resolvePath resolveParentAndLookUp resolveDirectory
  rw [h, resolveComponents_snoc rfl, resolvePath, bind_bind]
  congr 1
  funext r
  cases r with
  | none => rfl
  | some e =>
    change (if e.isDirectory = true then _ else _) = (if e.isDirectory = true then _ else _) >>= _
    by_cases hdir : e.isDirectory = true
    · rw [if_pos hdir, if_pos hdir]
      rfl
    · rw [if_neg hdir, if_neg hdir]
      rfl

theorem splitSound_iff : SplitSound env path ↔
    slash ∉ path.drop parentPathCapacity ∨ path.head? ≠ some slash ∨
      path.getLast? = some slash := by
  rw [← splitPath_defined_iff]
  constructor
  · intro h
    exact h.bounds
  · intro h
    constructor
    · exact h
    · intro s s' parent name hcall
      have hparts := Sat.of_ok splitPath_sat hcall
      have hroom : Sat (splitPath path) s (fun x _ => x.1.length < parentPathCapacity ∧
          x.2.length < nameCapacity) (fun _ _ => True) := by
        unfold splitPath
        refine Sat.ite (fun _ => Sat.raise trivial) (fun _ => ?_)
        refine Sat.ite (fun _ => Sat.raise trivial) (fun _ => ?_)
        refine Sat.ite (fun _ => Sat.fault) (fun hparent => ?_)
        refine Sat.ite (fun _ => Sat.raise trivial) (fun hname => Sat.pure ?_)
        constructor
        · simp only
          split
          · decide
          · exact Nat.lt_of_not_le hparent
        · exact Nat.lt_of_not_le hname
      obtain ⟨hparent, hname⟩ := Sat.of_ok hroom hcall
      exact ⟨hparent, hname, resolvePath_split hparts.2.1⟩

/-- A path that resolves has valid components only. -/
theorem resolveComponents_valid {cs : List CStr} {r' : Option DirectoryEntry}
    (h : resolveComponents env r cs s = .ok r' s') : ∀ c ∈ cs, validateLongName c = true := by
  induction cs generalizing r s with
  | nil => simp
  | cons c cs ih =>
    rw [resolveComponents_cons] at h
    split at h
    · cases h
    split at h
    · cases h
    rename_i hval
    split at h
    · cases h
    obtain ⟨ref, s₁, -, h⟩ := ok_of_bind h
    split at h
    · cases h
    · intro x hx
      cases hx with
      | head => simpa using hval
      | tail _ hx => exact ih h x hx

/-! ## `fat32_stat` -/

/-- The text that `fat32_stat` reports is a final part of the path. -/
theorem lastComponentText_suffix {last : CStr} (h : last <:+ path) (hne : last ≠ []) {rest : CStr}
    (hrest : rest <:+ path) : lastComponentText last rest <:+ path ∧
      lastComponentText last rest ≠ [] := by
  induction rest generalizing last with
  | nil => exact ⟨h, hne⟩
  | cons c rest ih =>
    have htail : rest <:+ path := (List.suffix_cons c rest).trans hrest
    rw [lastComponentText]
    split
    · rename_i hslash
      exact ih htail hslash.2 htail
    · exact ih h hne htail

theorem slash_mem_lastComponentText (h : path.getLast? = some slash) :
    slash ∈ lastComponentText path path := by
  have hne : path ≠ [] := by
    rintro rfl
    cases h
  obtain ⟨⟨a, ha⟩, htext⟩ := lastComponentText_suffix (List.suffix_refl path) hne
    (List.suffix_refl path)
  rw [← ha, List.getLast?_append, List.getLast?_eq_some_getLast htext] at h
  have hlast : (lastComponentText path path).getLast htext = slash := by simpa using h
  rw [← hlast]
  exact List.getLast_mem htext

/-- Where nothing but the last component is behind the last slash, `fat32_stat` reports it. -/
theorem lastComponentText_last (hlast : path.getLast? ≠ some slash) (hne : path ≠ []) :
    (splitComponents path).getLast? = some (lastComponentText path path) ∧
      slash ∉ lastComponentText path path := by
  by_cases hslash : slash ∈ path
  · obtain ⟨parent, name, rfl, hfree⟩ := exists_last_slash hslash
    have hname : name ≠ [] := by
      rintro rfl
      simp at hlast
    rw [lastComponentText_eq hfree hname, splitComponents_append, splitComponents_word hfree hname]
    constructor
    · simp
    · intro hmem
      exact hfree slash hmem rfl
  · have hfree : ∀ x ∈ path, x ≠ slash := by
      intro x hx heq
      exact hslash (heq ▸ hx)
    rw [lastComponentText_word hfree, splitComponents_word hfree hne]
    exact ⟨rfl, hslash⟩

theorem fat32Stat_some (hm : s.mounted = true) (h : resolvePath env path s = .ok (some e) s') :
    fat32Stat env path s =
      if (lastComponentText path path).length ≥ nameCapacity then .fault s'
      else .ok (decodeNodeInfo e (lastComponentText path path)) s' := by
  unfold fat32Stat
  rw [bind_of_ok (checkMounted_ok hm), bind_of_ok h]
  change (if _ then (fault : Driver Fat32NodeInfo) else pure _) s' = _
  split
  · rfl
  · rfl

theorem statSound_iff (hm : s.mounted = true) (h : resolvePath env path s = .ok (some e) s') :
    StatSound env s s' path e ↔ path.getLast? ≠ some slash := by
  unfold StatSound
  rw [fat32Stat_some hm h]
  constructor
  · intro hsound hlast
    obtain ⟨name, hcall, -, -, hfree⟩ := hsound
    split at hcall
    · cases hcall
    · injection hcall with hinfo
      have hname := congrArg Fat32NodeInfo.name hinfo
      change lastComponentText path path = name at hname
      exact hfree (hname ▸ slash_mem_lastComponentText hlast)
  · intro hlast
    have hne : path ≠ [] := by
      rintro rfl
      cases h
    obtain ⟨hcomp, hfree⟩ := lastComponentText_last hlast hne
    have hvalid := resolveComponents_valid h
    have hlen := (validateLongName_length (hvalid _ (List.mem_of_getLast? hcomp))).2
    rw [if_neg (by omega)]
    exact ⟨_, rfl, hcomp, hlen, hfree⟩

/-- For which paths `split_path` stays inside its buffers and agrees with `resolve_path`, and for
which `fat32_stat` does. -/
theorem pathWalks_sound_iff (env : Env) (path : CStr) :
    (SplitSound env path ↔ slash ∉ path.drop parentPathCapacity ∨ path.head? ≠ some slash ∨
      path.getLast? = some slash) ∧
    ∀ s s' e, s.mounted = true → resolvePath env path s = .ok (some e) s' →
      (StatSound env s s' path e ↔ path.getLast? ≠ some slash) :=
  ⟨splitSound_iff, fun _ _ _ hm h => statSound_iff hm h⟩

/-- The entry that a call has found. -/
theorem exists_resolved {o : Outcome State Fat32Result (Option DirectoryEntry)}
    (h : (o.result.any fun r => r.toOption.join.isSome) = true) : ∃ e s', o = .ok (some e) s' := by
  cases o with
  | ok r s' =>
    cases r with
    | none => cases h
    | some e => exact ⟨e, s', rfl⟩
  | _ => cases h

/-- A name in the root directory. -/
theorem pathWalks_sound_iff_root :
    SplitSound smallEnv [slash, 0x41] ∧ ∃ s' e, StatSound smallEnv
      (afterCall (.makeDir [slash, 0x41]) emptyState) s' [slash, 0x41] e := by
  obtain ⟨e, s', hfound⟩ := exists_resolved (o := resolvePath smallEnv [slash, 0x41]
    (afterCall (.makeDir [slash, 0x41]) emptyState)) (by decide +kernel)
  obtain ⟨hsplit, hstat⟩ := pathWalks_sound_iff smallEnv [slash, 0x41]
  constructor
  · exact hsplit.2 (.inl (by decide))
  · exact ⟨s', e, (hstat _ s' e (by decide +kernel) hfound).2 (by decide)⟩

/-- A parent of 128 slashes does not fit, and `fat32_stat` reports a slash behind the last
component as a part of it. -/
theorem pathWalks_unsound :
    ¬ SplitSound smallEnv (List.replicate 129 slash ++ [0x41]) ∧
    ∃ s' e, resolvePath smallEnv [slash, 0x41, slash]
        (afterCall (.makeDir [slash, 0x41]) emptyState) = .ok (some e) s' ∧
      ¬ StatSound smallEnv (afterCall (.makeDir [slash, 0x41]) emptyState) s'
        [slash, 0x41, slash] e := by
  constructor
  · rw [splitSound_iff]
    decide +kernel
  · obtain ⟨e, s', hfound⟩ := exists_resolved (o := resolvePath smallEnv [slash, 0x41, slash]
      (afterCall (.makeDir [slash, 0x41]) emptyState)) (by decide +kernel)
    refine ⟨s', e, hfound, ?_⟩
    rw [statSound_iff (by decide +kernel) hfound]
    decide

end

end FunnyOS.Fat32
