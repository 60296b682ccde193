import FunnyOS.Fat32.Slots

/-!
# Specifications of the directory routines

Each routine that walks a directory cluster by cluster does what one scan over the list of
all its slots does. The routines that write change this list and nothing else. The only
failure of the device-dependent kind is `FAT32_IO_ERROR`, and only where the device has
failed.
-/

namespace FunnyOS.Fat32

open Prog

/-! ## Scans of concatenated lists -/

section

variable {a b : List DirectoryEntry}

theorem scanForName_append {name : CStr} {index : Nat} {lfn : LfnState} :
    scanForName name (a ++ b) index lfn = match scanForName name a index lfn with
      | .more lfn' => scanForName name b (index + a.length) lfn'
      | r => r := by
  induction a generalizing index lfn with
  | nil => rfl
  | cons e a ih =>
    simp only [List.cons_append, scanForName, ih, List.length_cons, Nat.add_assoc,
      Nat.add_comm 1]
    split_ifs <;> rfl

theorem scanForShortName_append {shortName : List UInt8} {ignore : Option (List UInt8)} :
    scanForShortName shortName ignore (a ++ b) = match scanForShortName shortName ignore a with
      | .more _ => scanForShortName shortName ignore b
      | r => r := by
  induction a with
  | nil => rfl
  | cons e a ih =>
    simp only [List.cons_append, scanForShortName, ih]
    split_ifs <;> rfl

theorem scanForContent_append {lfn : LfnState} :
    scanForContent (a ++ b) lfn = match scanForContent a lfn with
      | .more lfn' => scanForContent b lfn'
      | r => r := by
  induction a generalizing lfn with
  | nil => rfl
  | cons e a ih =>
    simp only [List.cons_append, scanForContent, ih]
    split_ifs <;> rfl

theorem scanForListing_append {κ : Type} {callback : κ → Fat32NodeInfo → κ × Bool}
    {lfn : LfnState} {context : κ} :
    scanForListing callback (a ++ b) lfn context = match scanForListing callback a lfn context with
      | (.more lfn', context') => scanForListing callback b lfn' context'
      | r => r := by
  induction a generalizing lfn context with
  | nil => rfl
  | cons e a ih =>
    simp only [List.cons_append, scanForListing, ih]
    split_ifs <;> rfl

theorem scanForFree_append {needed index : Nat} {run : FreeRun} :
    scanForFree needed (a ++ b) index run = match scanForFree needed a index run with
      | .inl run' => scanForFree needed b (index + a.length) run'
      | .inr start => .inr start := by
  induction a generalizing index run with
  | nil => rfl
  | cons e a ih =>
    simp only [List.cons_append, scanForFree, ih, List.length_cons, Nat.add_assoc,
      Nat.add_comm 1]
    split_ifs <;> rfl

end

/-! ## Reading a cluster of slots -/

section

variable {env : Env} {s : State} {d : Nat} {l : List Nat}

theorem readCluster_entries {c : Nat} (hc : env.geometry.isValidDataCluster c = true) :
    Sat (readCluster env c) s
      (fun b s' => s'.volume env.geometry = s.volume env.geometry ∧
        if b then bufferEntries env.geometry s'.clusterBuffer
          = clusterEntries env.geometry (s.volume env.geometry) c
        else env.Faulty)
      (fun _ _ => False) := by
  refine Sat.mono (readCluster_sat hc) ?_ (fun _ _ h => h)
  rintro (_ | _) s' ⟨hv, h⟩
  · exact ⟨hv, h⟩
  · exact ⟨hv, bufferEntries_congr h⟩

/-! ## Finding an entry -/

/-- The number of slots with the long-name attribute directly before slot `i`. -/
def lfnRun (es : List DirectoryEntry) : Nat → Nat
  | 0 => 0
  | i + 1 => if (es.getD i .zero).attributes = attrLfn then lfnRun es i + 1 else 0

theorem lfnRun_le (es : List DirectoryEntry) (i : Nat) : lfnRun es i ≤ i := by
  induction i with
  | zero => exact Nat.le_refl _
  | succ i ih => simp only [lfnRun]; split <;> omega

/-- The slots that `lfnRun` counts have the long-name attribute. -/
theorem lfnRun_attributes (es : List DirectoryEntry) {i j : Nat} (h₁ : i - lfnRun es i ≤ j)
    (h₂ : j < i) : (es.getD j .zero).attributes = attrLfn := by
  induction i with
  | zero => omega
  | succ i ih =>
    have hle := lfnRun_le es i
    simp only [lfnRun] at h₁
    split at h₁
    · next h =>
      by_cases hj : j = i
      · rw [hj]; exact h
      · exact ih (by omega) (by omega)
    · omega

/-- What `count` may be after the backward walk: exact unless the device has failed. -/
def LfnCount (env : Env) (es : List DirectoryEntry) (i count : Nat) : Prop :=
  count ≤ lfnRun es i ∧ (count = lfnRun es i ∨ env.Faulty)

theorem countLfnEntries_sat (h : Chain env.geometry s.fat d l) {v : Volume} :
    ∀ (i : Nat) (s' : State), v = s.volume env.geometry → s'.volume env.geometry = v →
    i ≤ (chainEntries env.geometry v l).length →
    Sat (countLfnEntries env d i) s'
      (fun count s'' => s''.volume env.geometry = v ∧
        LfnCount env (chainEntries env.geometry v l) i count)
      (fun _ _ => False) := by
  intro i
  induction i with
  | zero =>
    intro s' _ hs' _
    exact Sat.pure ⟨hs', Nat.le_refl _, .inl rfl⟩
  | succ i ih =>
    intro s' hv hs' hi
    have hfat : s'.fat = s.fat := congrArg Volume.fat (hs'.trans hv)
    unfold countLfnEntries
    refine Sat.bind (Sat.attempt (R := fun r s'' => s''.volume env.geometry = v ∧
      caught (fun e => (chainEntries env.geometry v l)[i]? = some e) (fun _ : Fat32Result => env.Faulty) r)
      (readDirectoryEntry_sat (by rw [hfat]; exact h) (by rw [hs']; omega)) ?_ ?_)
      (fun _ _ h => h) ?_
    · rintro e s₁ ⟨h₁, h₂⟩
      rw [hs'] at h₁ h₂
      exact ⟨h₁, h₂⟩
    · rintro e s₁ ⟨h₁, -, h₂⟩
      rw [hs'] at h₁
      exact ⟨h₁, h₂⟩
    · rintro (e | e) s₁ ⟨h₁, h₂⟩
      · exact Sat.pure ⟨h₁, Nat.zero_le _, .inr h₂⟩
      · have hget : (chainEntries env.geometry v l).getD i .zero = e := by
          rw [List.getD_eq_getElem?_getD, h₂]; rfl
        refine Sat.ite (fun hattr => ?_) (fun hattr => ?_)
        · refine Sat.bind (ih s₁ hv h₁ (by omega)) (fun _ _ h => h) ?_
          rintro count s₂ ⟨h₃, hle, hcount⟩
          refine Sat.pure ⟨h₃, ?_⟩
          simp only [LfnCount, lfnRun, hget, if_pos hattr]
          exact ⟨by omega, hcount.imp_left (congrArg (· + 1))⟩
        · refine Sat.pure ⟨h₁, ?_⟩
          simp only [LfnCount, lfnRun, hget, if_neg hattr]
          exact ⟨Nat.le_refl _, .inl trivial⟩

/-- A slot that `scan_for_name` finds is one of the slots scanned. -/
theorem scanForName_found {name : CStr} {es : List DirectoryEntry} {index i : Nat}
    {lfn lfn' : LfnState} {e : DirectoryEntry}
    (h : scanForName name es index lfn = .found (i, e, lfn')) :
    index ≤ i ∧ i < index + es.length := by
  induction es generalizing index lfn with
  | nil => simp [scanForName] at h
  | cons x es ih =>
    simp only [scanForName] at h
    split_ifs at h
    · obtain ⟨h₁, h₂⟩ := ih h; simp only [List.length_cons]; omega
    · obtain ⟨h₁, h₂⟩ := ih h; simp only [List.length_cons]; omega
    · obtain ⟨h₁, h₂⟩ := ih h; simp only [List.length_cons]; omega
    · simp only [Scan.found.injEq, Prod.mk.injEq] at h
      simp only [List.length_cons]; omega
    · obtain ⟨h₁, h₂⟩ := ih h; simp only [List.length_cons]; omega

/-- The reference to the slot that a name denotes among the slots `es`. -/
structure Found (env : Env) (es : List DirectoryEntry) (d : Nat) (name : CStr)
    (ref : EntryRef) : Prop where
  directory : ref.directoryFirstCluster = d
  scan : ∃ lfn, scanForName name es 0 .initial = .found (ref.entryIndex, ref.entry, lfn) ∧
    if lfn.attached ref.entry then LfnCount env es ref.entryIndex ref.lfnEntryCount
    else ref.lfnEntryCount = 0

/-- No slot of `es` has the name. -/
def NotFound (es : List DirectoryEntry) (name : CStr) : Prop :=
  ∀ x, scanForName name es 0 .initial ≠ .found x

/-- `find_entry_in_cluster_dir` finds what one scan over all slots finds. -/
theorem findEntryInClusterDir_sat (hfuel : env.geometry.totalClusters < env.fuel)
    (h : Chain env.geometry s.fat d l) {name : CStr} :
    Sat (findEntryInClusterDir env d name) s
      (fun ref s' => s'.volume env.geometry = s.volume env.geometry ∧
        Found env (chainEntries env.geometry (s.volume env.geometry) l) d name ref)
      (fun e s' => s'.volume env.geometry = s.volume env.geometry ∧
        ((e = .notFound ∧
          NotFound (chainEntries env.geometry (s.volume env.geometry) l) name) ∨
          e = .ioError ∧ env.Faulty)) := by
  -- the scan of the clusters still ahead ends as the scan of the whole directory does
  refine Sat.loop (fun k x st => st.volume env.geometry = s.volume env.geometry ∧
    ∃ l', Chain env.geometry s.fat x.1 l' ∧ k = l'.length ∧
      scanForName name (chainEntries env.geometry (s.volume env.geometry) l') x.2.1 x.2.2
        = scanForName name (chainEntries env.geometry (s.volume env.geometry) l) 0 .initial ∧
      x.2.1 + l'.length * env.geometry.entriesPerCluster
        = (chainEntries env.geometry (s.volume env.geometry) l).length)
    ?_ env.fuel l.length _ s (Nat.lt_trans h.length_lt hfuel)
    ⟨rfl, l, h, rfl, rfl, by rw [chainEntries_length, Nat.zero_add]⟩
  rintro k ⟨cl, index, lfn⟩ st ⟨hv, l', hch, rfl, hscan, hindex⟩
  simp only at hch hscan hindex ⊢
  cases l' with
  | nil =>
    rw [end_not_inChain (chain_nil.mp hch)]
    refine Sat.raise ⟨hv, .inl ⟨rfl, ?_⟩⟩
    intro x hx
    rw [← hscan] at hx
    simp [scanForName] at hx
  | cons c l' =>
    obtain ⟨rfl, hc, hrest⟩ := chain_cons.mp hch
    rw [valid_inChain hc, if_pos rfl]
    refine Sat.bind (readCluster_entries hc) (fun _ _ h => h.elim) ?_
    rintro (_ | _) s₁ ⟨hv₁, hbuf⟩
    · exact Sat.raise ⟨hv₁.trans hv, .inr ⟨rfl, hbuf⟩⟩
    · have hv₁ := hv₁.trans hv
      have hfat₁ : s₁.fat = s.fat := congrArg Volume.fat hv₁
      rw [if_pos rfl, hv] at hbuf
      rw [if_pos rfl]
      refine Sat.get_bind ?_
      rw [chainEntries_cons, scanForName_append] at hscan
      simp only [hbuf]
      cases hs : scanForName name
          (clusterEntries env.geometry (s.volume env.geometry) cl) index lfn with
      | endMark =>
        rw [hs] at hscan
        refine Sat.raise ⟨hv₁, .inl ⟨rfl, ?_⟩⟩
        intro x hx
        rw [← hscan] at hx
        cases hx
      | more lfn' =>
        rw [hs] at hscan
        simp only [clusterEntries_length] at hscan ⊢
        rw [List.length_cons, Nat.add_mul, Nat.one_mul] at hindex
        exact Sat.pure ⟨l'.length, Nat.lt_succ_self _, hv₁, l', by rw [hfat₁]; exact hrest, rfl,
          hscan, by simp only; omega⟩
      | found x =>
        obtain ⟨j, e, lfn'⟩ := x
        rw [hs] at hscan
        have hj := scanForName_found hscan.symm
        simp only
        refine Sat.ite (fun hatt => ?_) (fun hatt => ?_)
        · refine Sat.bind (countLfnEntries_sat h j s₁ rfl hv₁ (by omega)) (fun _ _ h => h.elim) ?_
          rintro count s₂ ⟨h₁, h₂⟩
          exact Sat.pure ⟨h₁, rfl, lfn', hscan.symm, by rw [if_pos hatt]; exact h₂⟩
        · exact Sat.pure ⟨hv₁, rfl, lfn', hscan.symm, by rw [if_neg hatt]⟩

/-! ## The other scans -/

/-- `short_name_exists_in_directory`, exact unless the device has failed. -/
theorem shortNameExistsInDirectory_sat (hfuel : env.geometry.totalClusters < env.fuel)
    (h : Chain env.geometry s.fat d l) {shortName : List UInt8} {ignore : Option (List UInt8)} :
    Sat (shortNameExistsInDirectory env d shortName ignore) s
      (fun b s' => s'.volume env.geometry = s.volume env.geometry ∧
        ((b = true ↔ scanForShortName shortName ignore
          (chainEntries env.geometry (s.volume env.geometry) l) = .found ()) ∨ env.Faulty))
      (fun _ _ => False) := by
  refine Sat.loop (fun k x st => st.volume env.geometry = s.volume env.geometry ∧
    ∃ l', Chain env.geometry s.fat x l' ∧ k = l'.length ∧
      (scanForShortName shortName ignore
          (chainEntries env.geometry (s.volume env.geometry) l') = .found () ↔
        scanForShortName shortName ignore
          (chainEntries env.geometry (s.volume env.geometry) l) = .found ()))
    ?_ env.fuel l.length _ s (Nat.lt_trans h.length_lt hfuel) ⟨rfl, l, h, rfl, Iff.rfl⟩
  rintro k cl st ⟨hv, l', hch, rfl, hscan⟩
  cases l' with
  | nil =>
    simp only [end_not_inChain (chain_nil.mp hch)]
    exact Sat.pure ⟨hv, .inl ⟨fun hf => Bool.noConfusion hf, fun hf => by cases hscan.mpr hf⟩⟩
  | cons c l' =>
    obtain ⟨rfl, hc, hrest⟩ := chain_cons.mp hch
    simp only [valid_inChain hc, if_true]
    refine Sat.bind (readCluster_entries hc) (fun _ _ h => h.elim) ?_
    rintro (_ | _) s₁ ⟨hv₁, hbuf⟩
    · exact Sat.pure ⟨hv₁.trans hv, .inr hbuf⟩
    · have hv₁ := hv₁.trans hv
      have hfat₁ : s₁.fat = s.fat := congrArg Volume.fat hv₁
      rw [if_pos rfl, hv] at hbuf
      rw [if_pos rfl]
      refine Sat.get_bind ?_
      rw [chainEntries_cons, scanForShortName_append] at hscan
      simp only [hbuf]
      cases hs : scanForShortName shortName ignore
          (clusterEntries env.geometry (s.volume env.geometry) cl) with
      | endMark =>
        rw [hs] at hscan
        exact Sat.pure ⟨hv₁, .inl ⟨fun hf => Bool.noConfusion hf,
          fun hf => by cases hscan.mpr hf⟩⟩
      | more lfn' =>
        rw [hs] at hscan
        exact Sat.pure ⟨l'.length, Nat.lt_succ_self _, hv₁, l', by rw [hfat₁]; exact hrest, rfl,
          hscan⟩
      | found x =>
        rw [hs] at hscan
        exact Sat.pure ⟨hv₁, .inl ⟨fun _ => hscan.mp rfl, fun _ => rfl⟩⟩

/-- `directory_is_empty`; a failing device makes it answer no. -/
theorem directoryIsEmpty_sat (hfuel : env.geometry.totalClusters < env.fuel)
    (h : Chain env.geometry s.fat d l) :
    Sat (directoryIsEmpty env d) s
      (fun b s' => s'.volume env.geometry = s.volume env.geometry ∧
        (b = true → scanForContent (chainEntries env.geometry (s.volume env.geometry) l) .initial
          ≠ .found ()) ∧
        (b = false → scanForContent (chainEntries env.geometry (s.volume env.geometry) l) .initial
          = .found () ∨ env.Faulty))
      (fun _ _ => False) := by
  refine Sat.loop (fun k x st => st.volume env.geometry = s.volume env.geometry ∧
    ∃ l', Chain env.geometry s.fat x.1 l' ∧ k = l'.length ∧
      (scanForContent (chainEntries env.geometry (s.volume env.geometry) l') x.2 = .found () ↔
        scanForContent (chainEntries env.geometry (s.volume env.geometry) l) .initial
          = .found ()))
    ?_ env.fuel l.length _ s (Nat.lt_trans h.length_lt hfuel) ⟨rfl, l, h, rfl, Iff.rfl⟩
  rintro k ⟨cl, lfn⟩ st ⟨hv, l', hch, rfl, hscan⟩
  simp only at hch hscan ⊢
  cases l' with
  | nil =>
    simp only [end_not_inChain (chain_nil.mp hch)]
    exact Sat.pure ⟨hv, ⟨fun _ hf => (by cases hscan.mpr hf), fun hf => Bool.noConfusion hf⟩⟩
  | cons c l' =>
    obtain ⟨rfl, hc, hrest⟩ := chain_cons.mp hch
    simp only [valid_inChain hc, if_true]
    refine Sat.bind (readCluster_entries hc) (fun _ _ h => h.elim) ?_
    rintro (_ | _) s₁ ⟨hv₁, hbuf⟩
    · exact Sat.pure ⟨hv₁.trans hv, fun hf => Bool.noConfusion hf, fun _ => .inr hbuf⟩
    · have hv₁ := hv₁.trans hv
      have hfat₁ : s₁.fat = s.fat := congrArg Volume.fat hv₁
      rw [if_pos rfl, hv] at hbuf
      rw [if_pos rfl]
      refine Sat.get_bind ?_
      rw [chainEntries_cons, scanForContent_append] at hscan
      simp only [hbuf]
      cases hs : scanForContent
          (clusterEntries env.geometry (s.volume env.geometry) cl) lfn with
      | endMark =>
        rw [hs] at hscan
        exact Sat.pure ⟨hv₁, ⟨fun _ hf => (by cases hscan.mpr hf), fun hf => Bool.noConfusion hf⟩⟩
      | more lfn' =>
        rw [hs] at hscan
        exact Sat.pure ⟨l'.length, Nat.lt_succ_self _, hv₁, l', by rw [hfat₁]; exact hrest, rfl,
          hscan⟩
      | found x =>
        rw [hs] at hscan
        exact Sat.pure ⟨hv₁, fun hf => Bool.noConfusion hf, fun _ => .inl (hscan.mp rfl)⟩

/-- `list_cluster_dir` hands the callback what one scan over all slots hands it. -/
theorem listClusterDir_sat (hfuel : env.geometry.totalClusters < env.fuel)
    (h : Chain env.geometry s.fat d l) {κ : Type} {callback : κ → Fat32NodeInfo → κ × Bool}
    {context : κ} :
    Sat (listClusterDir env d callback context) s
      (fun a s' => s'.volume env.geometry = s.volume env.geometry ∧
        a = (scanForListing callback (chainEntries env.geometry (s.volume env.geometry) l)
          .initial context).2)
      (fun e s' => s'.volume env.geometry = s.volume env.geometry ∧ e = .ioError ∧
        env.Faulty) := by
  refine Sat.loop (fun k x st => st.volume env.geometry = s.volume env.geometry ∧
    ∃ l', Chain env.geometry s.fat x.1 l' ∧ k = l'.length ∧
      (scanForListing callback (chainEntries env.geometry (s.volume env.geometry) l')
          x.2.1 x.2.2).2 =
        (scanForListing callback (chainEntries env.geometry (s.volume env.geometry) l)
          .initial context).2)
    ?_ env.fuel l.length _ s (Nat.lt_trans h.length_lt hfuel) ⟨rfl, l, h, rfl, rfl⟩
  rintro k ⟨cl, lfn, ctx⟩ st ⟨hv, l', hch, rfl, hscan⟩
  simp only at hch hscan ⊢
  cases l' with
  | nil =>
    simp only [end_not_inChain (chain_nil.mp hch)]
    exact Sat.pure ⟨hv, hscan⟩
  | cons c l' =>
    obtain ⟨rfl, hc, hrest⟩ := chain_cons.mp hch
    simp only [valid_inChain hc, if_true]
    refine Sat.bind (readCluster_entries hc) (fun _ _ h => h.elim) ?_
    rintro (_ | _) s₁ ⟨hv₁, hbuf⟩
    · exact Sat.raise ⟨hv₁.trans hv, rfl, hbuf⟩
    · have hv₁ := hv₁.trans hv
      have hfat₁ : s₁.fat = s.fat := congrArg Volume.fat hv₁
      rw [if_pos rfl, hv] at hbuf
      rw [if_pos rfl]
      refine Sat.get_bind ?_
      rw [chainEntries_cons, scanForListing_append] at hscan
      simp only [hbuf]
      generalize scanForListing callback
          (clusterEntries env.geometry (s.volume env.geometry) cl) lfn ctx = scanned at hscan ⊢
      obtain ⟨result, ctx'⟩ := scanned
      cases result with
      | endMark => exact Sat.pure ⟨hv₁, hscan⟩
      | more lfn' =>
        exact Sat.pure ⟨l'.length, Nat.lt_succ_self _, hv₁, l', by rw [hfat₁]; exact hrest, rfl,
          hscan⟩
      | found x => exact Sat.pure ⟨hv₁, hscan⟩

/-! ## Finding free slots -/

/-- What the search for `needed` free slots in a row says about the slots `es`: where such a
run starts, or (`.inl`) where one starts once more free slots follow. -/
def FreeSearch (es : List DirectoryEntry) (needed : Nat) : Nat ⊕ Nat → Prop
  | .inr start => scanForFree needed es 0 ⟨0, 0⟩ = .inr start
  | .inl start => ∃ run, scanForFree needed es 0 ⟨0, 0⟩ = .inl run ∧
      start = if run.count ≠ 0 then run.start else es.length

theorem searchFreeRun_sat (hfuel : env.geometry.totalClusters < env.fuel)
    (h : Chain env.geometry s.fat d l) {needed : Nat} :
    Sat (searchFreeRun env d needed) s
      (fun r s' => s'.volume env.geometry = s.volume env.geometry ∧
        FreeSearch (chainEntries env.geometry (s.volume env.geometry) l) needed r)
      (fun e s' => s'.volume env.geometry = s.volume env.geometry ∧ e = .ioError ∧
        env.Faulty) := by
  refine Sat.loop (fun k x st => st.volume env.geometry = s.volume env.geometry ∧
    ∃ l', Chain env.geometry s.fat x.1 l' ∧ k = l'.length ∧
      scanForFree needed (chainEntries env.geometry (s.volume env.geometry) l') x.2.1 x.2.2
        = scanForFree needed (chainEntries env.geometry (s.volume env.geometry) l) 0 ⟨0, 0⟩ ∧
      x.2.1 + l'.length * env.geometry.entriesPerCluster
        = (chainEntries env.geometry (s.volume env.geometry) l).length)
    ?_ env.fuel l.length _ s (Nat.lt_trans h.length_lt hfuel)
    ⟨rfl, l, h, rfl, rfl, by rw [chainEntries_length, Nat.zero_add]⟩
  rintro k ⟨cl, index, run⟩ st ⟨hv, l', hch, rfl, hscan, hindex⟩
  simp only at hch hscan hindex ⊢
  cases l' with
  | nil =>
    rw [end_not_inChain (chain_nil.mp hch)]
    simp only [List.length_nil, Nat.zero_mul, Nat.add_zero] at hindex
    exact Sat.pure ⟨hv, run, hscan.symm, by rw [hindex]⟩
  | cons c l' =>
    obtain ⟨rfl, hc, hrest⟩ := chain_cons.mp hch
    rw [valid_inChain hc, if_pos rfl]
    refine Sat.bind (readCluster_entries hc) (fun _ _ h => h.elim) ?_
    rintro (_ | _) s₁ ⟨hv₁, hbuf⟩
    · exact Sat.raise ⟨hv₁.trans hv, rfl, hbuf⟩
    · have hv₁ := hv₁.trans hv
      have hfat₁ : s₁.fat = s.fat := congrArg Volume.fat hv₁
      rw [if_pos rfl, hv] at hbuf
      rw [if_pos rfl]
      refine Sat.get_bind ?_
      rw [chainEntries_cons, scanForFree_append] at hscan
      simp only [hbuf]
      cases hs : scanForFree needed
          (clusterEntries env.geometry (s.volume env.geometry) cl) index run with
      | inr start =>
        rw [hs] at hscan
        exact Sat.pure ⟨hv₁, hscan.symm⟩
      | inl run' =>
        rw [hs] at hscan
        simp only [clusterEntries_length, hfat₁] at hscan ⊢
        rw [List.length_cons, Nat.add_mul, Nat.one_mul] at hindex
        refine Sat.ite (fun hend => ?_) (fun hend => ?_)
        · obtain rfl : l' = [] := by
            cases l' with
            | nil => rfl
            | cons z l' => exact absurd hend (valid_not_end (hrest.head_valid (by simp)))
          simp only [List.length_nil, Nat.zero_mul, Nat.zero_add] at hindex
          exact Sat.pure ⟨hv₁, run', hscan.symm, by rw [hindex]⟩
        · exact Sat.pure ⟨l'.length, Nat.lt_succ_self _, hv₁, l', hrest, rfl, hscan, by
            simp only; omega⟩

/-- How `find_free_entry_in_cluster_dir` finds room: among the slots there are, or in a
cleared cluster linked behind them. -/
inductive RoomFound (g : Geometry) (v v' : Volume) (d : Nat) (l : List Nat) (needed start : Nat) :
    Prop
  | inside (same : v' = v) (search : FreeSearch (chainEntries g v l) needed (.inr start))
  | extended (c : Nat) (v₁ : Volume) (search : FreeSearch (chainEntries g v l) needed (.inl start))
      (grown : Appended g v v₁ l d c) (cleared : v' = v₁.setData g c (fun _ => 0))

/-- How it fails: without space, or (with a failing device) possibly with a new cluster
already linked. -/
inductive RoomFailed (env : Env) (v v' : Volume) (d : Nat) (l : List Nat) (needed : Nat) :
    Fat32Result → Prop
  | noSpace (same : v' = v) (full : freeClusters env.geometry v.fat = []) (start : Nat)
      (search : FreeSearch (chainEntries env.geometry v l) needed (.inl start)) :
      RoomFailed env v v' d l needed .noSpace
  | early (fault : env.Faulty) (same : v' = v) : RoomFailed env v v' d l needed .ioError
  | late (fault : env.Faulty) (c : Nat) (v₁ : Volume) (grown : Appended env.geometry v v₁ l d c)
      (written : v' = v₁ ∨ v' = v₁.setData env.geometry c (fun _ => 0)) :
      RoomFailed env v v' d l needed .ioError

theorem findFreeEntryInClusterDir_sat (hfuel : env.geometry.totalClusters < env.fuel)
    (hl : l ≠ []) (h : Chain env.geometry s.fat d l) {needed : Nat} :
    Sat (findFreeEntryInClusterDir env d needed) s
      (fun start s' => RoomFound env.geometry (s.volume env.geometry) (s'.volume env.geometry)
        d l needed start)
      (fun e s' => RoomFailed env (s.volume env.geometry) (s'.volume env.geometry) d l needed e) := by
  refine Sat.bind (searchFreeRun_sat hfuel h) ?_ ?_
  · rintro e s₁ ⟨hv, rfl, hfault⟩
    exact .early hfault hv
  · rintro (start | start) s₁ ⟨hv, hsearch⟩
    · have hfat : s₁.fat = s.fat := congrArg Volume.fat hv
      simp only
      refine Sat.bind (appendClusterToChain_sat hfuel hl (by rw [hfat]; exact h)) ?_ ?_
      · rintro e s₂ ⟨rfl, hv₂, hnil⟩
        rw [hfat] at hnil
        exact .noSpace (hv₂.trans hv) hnil start hsearch
      · rintro c s₂ happ
        rw [hv] at happ
        have hc := (mem_freeClusters.mp happ.free).1
        refine Sat.bind (zeroCluster_sat hc) ?_ ?_
        · rintro e s₃ ⟨rfl, hfault, hv₃⟩
          exact .late hfault c _ happ (.inl hv₃)
        · rintro ⟨⟩ s₃ hv₃
          refine Sat.bind flushFat_sat (fun _ _ h => h.elim) ?_
          rintro (_ | _) s₄ ⟨hv₄, hfault⟩
          · exact Sat.raise (.late (hfault rfl) c _ happ (.inr (hv₄.trans hv₃)))
          · exact Sat.pure (.extended c _ hsearch happ (hv₄.trans hv₃))
    · exact Sat.pure (.inside hv hsearch)

/-! ## Writing slots -/

/-- `write_entry_span_at`; a failing device stops it after some of the slots. -/
theorem writeEntrySpanAt_sat {new : List DirectoryEntry} {start : Nat} {s : State}
    (h : Chain env.geometry s.fat d l)
    (hfit : start + new.length
      ≤ (chainEntries env.geometry (s.volume env.geometry) l).length) :
    Sat (writeEntrySpanAt env d start new) s
      (fun _ s' => Edited env.geometry (s.volume env.geometry) (s'.volume env.geometry) l
        (setSpan (chainEntries env.geometry (s.volume env.geometry) l) start new))
      (fun e s' => e = .ioError ∧ env.Faulty ∧ ∃ j < new.length,
        Edited env.geometry (s.volume env.geometry) (s'.volume env.geometry) l
          (setSpan (chainEntries env.geometry (s.volume env.geometry) l) start
            (new.take j))) := by
  induction new generalizing start s with
  | nil =>
    refine Sat.pure ?_
    rw [setSpan_nil]
    exact Edited.refl
  | cons e new ih =>
    rw [List.length_cons] at hfit
    have hstart : start < (chainEntries env.geometry (s.volume env.geometry) l).length := by
      omega
    unfold writeEntrySpanAt
    refine Sat.bind (writeDirectoryEntry_sat h hstart) ?_ ?_
    · rintro err s₁ ⟨hv, rfl, hfault⟩
      refine ⟨rfl, hfault, 0, by simp, ?_⟩
      rw [List.take_zero, setSpan_nil, hv]
      exact Edited.refl
    · rintro ⟨⟩ s₁ hed
      have hfat : s₁.fat = s.fat := hed.fat
      refine Sat.mono (ih (s := s₁) (by rw [hfat]; exact h) ?_) ?_ ?_
      · rw [hed.entries, List.length_set]; omega
      · rintro ⟨⟩ s₂ hed₂
        rw [hed.entries, setSpan_cons hstart] at hed₂
        exact hed.trans hed₂
      · rintro err s₂ ⟨rfl, hfault, j, hj, hed₂⟩
        rw [hed.entries, setSpan_cons hstart] at hed₂
        exact ⟨rfl, hfault, j + 1, by simpa using hj, hed.trans hed₂⟩

/-- The slots with `count` of them marked as deleted. -/
def deleteSpan (es : List DirectoryEntry) (start count : Nat) : List DirectoryEntry :=
  setSpan es start (((es.drop start).take count).map .setDeleted)

/-- `mark_entry_range_deleted`; a failing device stops it after some of the slots. -/
theorem markEntryRangeDeleted_sat {count start : Nat} {s : State}
    (h : Chain env.geometry s.fat d l)
    (hfit : start + count ≤ (chainEntries env.geometry (s.volume env.geometry) l).length) :
    Sat (markEntryRangeDeleted env d start count) s
      (fun _ s' => Edited env.geometry (s.volume env.geometry) (s'.volume env.geometry) l
        (deleteSpan (chainEntries env.geometry (s.volume env.geometry) l) start count))
      (fun e s' => e = .ioError ∧ env.Faulty ∧ ∃ j < count,
        Edited env.geometry (s.volume env.geometry) (s'.volume env.geometry) l
          (deleteSpan (chainEntries env.geometry (s.volume env.geometry) l) start j)) := by
  induction count generalizing start s with
  | zero =>
    refine Sat.pure ?_
    simp only [deleteSpan, List.take_zero, List.map_nil, setSpan_nil]
    exact Edited.refl
  | succ count ih =>
    have hstart : start < (chainEntries env.geometry (s.volume env.geometry) l).length := by
      omega
    have hnone : Edited env.geometry (s.volume env.geometry) (s.volume env.geometry) l
        (deleteSpan (chainEntries env.geometry (s.volume env.geometry) l) start 0) := by
      simp only [deleteSpan, List.take_zero, List.map_nil, setSpan_nil]
      exact Edited.refl
    -- one slot deleted, then `n` more
    have hstep : ∀ n, deleteSpan ((chainEntries env.geometry (s.volume env.geometry) l).set start
          (chainEntries env.geometry (s.volume env.geometry) l)[start].setDeleted) (start + 1) n
        = deleteSpan (chainEntries env.geometry (s.volume env.geometry) l) start (n + 1) := by
      intro n
      simp only [deleteSpan]
      rw [setSpan_cons hstart, List.drop_set, if_pos (Nat.lt_succ_self _),
        List.drop_eq_getElem_cons hstart, List.take_succ_cons, List.map_cons]
    unfold markEntryRangeDeleted
    refine Sat.bind (readDirectoryEntry_sat h hstart) ?_ ?_
    · rintro err s₁ ⟨hv, rfl, hfault⟩
      rw [← hv] at hnone
      exact ⟨rfl, hfault, 0, Nat.succ_pos _, by rw [hv] at hnone ⊢; exact hnone⟩
    · rintro e s₁ ⟨hv, he⟩
      have hfat : s₁.fat = s.fat := congrArg Volume.fat hv
      rw [List.getElem?_eq_getElem hstart] at he
      obtain rfl := Option.some.inj he
      refine Sat.bind (writeDirectoryEntry_sat (by rw [hfat]; exact h)
        (by rw [hv]; exact hstart)) ?_ ?_
      · rintro err s₂ ⟨hv₂, rfl, hfault⟩
        exact ⟨rfl, hfault, 0, Nat.succ_pos _, by rw [hv₂, hv]; exact hnone⟩
      · rintro ⟨⟩ s₂ hed
        rw [hv] at hed
        have hfat₂ : s₂.fat = s.fat := hed.fat
        refine Sat.mono (ih (s := s₂) (by rw [hfat₂]; exact h) ?_) ?_ ?_
        · rw [hed.entries, List.length_set]; omega
        · rintro ⟨⟩ s₃ hed₃
          rw [hed.entries, hstep] at hed₃
          exact hed.trans hed₃
        · rintro err s₃ ⟨rfl, hfault, j, hj, hed₃⟩
          rw [hed.entries, hstep] at hed₃
          exact ⟨rfl, hfault, j + 1, by omega, hed.trans hed₃⟩

/-- `update_directory_parent` rewrites the cluster number in slot 1. -/
theorem updateDirectoryParent_sat {parent : Nat} (hl : l ≠ [])
    (h : Chain env.geometry s.fat d l) :
    Sat (updateDirectoryParent env d parent) s
      (fun _ s' => Edited env.geometry (s.volume env.geometry) (s'.volume env.geometry) l
        ((chainEntries env.geometry (s.volume env.geometry) l).set 1
          (((chainEntries env.geometry (s.volume env.geometry) l).getD 1
            .zero).entrySetFirstCluster parent)))
      (fun e s' => s'.volume env.geometry = s.volume env.geometry ∧ e = .ioError ∧
        env.Faulty) := by
  have hge := env.geometry.entriesPerCluster_ge
  have hmul := env.geometry.entriesPerCluster_mul
  have hd := h.head_valid hl
  obtain ⟨x, l', rfl⟩ := List.exists_cons_of_ne_nil hl
  obtain ⟨rfl, -, -⟩ := chain_cons.mp h
  have hdiv : 1 / env.geometry.entriesPerCluster = 0 := Nat.div_eq_of_lt (by omega)
  have hmod : 1 % env.geometry.entriesPerCluster = 1 := Nat.mod_eq_of_lt (by omega)
  have h1 : 1 < (chainEntries env.geometry (s.volume env.geometry) (d :: l')).length := by
    rw [chainEntries_length, List.length_cons, Nat.add_mul]; omega
  refine Sat.bind (readCluster_sat hd) (fun _ _ h => h.elim) ?_
  rintro (_ | _) s₁ ⟨hv, hbuf⟩
  · exact Sat.raise ⟨hv, rfl, hbuf⟩
  · refine Sat.modify_bind ?_
    refine Sat.bind (writeCluster_sat hd) (fun _ _ h => h.elim) ?_
    rintro (_ | _) s₂ h₂
    · exact Sat.raise ⟨h₂.1.trans hv, rfl, h₂.2⟩
    · refine Sat.pure ?_
      simp only [if_true, State.volume_clusterBuffer, hv] at h₂ hbuf
      have hslot : (chainEntries env.geometry (s.volume env.geometry) (d :: l')).getD 1 .zero
          = bufferEntry s₁.clusterBuffer 1 := by
        rw [List.getD_eq_getElem?_getD, chainEntries_getElem? (by simp [hdiv])]
        refine DirectoryEntry.ext fun k => ?_
        have hk := k.isLt
        simp only [hdiv, hmod, List.getElem_cons_zero, Option.getD_some, bufferEntry]
        exact (hbuf _ (by omega)).symm
      rw [h₂, hslot]
      have := edited_of_setData (v := s.volume env.geometry)
        (e := (bufferEntry s₁.clusterBuffer 1).entrySetFirstCluster parent) h.nodup h1
        (c := d) (by simp [hdiv]) hbuf
      rwa [hmod] at this

/-! ## Building the slots of a name -/

theorem aliasDigits_length_le (room n : Nat) : (aliasDigits room n).length ≤ room := by
  induction room generalizing n with
  | zero => exact Nat.le_refl _
  | succ room ih =>
    simp only [aliasDigits, List.length_cons]
    split
    · simp
    · have := ih (n / 10); omega

theorem lt_aliasDigits_length (room : Nat) {n k : Nat} (hk : k < room) (hn : 10 ^ k ≤ n) :
    k < (aliasDigits room n).length := by
  induction k generalizing room n with
  | zero =>
    obtain ⟨r, rfl⟩ : ∃ r, room = r + 1 := ⟨room - 1, by omega⟩
    simp [aliasDigits]
  | succ k ih =>
    obtain ⟨r, rfl⟩ : ∃ r, room = r + 1 := ⟨room - 1, by omega⟩
    have hdiv : 10 ^ k ≤ n / 10 := (Nat.le_div_iff_mul_le (by decide)).mpr (by
      rw [← Nat.pow_succ]; exact hn)
    have hpos : 0 < 10 ^ k := Nat.pow_pos (by decide)
    rw [aliasDigits, if_neg (by omega), List.length_cons]
    exact Nat.succ_lt_succ (ih r (by omega) hdiv)

/-- An alias with ten digits does not fit into its eleven bytes. -/
theorem buildShortAlias_limit {name : CStr} {ordinal : Nat} (h : aliasLimit ≤ ordinal) :
    buildShortAlias name ordinal = none := by
  have hle := aliasDigits_length_le 10 ordinal
  have hlt := lt_aliasDigits_length 10 (k := 9) (by decide)
    (show 10 ^ 9 ≤ ordinal from h)
  have hlen : (aliasDigits 10 ordinal).length = 10 := by omega
  have hbase : ∀ base : List UInt8, base ≠ [] → 1 ≤ base.length :=
    fun base hb => List.length_pos_of_ne_nil hb
  unfold buildShortAlias
  simp only [hlen]
  rw [if_neg]
  simp only [List.length_append, List.length_take, List.length_cons, List.length_reverse, hlen]
  have := hbase (if (aliasParts (lastDotIndex name) name 0 [] []).1 = [] then [0x46]
    else (aliasParts (lastDotIndex name) name 0 [] []).1) (by split <;> simp_all)
  omega

/-- The slots that `build_name_entries` makes for a name: one with the exact short name, or a
long-name set before one with an alias. -/
inductive NameEntries (name : CStr) (attributes : UInt8) (firstCluster size : Nat)
    (shortName : List UInt8) : List DirectoryEntry → Prop
  | short (exact : makeShortNameIfPossible name = some shortName) :
      NameEntries name attributes firstCluster size shortName
        [buildShortEntry shortName attributes firstCluster size]
  | long (ordinal : Nat) (made : buildShortAlias name ordinal = some shortName) :
      NameEntries name attributes firstCluster size shortName
        (buildLfnEntries name (shortNameChecksum shortName) (lfnEntryCountForName name)
          ++ [buildShortEntry shortName attributes firstCluster size])

/-- The short name is not taken in the directory, unless the device has failed. -/
def ShortNameFree (env : Env) (es : List DirectoryEntry) (shortName : List UInt8)
    (ignore : Option (List UInt8)) : Prop :=
  scanForShortName shortName ignore es ≠ .found () ∨ env.Faulty

theorem chooseAlias_sat (hfuel : env.geometry.totalClusters < env.fuel)
    (h : Chain env.geometry s.fat d l) {name : CStr} {ignore : Option (List UInt8)} :
    Sat (chooseAlias env d name ignore) s
      (fun shortName s' => s'.volume env.geometry = s.volume env.geometry ∧
        (∃ ordinal, buildShortAlias name ordinal = some shortName) ∧
        ShortNameFree env (chainEntries env.geometry (s.volume env.geometry) l)
          shortName ignore)
      (fun _ _ => False) := by
  refine Sat.loop (fun k ordinal st => k = aliasLimit - ordinal ∧
    st.volume env.geometry = s.volume env.geometry) ?_ aliasLimit (aliasLimit - 1) 1 s
    (by decide) ⟨rfl, rfl⟩
  rintro k ordinal st ⟨rfl, hv⟩
  have hfat : st.fat = s.fat := congrArg Volume.fat hv
  cases halias : buildShortAlias name ordinal with
  | none => exact Sat.fault
  | some shortName =>
    have hlt : ordinal < aliasLimit := by
      by_contra hge
      rw [buildShortAlias_limit (Nat.le_of_not_lt hge)] at halias
      cases halias
    simp only
    refine Sat.bind (shortNameExistsInDirectory_sat hfuel (by rw [hfat]; exact h))
      (fun _ _ h => h) ?_
    rintro (_ | _) s₁ ⟨hv₁, hexists⟩
    · refine Sat.pure ⟨hv₁.trans hv, ⟨ordinal, halias⟩, ?_⟩
      rw [hv] at hexists
      exact hexists.imp_left (fun hiff hf => by simpa using hiff.mpr hf)
    · exact Sat.pure ⟨aliasLimit - (ordinal + 1), by omega, rfl, hv₁.trans hv⟩

/-- The number of slots that `build_name_entries` makes in a directory with the slots `es`. -/
def slotsNeeded (es : List DirectoryEntry) (name : CStr) (ignore : Option (List UInt8)) : Nat :=
  match makeShortNameIfPossible name with
  | none => lfnEntryCountForName name + 1
  | some shortName =>
    match scanForShortName shortName ignore es with
    | .found () => lfnEntryCountForName name + 1
    | _ => 1

theorem buildLfnEntries_length {name : CStr} {sum : UInt8} {count : Nat} :
    (buildLfnEntries name sum count).length = count := by
  simp [buildLfnEntries]

/-- What `build_name_entries` returns for a name. -/
structure NameBuilt (env : Env) (es : List DirectoryEntry) (name : CStr) (attributes : UInt8)
    (firstCluster size : Nat) (ignore : Option (List UInt8)) (shortName : List UInt8)
    (new : List DirectoryEntry) : Prop where
  entries : NameEntries name attributes firstCluster size shortName new
  unused : ShortNameFree env es shortName ignore
  length : new.length = slotsNeeded es name ignore ∨ env.Faulty

/-- `build_name_entries` on a valid name. -/
theorem buildNameEntries_sat (hfuel : env.geometry.totalClusters < env.fuel)
    (h : Chain env.geometry s.fat d l) {name : CStr} (hname : validateLongName name = true)
    {attributes : UInt8} {firstCluster size : Nat} {ignore : Option (List UInt8)} :
    Sat (buildNameEntries env d name attributes firstCluster size ignore) s
      (fun new s' => s'.volume env.geometry = s.volume env.geometry ∧
        ∃ shortName, NameBuilt env (chainEntries env.geometry (s.volume env.geometry) l) name
          attributes firstCluster size ignore shortName new)
      (fun _ _ => False) := by
  have hcount : ¬ lfnEntryCountForName name + 1 > maxNameEntries := by
    have hlen : name.length < nameCapacity := by
      simp only [validateLongName, Bool.and_eq_true, decide_eq_true_eq] at hname
      exact hname.1.1.1.2
    simp only [nameCapacity] at hlen
    simp only [lfnEntryCountForName, maxNameEntries]
    omega
  have hlong : ∀ s₁ : State, s₁.volume env.geometry = s.volume env.geometry →
      (slotsNeeded (chainEntries env.geometry (s.volume env.geometry) l) name ignore
        = lfnEntryCountForName name + 1 ∨ env.Faulty) →
      Sat (do
        let shortName ← chooseAlias env d name ignore
        let lfnCount := lfnEntryCountForName name
        if lfnCount + 1 > maxNameEntries then raise .invalidName
        else
          pure (buildLfnEntries name (shortNameChecksum shortName) lfnCount
            ++ [buildShortEntry shortName attributes firstCluster size])) s₁
        (fun new s' => s'.volume env.geometry = s.volume env.geometry ∧
          ∃ shortName, NameBuilt env (chainEntries env.geometry (s.volume env.geometry) l) name
            attributes firstCluster size ignore shortName new)
        (fun _ _ => False) := by
    intro s₁ hv hneed
    have hfat : s₁.fat = s.fat := congrArg Volume.fat hv
    refine Sat.bind (chooseAlias_sat hfuel (by rw [hfat]; exact h)) (fun _ _ h => h) ?_
    rintro shortName s₂ ⟨hv₂, ⟨ordinal, halias⟩, hfree⟩
    rw [hv] at hfree
    simp only [if_neg hcount]
    refine Sat.pure ⟨hv₂.trans hv, shortName, .long ordinal halias, hfree,
      hneed.imp_left fun hn => ?_⟩
    rw [hn, List.length_append, buildLfnEntries_length]
    rfl
  unfold buildNameEntries
  rw [if_pos hname]
  cases hexact : makeShortNameIfPossible name with
  | none => exact hlong s rfl (.inl (by simp only [slotsNeeded, hexact]))
  | some shortName =>
    simp only
    refine Sat.bind (shortNameExistsInDirectory_sat hfuel h) (fun _ _ h => h.elim) ?_
    rintro (_ | _) s₁ ⟨hv, hexists⟩
    · refine Sat.pure ⟨hv, shortName, .short hexact,
        hexists.imp_left (fun hiff hf => by simpa using hiff.mpr hf),
        hexists.imp_left fun hiff => ?_⟩
      have hnot : scanForShortName shortName ignore
          (chainEntries env.geometry (s.volume env.geometry) l) ≠ .found () :=
        fun hf => by simpa using hiff.mpr hf
      simp only [slotsNeeded, hexact]
      cases hs : scanForShortName shortName ignore
          (chainEntries env.geometry (s.volume env.geometry) l) with
      | found => exact absurd hs hnot
      | endMark => rfl
      | more => rfl
    · refine hlong s₁ hv (hexists.imp_left fun hiff => ?_)
      simp only [slotsNeeded, hexact, hiff.mp rfl]

end

end FunnyOS.Fat32
