import FunnyOS.Fat32.Operations

/-!
# A test for well-formed volumes

`checkVolume g v ds` decides for a concrete volume whether it is well formed, given the list `ds` of
its directories, and `checkRegular` whether it is also regular. Both are sound.
-/

namespace FunnyOS.Fat32

/-! ## Chains -/

/-- The walk from `c` ends in an end-of-chain value. -/
def walkEnds (g : Geometry) (fat : Nat → Nat) : Nat → Nat → Bool
  | 0, c => endOfChain ≤ c
  | room + 1, c =>
    if g.isValidDataCluster c then walkEnds g fat room (fat32NextCluster g fat c)
    else endOfChain ≤ c

/-- There is a chain with clusters from `c`. -/
def hasChain (g : Geometry) (fat : Nat → Nat) (c : Nat) : Bool :=
  g.isValidDataCluster c && walkEnds g fat g.totalClusters c

section

variable {g : Geometry} {v : Volume} {fat : Nat → Nat} {c room : Nat} {ds : List Nat}
  {es : List DirectoryEntry} {e : DirectoryEntry}

theorem chain_of_walkEnds (h : walkEnds g fat room c = true) :
    Chain g fat c (walkClusters g fat room c) := by
  induction room generalizing c with
  | zero => exact chain_nil.mpr (by simpa [walkEnds] using h)
  | succ room ih =>
    unfold walkEnds at h
    unfold walkClusters
    split at h <;> rename_i hv
    · rw [if_pos hv]
      exact chain_cons.mpr ⟨rfl, hv, ih h⟩
    · rw [if_neg hv]
      exact chain_nil.mpr (by simpa using h)

theorem chain_of_hasChain (h : hasChain g fat c = true) :
    Chain g fat c (clusterChain g fat c) ∧ clusterChain g fat c ≠ [] := by
  simp only [hasChain, Bool.and_eq_true] at h
  have hch := chain_of_walkEnds h.2
  exact ⟨hch, hch.ne_nil_of_valid h.1⟩

end

/-! ## Slots -/

/-- `SetOk` as a test. -/
def setOkTest (next : SetState) (e : DirectoryEntry) : Bool :=
  match e.kind with
  | .endMark => false
  | .longName => e.lfnOrder ≠ 0 &&
    match next with
    | none => e.isLfnLast
    | some (n, sum) => !e.isLfnLast && e.lfnOrder = n && e.lfnChecksum = sum
  | .live => next = none || next = some (0, shortNameChecksum e.name)
  | .special => next = none && e.IsDot
  | _ => next = none

instance (next : SetState) (e : DirectoryEntry) : Decidable (SetOk next e) :=
  decidable_of_iff (setOkTest next e = true) <| by
    unfold setOkTest SetOk
    cases e.kind <;> rcases next with _ | ⟨n, sum⟩ <;> simp [and_assoc]

/-- `Orderly` as a test. -/
def orderlyTest (es : List DirectoryEntry) : Bool :=
  let body := es.takeWhile (fun e => e.name0 != 0)
  decide (Checked setStep SetOk none body) && body.foldl setStep none = none &&
    (es.dropWhile (fun e => e.name0 != 0)).all (fun e => e.name0 == 0)

/-- `Decodable` as a test. -/
def decodableTest (es : List DirectoryEntry) : Bool :=
  es.all fun e => e.kind ≠ .longName || e.lfnUnits.all (fun u => (decodeLfnCharacter u).isSome)

/-- `Snug` as a test. -/
def snugTest : List DirectoryEntry → Bool
  | a :: b :: rest =>
    (b.kind ≠ .longName || !(a.kind = .deleted && a.attributes = attrLfn)) && snugTest (b :: rest)
  | _ => true

/-- `HasParentSlot` as a test. -/
def parentSlotTest (es : List DirectoryEntry) : Bool := es[1]?.any (fun e => e.kind = .special)

section

variable {es : List DirectoryEntry}

theorem orderly_of_test (h : orderlyTest es = true) : Orderly es := by
  simp only [orderlyTest, Bool.and_eq_true, decide_eq_true_eq, List.all_eq_true, beq_iff_eq] at h
  exact ⟨_, _, (List.takeWhile_append_dropWhile ..).symm, h.1.1, h.1.2, h.2⟩

theorem orderly_iff : Orderly es ↔ orderlyTest es = true := by
  refine ⟨?_, orderly_of_test⟩
  rintro ⟨body, tail, rfl, hchecked, hfold, htail⟩
  have hbody : ∀ e ∈ body, (e.name0 != 0) = true := by
    intro e he
    refine hchecked.forall (p := fun e => (e.name0 != 0) = true) (fun st e hok => ?_) e he
    rw [bne_iff_ne]
    intro h0
    simp only [SetOk, DirectoryEntry.kind_endMark h0] at hok
  have htake : (body ++ tail).takeWhile (fun e => e.name0 != 0) = body ∧
      (body ++ tail).dropWhile (fun e => e.name0 != 0) = tail := by
    rw [List.takeWhile_append_of_pos hbody, List.dropWhile_append_of_pos hbody]
    cases tail with
    | nil => simp
    | cons e tail => simp [htail e (by simp)]
  simp only [orderlyTest, htake, Bool.and_eq_true, decide_eq_true_eq, List.all_eq_true, beq_iff_eq]
  exact ⟨⟨hchecked, hfold⟩, htail⟩

instance (es : List DirectoryEntry) : Decidable (Orderly es) :=
  decidable_of_iff _ orderly_iff.symm

theorem decodable_of_test (h : decodableTest es = true) : Decodable es := by
  intro e he hk
  have := List.all_eq_true.mp h e he
  simpa [hk] using this

theorem snug_of_test (h : snugTest es = true) : Snug es := by
  induction es with
  | nil => exact fun i a b ha => by simp at ha
  | cons x rest ih =>
    cases rest with
    | nil => exact fun i a b _ hb => by simp at hb
    | cons y rest =>
      simp only [snugTest, Bool.and_eq_true] at h
      intro i a b ha hb hk
      cases i with
      | zero =>
        obtain rfl : x = a := by simpa using ha
        obtain rfl : y = b := by simpa using hb
        have hx := h.1
        simp only [hk, ne_eq, not_true_eq_false, decide_false, Bool.false_or, Bool.not_eq_true',
          Bool.and_eq_false_iff, decide_eq_false_iff_not] at hx
        exact fun hd => hx.elim (absurd hd.1) (absurd hd.2)
      | succ i => exact ih h.2 i a b (by simpa using ha) (by simpa using hb) hk

theorem parentSlot_of_test (h : parentSlotTest es = true) : HasParentSlot es := by
  unfold parentSlotTest at h
  cases he : es[1]? with
  | none => simp [he] at h
  | some e => exact ⟨e, he, by simpa [he] using h⟩

end

/-! ## Volumes -/

/-- The chains of the volume with the directories `ds`, by owner. -/
def ownersOf (g : Geometry) (v : Volume) (ds : List Nat) : Owner → List Nat
  | .root => clusterChain g v.fat g.rootCluster
  | .slot d i =>
    if d ∈ ds then ((liveEntries g v d i).map fun e =>
      clusterChain g v.fat e.entryFirstCluster).getD []
    else []
  | .pending => []

/-- Everybody who can own a chain. -/
def ownerList (g : Geometry) (v : Volume) (ds : List Nat) : List Owner :=
  .root :: ds.flatMap fun d => (List.range (dirEntries g v d).length).map (.slot d)

/-- What is required of a live entry. -/
def entryTest (g : Geometry) (v : Volume) (ds : List Nat) (e : DirectoryEntry) : Bool :=
  if e.isDirectory then hasChain g v.fat e.entryFirstCluster && ds.contains e.entryFirstCluster
  else if e.entryFirstCluster = 0 then e.size = 0
  else e.size ≠ 0 && hasChain g v.fat e.entryFirstCluster &&
    clustersForSize g e.size ≤ (clusterChain g v.fat e.entryFirstCluster).length

/-- The directory is the root, or an entry names it. -/
def namedTest (g : Geometry) (v : Volume) (ds : List Nat) (d : Nat) : Bool :=
  d = g.rootCluster || ds.any fun d' => (dirEntries g v d').any fun e =>
    e.kind = .live && e.isDirectory && e.entryFirstCluster = d

/-- The test for well-formed volumes. -/
def checkVolume (g : Geometry) (v : Volume) (ds : List Nat) : Bool :=
  v.mounted && ds.contains g.rootCluster && hasChain g v.fat g.rootCluster &&
    ds.all (fun d => (dirEntries g v d).all fun e => e.kind ≠ .live || entryTest g v ds e) &&
    decide ((ownerList g v ds).flatMap (ownersOf g v ds)).Nodup && ds.all (namedTest g v ds) &&
    ds.all (fun d => orderlyTest (dirEntries g v d))

/-- The test for regular volumes. -/
def checkRegular (g : Geometry) (v : Volume) (ds : List Nat) : Bool :=
  ds.all fun d => decodableTest (dirEntries g v d) && snugTest (dirEntries g v d) &&
    (d = g.rootCluster || parentSlotTest (dirEntries g v d))

section

variable {g : Geometry} {v : Volume} {ds : List Nat} {d i c : Nat} {e : DirectoryEntry} {o : Owner}

theorem ownersOf_slot (hd : d ∈ ds) (he : liveEntries g v d i = some e) :
    ownersOf g v ds (.slot d i) = clusterChain g v.fat e.entryFirstCluster := by
  simp [ownersOf, hd, he]

/-- Who owns a cluster is in the list. -/
theorem mem_ownerList (hc : c ∈ ownersOf g v ds o) : o ∈ ownerList g v ds := by
  rcases o with _ | ⟨d, i⟩ | _
  · exact List.mem_cons_self
  · by_cases hd : d ∈ ds
    · cases he : liveEntries g v d i with
      | none => simp [ownersOf, he] at hc
      | some e =>
        have hi := (List.getElem?_eq_some_iff.mp (liveAt_eq_some.mp he).1).1
        refine List.mem_cons_of_mem _ (List.mem_flatMap.mpr ⟨d, hd, ?_⟩)
        exact List.mem_map.mpr ⟨i, List.mem_range.mpr hi, rfl⟩
    · simp [ownersOf, hd] at hc
  · simp [ownersOf] at hc

/-- What the test says of an entry. -/
theorem entryOk_of_test (h : entryTest g v ds e = true) :
    EntryOk g v.fat e (clusterChain g v.fat e.entryFirstCluster) ∧
      (e.isDirectory = true → e.entryFirstCluster ∈ ds) := by
  unfold entryTest at h
  split at h <;> rename_i hdir
  · simp only [Bool.and_eq_true, List.contains_iff_mem] at h
    obtain ⟨hch, hne⟩ := chain_of_hasChain h.1
    exact ⟨⟨.inr ⟨hne, hch⟩, fun _ => hne, by simp [hdir]⟩, fun _ => h.2⟩
  · refine ⟨?_, fun h => absurd h hdir⟩
    split at h <;> rename_i h0
    · have hs : e.size = 0 := by simpa using h
      refine ⟨.inl ⟨by rw [h0, clusterChain_zero], h0⟩, fun h => absurd h hdir, fun _ => ⟨?_, ?_⟩⟩
      · simp [h0, hs]
      · rw [hs]
        exact clustersForSize_zero.trans_le (Nat.zero_le _)
    · simp only [Bool.and_eq_true, decide_eq_true_eq, ne_eq] at h
      obtain ⟨hch, hne⟩ := chain_of_hasChain h.1.2
      exact ⟨.inr ⟨hne, hch⟩, fun h => absurd h hdir, fun _ => ⟨by simp [h0, h.1.1], h.2⟩⟩

/-- The test is sound. -/
theorem sound_of_check (h : checkVolume g v ds = true) :
    Sound (Tidy SlotTidy) g v (· ∈ ds) (ownersOf g v ds) ∧ WellFormed g v := by
  simp only [checkVolume, Bool.and_eq_true, List.contains_iff_mem, List.all_eq_true,
    decide_eq_true_eq] at h
  obtain ⟨⟨⟨⟨⟨⟨hmnt, hroot⟩, hchain⟩, hentries⟩, hnodup⟩, hnamed⟩, hslots⟩ := h
  obtain ⟨hrootChain, -⟩ := chain_of_hasChain hchain
  have hentry : ∀ {d i : Nat} {e : DirectoryEntry}, d ∈ ds → liveEntries g v d i = some e →
      EntryOk g v.fat e (ownersOf g v ds (.slot d i)) ∧
        (e.isDirectory = true → e.entryFirstCluster ∈ ds) := by
    intro d i e hd he
    obtain ⟨hi, hk⟩ := liveAt_eq_some.mp he
    have htest := hentries d hd e (List.mem_of_getElem? hi)
    rw [ownersOf_slot hd he]
    exact entryOk_of_test (by simpa [hk] using htest)
  have hsound : Sound (Tidy SlotTidy) g v (· ∈ ds) (ownersOf g v ds) := by
    refine ⟨⟨hmnt, ⟨?_, ?_, hrootChain, hroot, fun hd he => (hentry hd he).1, ?_,
      fun hd he => (hentry hd he).2, ?_⟩, fun hd => (orderly_of_test (hslots _ hd)).tidy⟩, rfl⟩
    · intro o ho
      rcases o with _ | ⟨d, i⟩ | _
      · exact ⟨_, hrootChain⟩
      · by_cases hd : d ∈ ds
        · cases he : liveEntries g v d i with
          | none => simp [ownersOf, he] at ho
          | some e => exact ⟨_, (hentry hd he).1.chain.chain_of_ne_nil ho⟩
        · simp [ownersOf, hd] at ho
      · exact absurd rfl ho
    · intro o o' c hc hc'
      by_contra hne
      have hpair := (List.nodup_flatMap.mp hnodup).2
      have : Std.Symm (Function.onFun List.Disjoint (ownersOf g v ds)) :=
        ⟨fun _ _ hxy => fun c hc hc' => hxy hc' hc⟩
      exact hpair.forall (mem_ownerList hc) (mem_ownerList hc') hne hc hc'
    · intro d i hnone
      by_cases hd : d ∈ ds
      · simp [ownersOf, hnone hd]
      · simp [ownersOf, hd]
    · intro d hd
      have htest := hnamed d hd
      simp only [namedTest, Bool.or_eq_true, decide_eq_true_eq, List.any_eq_true,
        Bool.and_eq_true] at htest
      rcases htest with rfl | ⟨d', hd', e, he, ⟨hk, hdir⟩, hfirst⟩
      · exact .inl rfl
      · obtain ⟨i, hi⟩ := List.getElem?_of_mem he
        exact .inr (.inl ⟨d', i, e, hd', liveAt_eq_some.mpr ⟨hi, hk⟩, hdir, hfirst⟩)
  exact ⟨hsound, hsound.wellFormed fun d hd => orderly_of_test (hslots d (hsound.reachable hd))⟩

theorem regular_of_check (h : checkVolume g v ds = true) (h' : checkRegular g v ds = true) :
    Regular g v := by
  obtain ⟨hsound, -⟩ := sound_of_check h
  simp only [checkRegular, List.all_eq_true, Bool.and_eq_true, Bool.or_eq_true,
    decide_eq_true_eq] at h'
  refine ⟨fun d hd => decodable_of_test (h' d (hsound.reachable hd)).1.1, fun d hd => ?_⟩
  obtain ⟨⟨-, hsnug⟩, hparent⟩ := h' d (hsound.reachable hd)
  exact ⟨snug_of_test hsnug, fun hne => parentSlot_of_test (hparent.resolve_left hne)⟩

end

/-! ## A small volume -/

/-- A volume of four data clusters of one sector each. -/
def smallGeometry : Geometry where
  partitionLba := 0
  sectorsPerCluster := 1
  fatCount := 1
  reservedSectors := 1
  sectorsPerFat := 1
  rootCluster := 2
  totalClusters := 6
  totalSectors := 6
  partitionLba_lt := by decide
  sectorsPerCluster_pos := by decide
  sectorsPerCluster_le := by decide
  fatCount_pos := by decide
  reservedSectors_pos := by decide
  sectorsPerFat_pos := by decide
  sectorsPerFat_le := by decide
  totalSectors_lt := by decide
  nonData_lt := by decide
  totalClusters_eq := by decide
  totalClusters_le := by decide
  rootCluster_ge := by decide
  rootCluster_lt := by decide

/-- A block device that works. -/
def smallEnv : Env := ⟨smallGeometry, fun _ => false, 7⟩

theorem smallEnv_reliable : ¬ smallEnv.Faulty := by
  rintro ⟨n, hn⟩
  cases hn

theorem offset_lt (o : Nat) : o % 32 < 32 := Nat.mod_lt _ (by decide)

/-- The small volume with the links `fat`, and with the slots `dirs c` in cluster `c`. -/
def smallState (fat : List Nat) (dirs : Nat → List DirectoryEntry) : State where
  mounted := true
  fat := fun c => fat.getD c 0
  clusterBuffer := fun _ => 0
  disk := fun lba o => ((dirs lba).getD (o / 32) .zero).byte ⟨o % 32, offset_lt o⟩
  transfers := 0

/-- The volume after a call. -/
def afterCall (op : Operation) (s : State) : State := (op.call smallEnv s).finalState s

/-- The volume after some calls. -/
def afterCalls (ops : List Operation) (s : State) : State := ops.foldl (fun s op => afterCall op s) s

theorem after_of_isOk {op : Operation} {s : State} (h : (op.call smallEnv s).isOk = true) :
    After smallEnv s op (afterCall op s) := .inl (Prog.eq_ok_of_isOk h)

theorem after_of_code {op : Operation} {s : State} {e : Fat32Result}
    (h : (op.call smallEnv s).code = some e) : After smallEnv s op (afterCall op s) :=
  .inr ⟨e, Prog.eq_error_of_code h⟩

/-- All calls succeed. -/
def callsOk : List Operation → State → Bool
  | [], _ => true
  | op :: ops, s => (op.call smallEnv s).isOk && callsOk ops (afterCall op s)

/-- Calls that succeed make a run. -/
theorem runs_afterCalls {ops : List Operation} {s : State} (hadm : ∀ op ∈ ops, op.Admissible)
    (h : callsOk ops s = true) : Runs (AdmissibleStep smallEnv) s ops (afterCalls ops s) := by
  induction ops generalizing s with
  | nil => exact .nil s
  | cons op ops ih =>
    simp only [callsOk, Bool.and_eq_true] at h
    exact .cons ⟨hadm op List.mem_cons_self, after_of_isOk h.1⟩
      (ih (fun op' hop => hadm op' (List.mem_cons_of_mem op hop)) h.2)

/-- The state after some calls, whatever they return. -/
def stateAfter (env : Env) (ops : List Operation) (s : State) : State :=
  ops.foldl (fun s op => (op.call env s).finalState s) s

/-- All calls return. -/
def callsReturn (env : Env) : List Operation → State → Bool
  | [], _ => true
  | op :: ops, s => ((op.call env s).isOk || (op.call env s).code.isSome) &&
    callsReturn env ops ((op.call env s).finalState s)

/-- Calls that return, with arguments of a kind, make a run. -/
theorem runs_stateAfter {env : Env} {P : Operation → Prop} {ops : List Operation} {s : State}
    (hP : ∀ op ∈ ops, P op) (h : callsReturn env ops s = true) :
    Runs (fun s op s' => P op ∧ After env s op s') s ops (stateAfter env ops s) := by
  induction ops generalizing s with
  | nil => exact .nil s
  | cons op ops ih =>
    simp only [callsReturn, Bool.and_eq_true, Bool.or_eq_true, Option.isSome_iff_exists] at h
    obtain ⟨hreturns, hrest⟩ := h
    refine .cons ⟨hP op List.mem_cons_self, ?_⟩
      (ih (fun op' hop => hP op' (List.mem_cons_of_mem op hop)) hrest)
    rcases hreturns with hok | ⟨e, hcode⟩
    · exact .inl (Prog.eq_ok_of_isOk hok)
    · exact .inr ⟨e, Prog.eq_error_of_code hcode⟩

/-- An empty root directory. -/
def emptyState : State := smallState [0, 0, endOfChain] fun _ => []

theorem emptyState_check :
    checkVolume smallGeometry (emptyState.volume smallGeometry) [2] = true ∧
      checkRegular smallGeometry (emptyState.volume smallGeometry) [2] = true := by
  decide +kernel

/-- The path with one component of one character. -/
theorem canonical_letter {c : UInt8} (h : c ≠ slash) (h' : c ≠ 0x2E) (hup : kToupper c = c) :
    Canonical [slash, c] [[c]] :=
  ⟨rfl, fun x hx => by
    obtain rfl := List.mem_singleton.mp hx
    exact ⟨by simp, by simpa using h, by simpa using h', by simp, by simpa using hup⟩⟩

theorem canonicalPath_letter {c : UInt8} (h : c ≠ slash) (h' : c ≠ 0x2E) (hup : kToupper c = c) :
    CanonicalPath [slash, c] :=
  ⟨[[c]], canonical_letter h h' hup⟩

instance (c : CStr) : Decidable (CanonicalComponent c) :=
  decidable_of_iff (c ≠ [] ∧ (∀ x ∈ c, x ≠ slash) ∧ c ≠ [0x2E] ∧ c ≠ [0x2E, 0x2E] ∧
    c.map kToupper = c)
    ⟨fun ⟨h₁, h₂, h₃, h₄, h₅⟩ => ⟨h₁, h₂, h₃, h₄, h₅⟩,
      fun ⟨h₁, h₂, h₃, h₄, h₅⟩ => ⟨h₁, h₂, h₃, h₄, h₅⟩⟩

theorem canonicalPath_join {cs : List CStr} (h : ∀ c ∈ cs, CanonicalComponent c) :
    CanonicalPath (joinPath cs) := ⟨cs, rfl, h⟩

/-- An entry with a name of one character. -/
def letterEntry (c attributes : UInt8) (firstCluster size : Nat) : DirectoryEntry :=
  buildShortEntry (c :: List.replicate 10 0x20) attributes firstCluster size

/-- A full cluster each in the files `A` and `B`, and one free cluster. -/
def almostFullState : State := smallState [0, 0, endOfChain, endOfChain, endOfChain] fun _ =>
  [buildShortEntry (0x41 :: List.replicate 10 0x20) attrArchive 3 512,
    buildShortEntry (0x42 :: List.replicate 10 0x20) attrArchive 4 512]

theorem almostFullState_check :
    checkVolume smallGeometry (almostFullState.volume smallGeometry) [2] = true := by
  decide +kernel

/-- The directory `/D` without the slots `.` and `..`, whose slot 1 is the file `B`, and an empty
directory `/P`. -/
def dotlessState : State :=
  smallState [0, 0, endOfChain, endOfChain, endOfChain, endOfChain] fun c =>
    if c = 2 then [letterEntry 0x44 attrDirectory 3 0, letterEntry 0x50 attrDirectory 4 0]
    else if c = 3 then [letterEntry 0x41 attrArchive 0 0, letterEntry 0x42 attrArchive 5 512]
    else []

/-- A deleted slot. -/
def deletedSlot (attributes : UInt8) : DirectoryEntry :=
  ⟨fun i => if i.val = 0 then deletedMark else if i.val = 11 then attributes else 0⟩

/-- The file `OO` with one long-name slot, in front of which stands a deleted one, and a file `C`. -/
def looseState : State := smallState [0, 0, endOfChain] fun _ =>
  let entry := letterEntry 0x4F attrArchive 0 0
  [deletedSlot 0, deletedSlot 0, deletedSlot 0, deletedSlot attrLfn]
    ++ buildLfnEntries [0x4F, 0x4F] (shortNameChecksum entry.name) 1
    ++ [entry, letterEntry 0x43 attrArchive 0 0]

/-- A name whose alias has the same checksum as the short name `F`. -/
def longName : CStr := List.replicate 27 0x42

end FunnyOS.Fat32
