import FunnyOS.Fat32.LongNameRuns
import FunnyOS.Fat32.Reading
import FunnyOS.Fat32.Check

/-!
# What the scanning loops see of a directory

`find_entry_in_cluster_dir`, `list_cluster_dir` and `directory_is_empty` each walk over the slots
with a long-name state of their own. The first resets its state at every slot that is no
long-name slot, and so gives every short slot the name that the slots directly before it spell.
The other two pass over a slot that begins with a dot without a reset, so that a long name may
reach over it to the next entry.
-/

namespace FunnyOS.Fat32

open Prog

/-! ## Short slots and their names -/

/-- A short slot that a scan has met: its number, the slot, and the name decoded for it. -/
structure Sighting where
  slot : Nat
  entry : DirectoryEntry
  name : CStr
  deriving DecidableEq

/-- What is reported of a slot. -/
def Sighting.info (x : Sighting) : Fat32NodeInfo := decodeNodeInfo x.entry x.name

/-- The slot loop of `find_entry_in_cluster_dir`, with a record of the slots whose names have been
compared with `name`. -/
def scanForNameLogged (name : CStr) : List DirectoryEntry → Nat → LfnState → List Sighting →
    Scan (Nat × DirectoryEntry × LfnState) × List Sighting
  | [], _, lfn, log => (.more lfn, log)
  | e :: rest, index, lfn, log =>
    if e.name0 = 0 then (.endMark, log)
    else if e.name0 = deletedMark then
      scanForNameLogged name rest (index + 1) (lfnStateReset lfn) log
    else if e.attributes = attrLfn then
      scanForNameLogged name rest (index + 1) (processLfnEntry e lfn) log
    else if shouldSkipEntry e then
      scanForNameLogged name rest (index + 1) (lfnStateReset lfn) log
    else
      let log := log ++ [⟨index, e, decodeDirectoryEntryName e lfn⟩]
      if nameEqualsIgnoreCase (decodeDirectoryEntryName e lfn) name then
        (.found (index, e, lfn), log)
      else scanForNameLogged name rest (index + 1) (lfnStateReset lfn) log

/-- The slot loop of `list_cluster_dir`, with a record of the slots that have been reported. -/
def scanForListingLogged {κ : Type} (callback : κ → Fat32NodeInfo → κ × Bool) :
    List DirectoryEntry → Nat → LfnState → κ → List Sighting → (Scan κ × κ) × List Sighting
  | [], _, lfn, context, log => ((.more lfn, context), log)
  | e :: rest, index, lfn, context, log =>
    if e.name0 = 0 then ((.endMark, context), log)
    else if e.name0 = deletedMark then
      scanForListingLogged callback rest (index + 1) (lfnStateReset lfn) context log
    else if e.attributes = attrLfn then
      scanForListingLogged callback rest (index + 1) (processLfnEntry e lfn) context log
    else if shouldSkipEntry e then
      scanForListingLogged callback rest (index + 1) (lfnStateReset lfn) context log
    else if e.name0 = 0x2E then scanForListingLogged callback rest (index + 1) lfn context log
    else
      let log := log ++ [⟨index, e, decodeDirectoryEntryName e lfn⟩]
      let (context, goOn) := callback context (decodeNodeInfo e (decodeDirectoryEntryName e lfn))
      if goOn then scanForListingLogged callback rest (index + 1) (lfnStateReset lfn) context log
      else ((.found context, context), log)

/-- How `list_cluster_dir` and `directory_is_empty` change their state at a slot. -/
def listStep (st : LfnState) (e : DirectoryEntry) : LfnState :=
  if e.kind = .special then st else lfnStep st e

/-- The slots of the kinds `kinds` before the end mark, named from states that `step` changes. -/
def sightings (step : LfnState → DirectoryEntry → LfnState) (kinds : List SlotKind) :
    List DirectoryEntry → Nat → LfnState → List Sighting
  | [], _, _ => []
  | e :: rest, index, st =>
    if e.kind = .endMark then []
    else if e.kind ∈ kinds then
      ⟨index, e, decodeDirectoryEntryName e st⟩ :: sightings step kinds rest (index + 1) (step st e)
    else sightings step kinds rest (index + 1) (step st e)

/-- The short slots, as `find_entry_in_cluster_dir` sees them. -/
def comparedSlots (es : List DirectoryEntry) : List Sighting :=
  sightings lfnStep [.special, .live] es 0 .initial

/-- The entries, as `list_cluster_dir` sees them. -/
def listedSlots (es : List DirectoryEntry) : List Sighting :=
  sightings listStep [.live] es 0 .initial

section

variable {name : CStr} {es before rest : List DirectoryEntry} {e : DirectoryEntry} {index : Nat}
  {st : LfnState} {log : List Sighting} {kinds : List SlotKind}
  {step : LfnState → DirectoryEntry → LfnState} {x : Sighting}

/-- The branches of the scanning loops are the kinds of slots. -/
theorem kind_branches {α : Type} (a b c d f g : α) :
    (if e.name0 = 0 then a else if e.name0 = deletedMark then b
      else if e.attributes = attrLfn then c else if shouldSkipEntry e then d
      else if e.name0 = 0x2E then f else g) =
    match e.kind with
    | .endMark => a
    | .deleted => b
    | .longName => c
    | .label => d
    | .special => f
    | .live => g := by
  unfold DirectoryEntry.kind
  by_cases h₀ : e.name0 = 0
  · simp [h₀]
  by_cases h₁ : e.name0 = deletedMark
  · simp [h₁, deletedMark]
  rw [shouldSkipEntry_of_kind h₀ h₁]
  by_cases h₂ : e.attributes = attrLfn
  · simp [h₀, h₁, h₂]
  by_cases h₃ : e.attributes &&& attrVolumeId = 0
  · by_cases h₄ : e.name0 = 0x2E
    · simp [h₂, h₃, h₄, deletedMark]
    · simp [h₀, h₁, h₂, h₃, h₄]
  · simp [h₀, h₁, h₂, h₃]

/-- The record does not change the scan. -/
theorem scanForNameLogged_fst (log : List Sighting) :
    (scanForNameLogged name es index st log).1 = scanForName name es index st := by
  induction es generalizing index st log with
  | nil => rfl
  | cons e es ih =>
    simp only [scanForNameLogged, scanForName]
    split_ifs <;> first | rfl | exact ih _

theorem scanForListingLogged_fst {κ : Type} {callback : κ → Fat32NodeInfo → κ × Bool}
    {context : κ} : (scanForListingLogged callback es index st context log).1 =
      scanForListing callback es st context := by
  induction es generalizing index st context log with
  | nil => rfl
  | cons e es ih =>
    simp only [scanForListingLogged, scanForListing]
    split_ifs <;> first | rfl | exact ih

theorem scanForNameLogged_cons : scanForNameLogged name (e :: es) index st log =
    if e.kind = .endMark then (.endMark, log)
    else if e.kind = .special ∨ e.kind = .live then
      if nameEqualsIgnoreCase (decodeDirectoryEntryName e st) name then
        (.found (index, e, st), log ++ [⟨index, e, decodeDirectoryEntryName e st⟩])
      else scanForNameLogged name es (index + 1) (lfnStep st e)
        (log ++ [⟨index, e, decodeDirectoryEntryName e st⟩])
    else scanForNameLogged name es (index + 1) (lfnStep st e) log := by
  have hbranches := fun a b c d g => kind_branches (e := e)
    (α := Scan (Nat × DirectoryEntry × LfnState) × List Sighting) a b c d g g
  simp only [ite_self] at hbranches
  rw [scanForNameLogged, hbranches]
  unfold lfnStep
  cases e.kind <;> simp

theorem scanForListingLogged_cons {κ : Type} {callback : κ → Fat32NodeInfo → κ × Bool}
    {context : κ} : scanForListingLogged callback (e :: es) index st context log =
    if e.kind = .endMark then ((.endMark, context), log)
    else if e.kind = .live then
      let next := callback context (decodeNodeInfo e (decodeDirectoryEntryName e st))
      let log := log ++ [⟨index, e, decodeDirectoryEntryName e st⟩]
      if next.2 then scanForListingLogged callback es (index + 1) (listStep st e) next.1 log
      else ((.found next.1, next.1), log)
    else scanForListingLogged callback es (index + 1) (listStep st e) context log := by
  rw [scanForListingLogged, kind_branches]
  unfold listStep lfnStep
  cases e.kind <;> simp

theorem scanForContent_cons : scanForContent (e :: es) st =
    if e.kind = .endMark then .endMark
    else if e.kind = .live then .found ()
    else scanForContent es (listStep st e) := by
  have hspecial : ∀ a b : Scan Unit, (if directoryEntryIsSpecial e then a else b) =
      if e.name0 = 0x2E then a else b := by
    intro a b
    simp [directoryEntryIsSpecial]
  rw [scanForContent, hspecial, kind_branches]
  unfold listStep lfnStep
  cases e.kind <;> simp

/-! ## The records are the sightings -/

/-- Where nothing matches, every short slot is compared. -/
theorem scanForNameLogged_snd (h : ∀ x, scanForName name es index st ≠ .found x) :
    (scanForNameLogged name es index st log).2 =
      log ++ sightings lfnStep [.special, .live] es index st := by
  induction es generalizing index st log with
  | nil => simp [scanForNameLogged, sightings]
  | cons e es ih =>
    rw [← scanForNameLogged_fst log] at h
    have ih' := @ih (index + 1) (lfnStep st e)
    rw [scanForNameLogged_cons] at h ⊢
    rw [sightings]
    by_cases h₀ : e.kind = .endMark
    · simp [h₀]
    simp only [if_neg h₀, List.mem_cons, List.not_mem_nil, or_false] at h ⊢
    by_cases h₁ : e.kind = .special ∨ e.kind = .live
    · simp only [if_pos h₁] at h ⊢
      by_cases hn : nameEqualsIgnoreCase (decodeDirectoryEntryName e st) name = true
      · rw [if_pos hn] at h
        exact absurd rfl (h _)
      · rw [if_neg hn, scanForNameLogged_fst] at h
        rw [if_neg hn, ih' h, List.append_assoc]
        rfl
    · simp only [if_neg h₁, scanForNameLogged_fst] at h ⊢
      exact ih' h

/-- What `find_entry_in_cluster_dir` finds is the first short slot with the name. -/
theorem scanForName_find (name : CStr) (es : List DirectoryEntry) (index : Nat) (st : LfnState) :
    match scanForName name es index st with
    | .found (j, e, lfn) => (sightings lfnStep [.special, .live] es index st).find?
        (fun x => nameEqualsIgnoreCase x.name name) =
          some ⟨j, e, decodeDirectoryEntryName e lfn⟩
    | _ => (sightings lfnStep [.special, .live] es index st).find?
        (fun x => nameEqualsIgnoreCase x.name name) = none := by
  induction es generalizing index st with
  | nil => rfl
  | cons e es ih =>
    have ih' := @ih (index + 1) (lfnStep st e)
    rw [← scanForNameLogged_fst [], scanForNameLogged_cons, sightings]
    by_cases h₀ : e.kind = .endMark
    · simp [h₀]
    simp only [if_neg h₀, List.mem_cons, List.not_mem_nil, or_false]
    by_cases h₁ : e.kind = .special ∨ e.kind = .live
    · simp only [if_pos h₁]
      by_cases hn : nameEqualsIgnoreCase (decodeDirectoryEntryName e st) name = true
      · simp [hn]
      · rw [if_neg hn, scanForNameLogged_fst]
        simpa [List.find?_cons, hn] using ih'
    · simp only [if_neg h₁, scanForNameLogged_fst]
      exact ih'

/-- A callback that always continues is given every entry. -/
theorem scanForListingLogged_eq {κ : Type} {callback : κ → Fat32NodeInfo → κ × Bool}
    (h : ∀ c info, (callback c info).2 = true) (es : List DirectoryEntry) (index : Nat)
    (st : LfnState) (context : κ) (log : List Sighting) :
    (scanForListingLogged callback es index st context log).2 =
        log ++ sightings listStep [.live] es index st ∧
      (scanForListingLogged callback es index st context log).1.2 =
        (sightings listStep [.live] es index st).foldl
          (fun c x => (callback c x.info).1) context := by
  induction es generalizing index st context log with
  | nil => simp [scanForListingLogged, sightings]
  | cons e es ih =>
    rw [scanForListingLogged_cons, sightings]
    by_cases h₀ : e.kind = .endMark
    · simp [h₀]
    simp only [if_neg h₀, List.mem_cons, List.not_mem_nil, or_false, h, if_true]
    by_cases h₁ : e.kind = .live
    · simp only [if_pos h₁]
      obtain ⟨hlog, hcontext⟩ := ih (index + 1) (listStep st e)
        (callback context (decodeNodeInfo e (decodeDirectoryEntryName e st))).1
        (log ++ [⟨index, e, decodeDirectoryEntryName e st⟩])
      rw [hlog, hcontext, List.append_assoc]
      exact ⟨rfl, rfl⟩
    · simp only [if_neg h₁]
      exact ih _ _ _ _

/-- `directory_is_empty` finds content where there is an entry. -/
theorem scanForContent_iff {st' : LfnState} :
    scanForContent es st = .found () ↔ sightings listStep [.live] es index st' ≠ [] := by
  induction es generalizing index st st' with
  | nil => simp [scanForContent, sightings]
  | cons e es ih =>
    rw [scanForContent_cons, sightings]
    by_cases h₀ : e.kind = .endMark
    · simp [h₀]
    by_cases h₁ : e.kind = .live
    · simp [h₁]
    · simp only [if_neg h₀, if_neg h₁, List.mem_cons, List.not_mem_nil, or_false]
      exact ih

/-- What has been seen: the short slots before the end mark, each with the name decoded in the
state that the slots before it leave. -/
theorem mem_sightings : x ∈ sightings step kinds es index st ↔
    ∃ before rest, es = before ++ x.entry :: rest ∧ x.slot = index + before.length ∧
      (∀ y ∈ before, y.kind ≠ .endMark) ∧ x.entry.kind ≠ .endMark ∧ x.entry.kind ∈ kinds ∧
      x.name = decodeDirectoryEntryName x.entry (before.foldl step st) := by
  induction es generalizing index st with
  | nil => simp [sightings]
  | cons e es ih =>
    have htail : (x ∈ sightings step kinds es (index + 1) (step st e) ∧ e.kind ≠ .endMark) ↔
        ∃ before rest, e :: es = e :: before ++ x.entry :: rest ∧
          x.slot = index + (e :: before).length ∧ (∀ y ∈ e :: before, y.kind ≠ .endMark) ∧
          x.entry.kind ≠ .endMark ∧ x.entry.kind ∈ kinds ∧
          x.name = decodeDirectoryEntryName x.entry ((e :: before).foldl step st) := by
      rw [ih]
      constructor
      · rintro ⟨⟨before, rest, rfl, hslot, hbefore, hx⟩, he⟩
        exact ⟨before, rest, rfl, by rw [List.length_cons]; omega, by simpa [he] using hbefore, hx⟩
      · rintro ⟨before, rest, hes, hslot, hbefore, hx⟩
        rw [List.length_cons] at hslot
        exact ⟨⟨before, rest, (List.cons.inj hes).2, by omega,
          fun y hy => hbefore y (by simp [hy]), hx⟩, hbefore e (by simp)⟩
    rw [sightings]
    constructor
    · intro hmem
      by_cases h₀ : e.kind = .endMark
      · simp [h₀] at hmem
      rw [if_neg h₀] at hmem
      have hrest : x ∈ sightings step kinds es (index + 1) (step st e) → _ :=
        fun h => htail.mp ⟨h, h₀⟩
      by_cases h₁ : e.kind ∈ kinds
      · rw [if_pos h₁] at hmem
        rcases List.mem_cons.mp hmem with rfl | hmem
        · exact ⟨[], es, rfl, rfl, by simp, h₀, h₁, rfl⟩
        · obtain ⟨before, rest, h⟩ := hrest hmem
          exact ⟨e :: before, rest, h⟩
      · rw [if_neg h₁] at hmem
        obtain ⟨before, rest, h⟩ := hrest hmem
        exact ⟨e :: before, rest, h⟩
    · rintro ⟨before, rest, hes, hx⟩
      cases before with
      | nil =>
        obtain ⟨rfl, rfl⟩ := List.cons.inj hes
        obtain ⟨hslot, -, h₀, h₁, hname⟩ := hx
        rw [if_neg h₀, if_pos h₁]
        have hself : x = ⟨index, x.entry, decodeDirectoryEntryName x.entry st⟩ := by
          cases x
          simp only [List.length_nil, Nat.add_zero, List.foldl_nil] at hslot hname
          simp [hslot, hname]
        rw [← hself]
        exact List.mem_cons_self
      | cons y before =>
        obtain ⟨rfl, -⟩ := List.cons.inj hes
        obtain ⟨hmem, h₀⟩ := htail.mpr ⟨before, rest, hes, hx⟩
        rw [if_neg h₀]
        split
        · exact List.mem_cons_of_mem _ hmem
        · exact hmem

theorem sightings_pairwise :
    (sightings step kinds es index st).Pairwise (fun x y => x.slot < y.slot) := by
  induction es generalizing index st with
  | nil => exact .nil
  | cons e es ih =>
    rw [sightings]
    split_ifs
    · exact .nil
    · refine List.pairwise_cons.mpr ⟨?_, ih⟩
      intro y hy
      obtain ⟨before, -, -, hslot, -⟩ := mem_sightings.mp hy
      change index < y.slot
      omega
    · exact ih

/-! ## Names in terms of the slots -/

/-- A slot whose name is looked at: not the end mark, not deleted, no long-name slot, no label. -/
def DirectoryEntry.IsShort (e : DirectoryEntry) : Prop :=
  e.name0 ≠ 0 ∧ e.name0 ≠ deletedMark ∧ e.attributes ≠ attrLfn ∧ e.attributes &&& attrVolumeId = 0

theorem isShort_iff : e.IsShort ↔ e.kind = .special ∨ e.kind = .live := by
  unfold DirectoryEntry.IsShort DirectoryEntry.kind
  split_ifs <;> simp_all

theorem kind_ne_endMark : e.kind ≠ .endMark ↔ e.name0 ≠ 0 := not_congr DirectoryEntry.kind_eq_endMark

/-- The short slots that `find_entry_in_cluster_dir` compares, with the names it compares. -/
theorem mem_comparedSlots : x ∈ comparedSlots es ↔
    ∃ before rest, es = before ++ x.entry :: rest ∧ x.slot = before.length ∧
      (∀ y ∈ before, y.name0 ≠ 0) ∧ x.entry.IsShort ∧ SlotName before x.entry x.name := by
  unfold comparedSlots
  rw [mem_sightings]
  refine exists_congr fun before => exists_congr fun rest => and_congr_right fun _ => ?_
  rw [Nat.zero_add]
  refine and_congr_right fun _ => and_congr (forall₂_congr fun y _ => kind_ne_endMark) ?_
  rw [isShort_iff]
  constructor
  · rintro ⟨-, hk, hname⟩
    exact ⟨by simpa using hk, hname ▸ slotName_decode before x.entry⟩
  · rintro ⟨hk, hname⟩
    refine ⟨?_, by simpa using hk, hname.unique (slotName_decode before x.entry)⟩
    rcases hk with hk | hk <;> simp [hk]

/-- A decoded name ends at a NUL. -/
theorem zero_not_mem_decode : (0 : UInt8) ∉ decodeDirectoryEntryName e st := by
  have hcut : ∀ l : List UInt8, (0 : UInt8) ∉ cString l := by
    intro l h
    simpa using List.mem_takeWhile_imp h
  unfold decodeDirectoryEntryName
  split <;> exact hcut _

end

section

variable {env : Env} {s : State} {d : Nat} {l : List Nat} {name : CStr}

/-- `find_entry_in_cluster_dir` answers with the first short slot whose name is the wanted one. -/
theorem findEntryInClusterDir_result (hfuel : env.geometry.totalClusters < env.fuel)
    (hrel : ¬ env.Faulty) (h : Chain env.geometry s.fat d l) (name : CStr) :
    match (comparedSlots (chainEntries env.geometry (s.volume env.geometry) l)).find?
        (fun x => nameEqualsIgnoreCase x.name name) with
    | some x => ∃ ref, (findEntryInClusterDir env d name s).result = some (.ok ref) ∧
        ref.entryIndex = x.slot ∧ ref.entry = x.entry
    | none => (findEntryInClusterDir env d name s).result = some (.error .notFound) := by
  have hsat : Sat (findEntryInClusterDir env d name) s _ _ := findEntryInClusterDir_sat hfuel h
  have hdefined : Defined (findEntryInClusterDir env d name) := findEntryInClusterDir_defined
  have hdef := hdefined s
  have hfind := scanForName_find name (chainEntries env.geometry (s.volume env.geometry) l) 0
    .initial
  change match scanForName name (chainEntries env.geometry (s.volume env.geometry) l) 0 .initial with
    | .found (j, e, lfn) => (comparedSlots (chainEntries env.geometry (s.volume env.geometry) l)).find?
        (fun x => nameEqualsIgnoreCase x.name name) = some ⟨j, e, decodeDirectoryEntryName e lfn⟩
    | _ => (comparedSlots (chainEntries env.geometry (s.volume env.geometry) l)).find?
        (fun x => nameEqualsIgnoreCase x.name name) = none at hfind
  unfold Sat at hsat
  cases hx : findEntryInClusterDir env d name s with
  | ok ref s' =>
    rw [hx] at hsat
    obtain ⟨lfn, hscan, -⟩ := hsat.2.scan
    rw [hscan] at hfind
    rw [hfind]
    exact ⟨ref, rfl, rfl, rfl⟩
  | error e s' =>
    rw [hx] at hsat
    obtain ⟨rfl, hno⟩ := hsat.2.resolve_right fun hf => hrel hf.2
    cases hscan : scanForName name (chainEntries env.geometry (s.volume env.geometry) l) 0
        .initial with
    | found y => exact absurd hscan (hno y)
    | endMark =>
      rw [hscan] at hfind
      rw [hfind]
      rfl
    | more lfn =>
      rw [hscan] at hfind
      rw [hfind]
      rfl
  | fault s' => exact absurd hx (hdef s')
  | timeout s' => rw [hx] at hsat; exact hsat.elim

/-- For every content of a directory: `find_entry_in_cluster_dir` looks for the wanted name among
the short slots before the end mark, and the name of such a slot is the long name spelled by a
complete set directly before it, or else its formatted short name. Every such name ends inside the
buffer. -/
theorem findEntryInClusterDir_slotName (hfuel : env.geometry.totalClusters < env.fuel)
    (hrel : ¬ env.Faulty) (h : Chain env.geometry s.fat d l) :
    let seen := comparedSlots (chainEntries env.geometry (s.volume env.geometry) l)
    (match seen.find? (fun x => nameEqualsIgnoreCase x.name name) with
      | some x => ∃ ref, (findEntryInClusterDir env d name s).result = some (.ok ref) ∧
          ref.entryIndex = x.slot ∧ ref.entry = x.entry
      | none => (findEntryInClusterDir env d name s).result = some (.error .notFound)) ∧
    seen.Pairwise (fun x y => x.slot < y.slot) ∧
    (∀ x, x ∈ seen ↔ ∃ before rest,
      chainEntries env.geometry (s.volume env.geometry) l = before ++ x.entry :: rest ∧
      x.slot = before.length ∧ (∀ y ∈ before, y.name0 ≠ 0) ∧ x.entry.IsShort ∧
      SlotName before x.entry x.name) ∧
    ∀ x ∈ seen, (0 : UInt8) ∉ x.name ∧ x.name.length < nameCapacity := by
  refine ⟨findEntryInClusterDir_result hfuel hrel h name, sightings_pairwise,
    fun x => mem_comparedSlots, ?_⟩
  intro x hx
  obtain ⟨before, rest, -, -, -, -, hname⟩ := mem_comparedSlots.mp hx
  refine ⟨?_, hname.length_lt⟩
  rw [hname.unique (slotName_decode before x.entry)]
  exact zero_not_mem_decode

end

/-- A long name `x` for the file `A`, and a slot between them whose name begins with a dot. -/
def dottedSlots : List DirectoryEntry :=
  [lfnSlot [0x78] (shortNameChecksum (0x41 :: List.replicate 10 0x20)) 1 1,
    letterEntry 0x2E attrDirectory 0 0, letterEntry 0x41 attrArchive 3 512]

/-- The small volume with these slots in its root. -/
def dottedState : State := smallState [0, 0, endOfChain, endOfChain] fun _ => dottedSlots

theorem dottedState_chain : Chain smallGeometry dottedState.fat 2 [2] :=
  chain_cons.mpr ⟨rfl, by decide, chain_nil.mpr (by decide +kernel)⟩

theorem findEntryInClusterDir_slotName_small :
    (comparedSlots (chainEntries smallGeometry (dottedState.volume smallGeometry) [2])).Pairwise
        (fun x y => x.slot < y.slot) ∧
      ∀ x ∈ comparedSlots (chainEntries smallGeometry (dottedState.volume smallGeometry) [2]),
        (0 : UInt8) ∉ x.name ∧ x.name.length < nameCapacity :=
  have h := @findEntryInClusterDir_slotName smallEnv dottedState 2 [2] [0x41] (by decide)
    smallEnv_reliable dottedState_chain
  ⟨h.2.1, h.2.2.2⟩

/-! ## Long names that reach over a dot slot -/

/-- No long name reaches over a slot that begins with a dot: where the slots before an entry spell
a long name for it once the dot slots among them are left out, they spell it also with them, or
that name is the formatted short name anyway. -/
def UninterruptedNames (es : List DirectoryEntry) : Prop :=
  ∀ before e rest, es = before ++ e :: rest → (∀ y ∈ before, y.name0 ≠ 0) → e.kind = .live →
    ∀ name, CarriesLongName (before.filter (fun y => y.kind ≠ .special)) e name →
      CarriesLongName before e name ∨ name = cString (formatShortName e.name)

/-- The slots that `list_cluster_dir` reports to a callback that always continues. -/
def reportedSlots (es : List DirectoryEntry) : List Sighting :=
  (scanForListingLogged (fun (_ : Unit) _ => ((), true)) es 0 .initial () []).2

/-- Slot numbers and names. -/
def slotNames (seen : List Sighting) : List (Nat × CStr) := seen.map fun x => (x.slot, x.name)

/-- The three loops are in step on the directory at `d` with the slots `es`. -/
structure ScansAgree (env : Env) (s : State) (d : Nat) (es : List DirectoryEntry) : Prop where
  pairs : ∀ name, NotFound es name → slotNames (reportedSlots es) = slotNames
    ((scanForNameLogged name es 0 .initial []).2.filter (fun x => x.entry.name0 ≠ 0x2E))
  empty : (directoryIsEmpty env d s).result = some (.ok (reportedSlots es).isEmpty)

section

variable {es before : List DirectoryEntry} {e : DirectoryEntry} {index : Nat} {st st' : LfnState}
  {name : CStr}

theorem foldl_listStep : before.foldl listStep st =
    (before.filter (fun y => y.kind ≠ .special)).foldl lfnStep st := by
  induction before generalizing st with
  | nil => rfl
  | cons e before ih =>
    rw [List.foldl_cons, ih, listStep]
    by_cases h : e.kind = .special
    · simp [h]
    · simp [h]

theorem reportedSlots_eq : reportedSlots es = listedSlots es := by
  rw [reportedSlots, (scanForListingLogged_eq (fun _ _ => rfl) _ _ _ _ _).1, List.nil_append]
  rfl

/-- Leaving out the slots that begin with a dot leaves the entries. -/
theorem sightings_filter : (sightings lfnStep [.special, .live] es index st).filter
    (fun x => x.entry.name0 ≠ 0x2E) = sightings lfnStep [.live] es index st := by
  induction es generalizing index st with
  | nil => rfl
  | cons e es ih =>
    rw [sightings, sightings]
    cases hk : e.kind
    · simp
    · simpa [hk] using ih
    · simpa [hk] using ih
    · simpa [hk] using ih
    · have hdot : e.name0 = 0x2E := by
        unfold DirectoryEntry.kind at hk
        split_ifs at hk with _ _ _ _ h
        exact h
      simpa [hk, hdot] using ih
    · have hne := (DirectoryEntry.kind_eq_live.mp hk).2.2.2.2
      simpa [hk, hne] using ih

/-- The two ways of keeping the long-name state give every entry the same name just when they
decode the same name for each. -/
theorem slotNames_eq_iff :
    slotNames (sightings listStep [.live] es index st) =
        slotNames (sightings lfnStep [.live] es index st') ↔
      ∀ before e rest, es = before ++ e :: rest → (∀ y ∈ before, y.name0 ≠ 0) → e.kind = .live →
        decodeDirectoryEntryName e (before.foldl listStep st) =
          decodeDirectoryEntryName e (before.foldl lfnStep st') := by
  induction es generalizing index st st' with
  | nil => simp [sightings]
  | cons e es ih =>
    have ih' := @ih (index + 1) (listStep st e) (lfnStep st' e)
    rw [sightings, sightings]
    by_cases h₀ : e.kind = .endMark
    · simp only [if_pos h₀, true_iff]
      rintro before x rest hes hbefore hlive
      cases before with
      | nil =>
        obtain ⟨rfl, -⟩ := List.cons.inj hes
        exact absurd (h₀.symm.trans hlive) SlotKind.noConfusion
      | cons y before =>
        obtain ⟨rfl, -⟩ := List.cons.inj hes
        exact absurd (DirectoryEntry.kind_eq_endMark.mp h₀) (hbefore e (by simp))
    have hcons : (∀ before x rest, e :: es = before ++ x :: rest → (∀ y ∈ before, y.name0 ≠ 0) →
        x.kind = .live → decodeDirectoryEntryName x (before.foldl listStep st) =
          decodeDirectoryEntryName x (before.foldl lfnStep st')) ↔
        (e.kind = .live → decodeDirectoryEntryName e st = decodeDirectoryEntryName e st') ∧
        slotNames (sightings listStep [.live] es (index + 1) (listStep st e)) =
          slotNames (sightings lfnStep [.live] es (index + 1) (lfnStep st' e)) := by
      rw [ih']
      constructor
      · intro h
        refine ⟨h [] e es rfl (by simp), ?_⟩
        rintro before x rest rfl hbefore hlive
        exact h (e :: before) x rest rfl
          (by simpa using ⟨kind_ne_endMark.mp h₀, hbefore⟩) hlive
      · rintro ⟨hhead, htail⟩ before x rest hes hbefore hlive
        cases before with
        | nil =>
          obtain ⟨rfl, -⟩ := List.cons.inj hes
          exact hhead hlive
        | cons y before =>
          obtain ⟨rfl, htl⟩ := List.cons.inj hes
          exact htail before x rest htl (fun z hz => hbefore z (by simp [hz])) hlive
    rw [hcons]
    by_cases h₁ : e.kind = .live
    · simp [h₁, slotNames]
    · simp [h₀, h₁]

/-- A long name spelled by the slots directly before an entry is spelled without the dot slots. -/
theorem CarriesLongName.skipDots (h : CarriesLongName before e name) :
    CarriesLongName (before.filter (fun y => y.kind ≠ .special)) e name := by
  obtain ⟨hne, run, hs, hset, hname⟩ := h
  refine ⟨hne, run, ?_, hset, hname⟩
  have hkeep : run.filter (fun y => decide (y.kind ≠ .special)) = run := by
    rw [List.filter_eq_self]
    intro y hy
    have hk := (longNameRun_iff.mp (longNameSet_iff.mp hset)).2.2.1 y hy
    simp [hk]
  exact hkeep ▸ hs.filter _

/-- Where the names agree, in terms of the slots. -/
theorem decode_listed_iff : decodeDirectoryEntryName e (before.foldl listStep .initial) =
      decodeDirectoryEntryName e (before.foldl lfnStep .initial) ↔
    ∀ name, CarriesLongName (before.filter (fun y => y.kind ≠ .special)) e name →
      CarriesLongName before e name ∨ name = cString (formatShortName e.name) := by
  rw [foldl_listStep]
  have hfind := slotName_decode before e
  have hlist := slotName_decode (before.filter (fun y => decide (y.kind ≠ .special))) e
  constructor
  · intro heq name hname
    rw [heq] at hlist
    rw [SlotName.unique (.inl hname) hlist]
    exact hfind.imp_right And.left
  · intro h
    rcases hlist with hlong | ⟨hshort, hno⟩
    · rcases h _ hlong with hcarry | hshort
      · exact SlotName.unique (.inl hcarry) hfind
      · rcases hfind with hcarry | ⟨hshort', -⟩
        · exact hlong.unique hcarry.skipDots
        · rw [hshort, hshort']
    · rcases hfind with hcarry | ⟨hshort', -⟩
      · exact absurd hcarry.skipDots (hno _)
      · rw [hshort, hshort']

/-- Some name is not in the directory. -/
theorem exists_notFound (es : List DirectoryEntry) : ∃ name, NotFound es name := by
  refine ⟨List.replicate nameCapacity 0x41, fun x hx => ?_⟩
  have hfind := scanForName_find (List.replicate nameCapacity 0x41) es 0 .initial
  rw [hx] at hfind
  have hmatch := List.find?_some hfind
  have hmem : (⟨x.1, x.2.1, decodeDirectoryEntryName x.2.1 x.2.2⟩ : Sighting) ∈ comparedSlots es :=
    List.mem_of_find?_eq_some hfind
  obtain ⟨before, -, -, -, -, -, hname⟩ := mem_comparedSlots.mp hmem
  have hlt := hname.length_lt
  have hlen := congrArg List.length (beq_iff_eq.mp hmatch)
  rw [List.length_map, List.length_map, List.length_replicate] at hlen
  exact absurd hlen hlt.ne

end

section

variable {env : Env} {s : State} {d : Nat} {l : List Nat}

theorem directoryIsEmpty_defined : Defined (directoryIsEmpty env d) := by
  refine Defined.loop (fun x => ?_) _ _
  refine Defined.ite ?_ Defined.pure
  refine Defined.bind readCluster_defined fun b => Defined.ite ?_ Defined.pure
  refine Defined.bind Defined.get fun s => ?_
  split <;> exact Defined.pure

/-- `directory_is_empty` answers whether anything is listed. -/
theorem directoryIsEmpty_result (hfuel : env.geometry.totalClusters < env.fuel)
    (hrel : ¬ env.Faulty) (h : Chain env.geometry s.fat d l) :
    (directoryIsEmpty env d s).result = some (.ok
      (listedSlots (chainEntries env.geometry (s.volume env.geometry) l)).isEmpty) := by
  refine Sat.result_eq (P := fun _ => True) directoryIsEmpty_defined
    (Sat.mono (directoryIsEmpty_sat hfuel h) ?_ fun _ _ h => h.elim)
  rintro b s' ⟨-, htrue, hfalse⟩
  refine ⟨trivial, ?_⟩
  have hiff := @scanForContent_iff
    (chainEntries env.geometry (s.volume env.geometry) l) 0 .initial .initial
  change _ ↔ listedSlots _ ≠ [] at hiff
  rw [← List.isEmpty_eq_false_iff] at hiff
  cases b with
  | false => rw [hiff.mp ((hfalse rfl).resolve_right hrel)]
  | true =>
    rw [Bool.eq_true_of_not_eq_false fun hf => htrue rfl (hiff.mpr hf)]

/-- For every content of a directory: `list_cluster_dir` hands a callback that always continues the
entries of its record, and this record has the slots and names that
`find_entry_in_cluster_dir` compares when nothing matches, the dot slots left out, with
`directory_is_empty` true exactly when it is empty, just when no long name reaches over a dot
slot. -/
theorem scansAgree_iff (hfuel : env.geometry.totalClusters < env.fuel)
    (hrel : ¬ env.Faulty) (h : Chain env.geometry s.fat d l) :
    let es := chainEntries env.geometry (s.volume env.geometry) l
    (∀ (κ : Type) (callback : κ → Fat32NodeInfo → κ × Bool) (context : κ),
      (∀ c info, (callback c info).2 = true) →
      (listClusterDir env d callback context s).result = some (.ok
        ((reportedSlots es).foldl (fun c x => (callback c x.info).1) context))) ∧
    (∀ name, NotFound es name →
      (findEntryInClusterDir env d name s).result = some (.error .notFound)) ∧
    (ScansAgree env s d es ↔ UninterruptedNames es) := by
  intro es
  refine ⟨?_, ?_, ?_⟩
  · intro κ callback context hgo
    refine Sat.result_eq (P := fun _ => True) listClusterDir_defined
      (Sat.mono (listClusterDir_sat hfuel h) ?_ fun _ _ h => absurd h.2.2 hrel)
    rintro a s' ⟨-, rfl⟩
    have hlog := (scanForListingLogged_eq hgo es 0 .initial context []).2
    rw [scanForListingLogged_fst] at hlog
    rw [hlog, reportedSlots_eq]
    exact ⟨trivial, rfl⟩
  · intro name hno
    have hfind := findEntryInClusterDir_result hfuel hrel h name
    have hnone := scanForName_find name es 0 .initial
    have hseen : (comparedSlots es).find? (fun x => nameEqualsIgnoreCase x.name name) = none := by
      cases hscan : scanForName name es 0 .initial with
      | found y => exact absurd hscan (hno y)
      | endMark => rw [hscan] at hnone; exact hnone
      | more lfn => rw [hscan] at hnone; exact hnone
    rw [hseen] at hfind
    exact hfind
  · have hempty := directoryIsEmpty_result hfuel hrel h
    have hpairs : ∀ name, NotFound es name → ((slotNames (reportedSlots es) = slotNames
        ((scanForNameLogged name es 0 .initial []).2.filter
          (fun x => x.entry.name0 ≠ 0x2E))) ↔ UninterruptedNames es) := by
      intro name hno
      rw [scanForNameLogged_snd hno, List.nil_append, sightings_filter, reportedSlots_eq,
        listedSlots, slotNames_eq_iff]
      unfold UninterruptedNames
      refine forall_congr' fun before => forall_congr' fun e => forall_congr' fun rest => ?_
      exact imp_congr_right fun _ => imp_congr_right fun _ => imp_congr_right fun _ =>
        decode_listed_iff
    constructor
    · intro hagree
      obtain ⟨name, hno⟩ := exists_notFound es
      exact (hpairs name hno).mp (hagree.pairs name hno)
    · intro hun
      refine ⟨fun name hno => (hpairs name hno).mpr hun, ?_⟩
      rw [reportedSlots_eq]
      exact hempty

end

theorem scansAgree_iff_small :
    ScansAgree smallEnv dottedState 2
        (chainEntries smallGeometry (dottedState.volume smallGeometry) [2]) ↔
      UninterruptedNames (chainEntries smallGeometry (dottedState.volume smallGeometry) [2]) :=
  (@scansAgree_iff smallEnv dottedState 2 [2] (by decide) smallEnv_reliable dottedState_chain).2.2

theorem notFound_of_isFound {es : List DirectoryEntry} {name : CStr}
    (h : (match scanForName name es 0 .initial with
      | .found _ => true
      | _ => false) = false) : NotFound es name := by
  intro x hx
  rw [hx] at h
  exact absurd h (by simp)

/-- Where a long name reaches over a dot slot the loops differ: one reports `x`, the other
compares `A`. -/
theorem not_scansAgree : ¬ ScansAgree smallEnv dottedState 2
    (chainEntries smallGeometry (dottedState.volume smallGeometry) [2]) := by
  intro hagree
  have hpairs := hagree.pairs [0x5A] (notFound_of_isFound (by decide +kernel))
  exact absurd hpairs (by decide +kernel)

end FunnyOS.Fat32
