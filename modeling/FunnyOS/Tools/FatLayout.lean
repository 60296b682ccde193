import Mathlib

/-!
# The layout of an image

`tools/make_fat32_image.py`: `compute_layout` looks for a FAT size by putting the size that a round
needs into the next one. The size is accepted only when a round needs exactly what it has been
given, and after 32 rounds the search is given up. An exception is an error with its text.

With the sizes written as `s + e`, where `s` is the smallest FAT size that fits, a round maps the
error `e` to about `-e / 64`. Where an exact size exists, the errors that die out within `n` rounds
are an interval whose bounds are written in base 64 with two digits in turn.
-/

namespace FunnyOS.Tools

/-! ## The tool -/

/-- `SECTOR_SIZE`. -/
abbrev sectorSize : Int := 512

/-- `RESERVED_SECTORS`. -/
abbrev reservedSectors : Int := 32

/-- `FAT_COUNT`. -/
abbrev fatCount : Int := 2

/-- `SECTORS_PER_CLUSTER`. -/
abbrev sectorsPerCluster : Int := 1

/-- The result of `compute_layout`. -/
structure FatLayout where
  sectorsPerFat : Int
  totalClusters : Int
  dataLba : Int
deriving DecidableEq, Repr

/-- `data_sectors`. -/
def dataSectors (totalSectors sectorsPerFat : Int) : Int :=
  totalSectors - reservedSectors - fatCount * sectorsPerFat

/-- `new_sectors_per_fat`. -/
def newSectorsPerFat (totalSectors sectorsPerFat : Int) : Int :=
  let dataClusters := dataSectors totalSectors sectorsPerFat / sectorsPerCluster
  let requiredFatEntries := dataClusters + 2
  (requiredFatEntries * 4 + (sectorSize - 1)) / sectorSize

/-- The loop of `compute_layout`, with the rounds that are left. -/
def fatRounds (totalSectors : Int) : Nat → Int → Except String Int
  | 0, _ => .error "failed to converge FAT32 layout"
  | rounds + 1, sectorsPerFat =>
    if dataSectors totalSectors sectorsPerFat ≤ 0 then
      .error "invalid FAT32 layout: no data sectors"
    else if newSectorsPerFat totalSectors sectorsPerFat = sectorsPerFat then .ok sectorsPerFat
    else fatRounds totalSectors rounds (newSectorsPerFat totalSectors sectorsPerFat)

/-- `compute_layout`. -/
def computeLayout (totalSectors : Int) : Except String FatLayout := do
  let sectorsPerFat ← fatRounds totalSectors 32 1
  let fatEntries := sectorsPerFat * sectorSize / 4
  let dataClusters := dataSectors totalSectors sectorsPerFat / sectorsPerCluster
  let totalClusters := dataClusters + 2
  if totalClusters > fatEntries then .error "FAT too small for data clusters"
  else pure ⟨sectorsPerFat, totalClusters, reservedSectors + fatCount * sectorsPerFat⟩

/-! ## What a layout is for -/

/-- A FAT of `s` sectors leaves room for data and has an entry for every cluster. -/
def FatFits (totalSectors s : Int) : Prop :=
  totalSectors > 32 + 2 * s ∧ totalSectors - 32 - 2 * s + 2 ≤ 128 * s

/-- The layout has a FAT that fits, and at most one sector more than needed. -/
structure LayoutOk (totalSectors : Int) (layout : FatLayout) : Prop where
  fits : FatFits totalSectors layout.sectorsPerFat
  least : ∀ s, FatFits totalSectors s → layout.sectorsPerFat ≤ s + 1
  totalClusters : layout.totalClusters = totalSectors - 32 - 2 * layout.sectorsPerFat + 2
  dataLba : layout.dataLba = 32 + 2 * layout.sectorsPerFat

/-- The number with `n` digits in base 64, the lowest one `h`, the next one `63 - h`, and so on. -/
def alternatingDigits : Nat → Int → Int
  | 0, _ => 0
  | n + 1, h => h + 64 * alternatingDigits n (63 - h)

/-- The least FAT size with an entry for every cluster. -/
def leastFat (totalSectors : Int) : Int := (totalSectors - 30 + 129) / 130

/-- The entries of that FAT, and of the sectors that it takes, for which there is no cluster. -/
def spareEntries (totalSectors : Int) : Int := 130 * leastFat totalSectors - (totalSectors - 30)

/-- Some round needs exactly the FAT that it is given, and 31 rounds lead there. -/
def Converges (totalSectors : Int) : Prop :=
  spareEntries totalSectors ≤ 127 ∧
    leastFat totalSectors - 1 ≤ alternatingDigits 31 (spareEntries totalSectors / 2)

instance {totalSectors : Int} : Decidable (Converges totalSectors) :=
  inferInstanceAs (Decidable (_ ∧ _))

section

variable {t s k e h x : Int} {n : Nat}

/-! ## Rounds -/

theorem newSectorsPerFat_eq : newSectorsPerFat t x = (t - 30 - 2 * x + 127) / 128 := by
  simp only [newSectorsPerFat, dataSectors, sectorsPerCluster, sectorSize, reservedSectors, fatCount]
  omega

/-- What a round makes of the error. -/
theorem newSectorsPerFat_error (ht : t - 30 = 130 * s - k) :
    newSectorsPerFat t (s + e) = s + (127 - k - 2 * e) / 128 := by
  rw [newSectorsPerFat_eq]
  omega

/-- The sizes that come up in the rounds: there are always sectors for data. -/
def Feasible (t x : Int) : Prop := 1 ≤ x ∧ x ≤ newSectorsPerFat t 1

theorem Feasible.dataSectors_pos (ht : 35 ≤ t) (h : Feasible t x) : 0 < dataSectors t x := by
  obtain ⟨hlow, hhigh⟩ := h
  rw [newSectorsPerFat_eq] at hhigh
  simp only [dataSectors, reservedSectors, fatCount]
  omega

theorem Feasible.next (ht : 35 ≤ t) (h : Feasible t x) : Feasible t (newSectorsPerFat t x) := by
  obtain ⟨hlow, hhigh⟩ := h
  unfold Feasible
  rw [newSectorsPerFat_eq] at hhigh ⊢
  rw [newSectorsPerFat_eq]
  omega

theorem feasible_one (ht : 35 ≤ t) : Feasible t 1 := by
  unfold Feasible
  rw [newSectorsPerFat_eq]
  omega

theorem alternatingDigits_nonneg (h0 : 0 ≤ h) (h1 : h ≤ 63) : 0 ≤ alternatingDigits n h := by
  induction n generalizing h with
  | zero => exact le_rfl
  | succ n ih =>
    have hrest := ih (h := 63 - h) (by omega) (by omega)
    rw [alternatingDigits]
    omega

/-- Where an exact size exists, the rounds end there if the error is small enough for them. -/
theorem fatRounds_settles (ht : 35 ≤ t) (hs : t - 30 = 130 * s - k) (h0 : 0 ≤ k) (h1 : k ≤ 127)
    (hx : Feasible t (s + e)) : fatRounds t (n + 1) (s + e) =
      if -alternatingDigits n (k / 2) ≤ e ∧ e ≤ alternatingDigits n (63 - k / 2) then .ok s
      else .error "failed to converge FAT32 layout" := by
  induction n generalizing e with
  | zero =>
    have hdata := hx.dataSectors_pos ht
    rw [fatRounds, if_neg (by omega), newSectorsPerFat_error hs]
    by_cases he : e = 0
    · rw [if_pos (by omega), if_pos (by simp [he, alternatingDigits]), he, add_zero]
    · rw [if_neg (by omega), if_neg (by simp only [alternatingDigits]; omega)]
      rfl
  | succ n ih =>
    have hdata := hx.dataSectors_pos ht
    have hnext := hx.next ht
    have hlow := alternatingDigits_nonneg (n := n) (h := k / 2) (by omega) (by omega)
    have hhigh := alternatingDigits_nonneg (n := n) (h := 63 - k / 2) (by omega) (by omega)
    rw [newSectorsPerFat_error hs] at hnext
    rw [fatRounds, if_neg (by omega), newSectorsPerFat_error hs]
    have hdouble : 63 - (63 - k / 2) = k / 2 := by omega
    simp only [alternatingDigits, hdouble]
    by_cases he : e = 0
    · rw [if_pos (by omega), if_pos (by omega), he, add_zero]
    · rw [if_neg (by omega), ih hnext]
      exact if_congr (by omega) rfl rfl

/-- Where no exact size exists, the rounds never end. -/
theorem fatRounds_never (ht : 35 ≤ t) (hs : t - 30 = 130 * s - k) (h0 : 128 ≤ k) (h1 : k ≤ 129)
    (hx : Feasible t (s + e)) :
    fatRounds t n (s + e) = .error "failed to converge FAT32 layout" := by
  induction n generalizing e with
  | zero => rfl
  | succ n ih =>
    have hdata := hx.dataSectors_pos ht
    have hnext := hx.next ht
    rw [newSectorsPerFat_error hs] at hnext
    rw [fatRounds, if_neg (by omega), newSectorsPerFat_error hs, if_neg (by omega)]
    exact ih hnext

/-! ## The layout -/

theorem spareEntries_range : 0 ≤ spareEntries t ∧ spareEntries t ≤ 129 := by
  unfold spareEntries leastFat
  omega

theorem leastFat_le (h : FatFits t s) : leastFat t ≤ s := by
  obtain ⟨-, hentries⟩ := h
  unfold leastFat
  omega

theorem total_of_fits (h : FatFits t s) : 35 ≤ t := by
  obtain ⟨hdata, hentries⟩ := h
  omega

/-- The rounds find the least FAT or none. -/
theorem fatRounds_eq (h : FatFits t s) : fatRounds t 32 1 =
    if Converges t then .ok (leastFat t) else .error "failed to converge FAT32 layout" := by
  have ht := total_of_fits h
  have hs : t - 30 = 130 * leastFat t - spareEntries t := by
    unfold spareEntries
    omega
  obtain ⟨h0, h1⟩ := spareEntries_range (t := t)
  have hone : leastFat t + (1 - leastFat t) = 1 := by omega
  have hx : Feasible t (leastFat t + (1 - leastFat t)) := hone.symm ▸ feasible_one ht
  have hleast : 1 ≤ leastFat t := by
    unfold leastFat
    omega
  by_cases hk : spareEntries t ≤ 127
  · have hhigh := alternatingDigits_nonneg (n := 31) (h := 63 - spareEntries t / 2) (by omega)
      (by omega)
    rw [← hone, fatRounds_settles ht hs h0 hk hx]
    refine if_congr ?_ rfl rfl
    unfold Converges
    constructor
    · intro he
      exact ⟨hk, by omega⟩
    · intro hc
      exact ⟨by omega, by omega⟩
  · rw [← hone, fatRounds_never ht hs (by omega) h1 hx, if_neg]
    exact fun hc => hk hc.1

/-- Sizes of less than 2^32 sectors only have to keep clear of the two residues for which no round
needs exactly the FAT that it is given. -/
theorem converges_iff_of_lt (ht : 35 ≤ t) (hlt : t < 2 ^ 32) :
    Converges t ↔ t % 130 ≠ 31 ∧ t % 130 ≠ 32 := by
  have hspare : spareEntries t ≤ 127 ↔ t % 130 ≠ 31 ∧ t % 130 ≠ 32 := by
    unfold spareEntries leastFat
    omega
  rw [Converges, hspare, and_iff_left_iff_imp]
  intro hres
  obtain ⟨h0, -⟩ := spareEntries_range (t := t)
  have hdigits := alternatingDigits_nonneg (n := 25) (h := 63 - spareEntries t / 2) (by omega)
    (by omega)
  have hdouble : 63 - (63 - spareEntries t / 2) = spareEntries t / 2 := by omega
  simp only [alternatingDigits, hdouble] at hdigits ⊢
  unfold leastFat
  omega

/-- `compute_layout` finds a layout exactly where some round needs the FAT that it is given, and
is not cut off before. -/
theorem computeLayout_ok_iff (h : FatFits t s) :
    (∃ layout, computeLayout t = .ok layout ∧ LayoutOk t layout) ↔ Converges t := by
  unfold computeLayout
  rw [fatRounds_eq h]
  by_cases hc : Converges t
  · refine ⟨fun _ => hc, fun _ => ?_⟩
    have hfits : FatFits t (leastFat t) := by
      have hdata := (leastFat_le h)
      obtain ⟨hroom, -⟩ := h
      constructor
      · omega
      · unfold leastFat
        omega
    obtain ⟨hroom, hentries⟩ := hfits
    rw [if_pos hc]
    refine ⟨⟨leastFat t, t - 32 - 2 * leastFat t + 2, 32 + 2 * leastFat t⟩, ?_, ⟨hroom, hentries⟩,
      fun s' hs' => (leastFat_le hs').trans (by omega), rfl, rfl⟩
    simp only [bind, Except.bind, dataSectors, sectorsPerCluster, sectorSize, reservedSectors,
      fatCount, Int.ediv_one]
    rw [if_neg (by omega)]
    rfl
  · rw [if_neg hc]
    refine ⟨fun hex => ?_, fun hc' => absurd hc' hc⟩
    obtain ⟨layout, hrun, -⟩ := hex
    cases hrun

end

/-- For 63 MiB there is a layout. -/
theorem computeLayout_ok_iff_small :
    (∃ layout, computeLayout 129024 = .ok layout ∧ LayoutOk 129024 layout) ↔ Converges 129024 :=
  computeLayout_ok_iff (s := 993) ⟨by decide, by decide⟩

/-- For 64 MiB the rounds go back and forth between a FAT of 1008 sectors, which is too small, and
one of 1009 sectors, which would do. -/
theorem computeLayout_fails : FatFits 131072 1009 ∧
    computeLayout 131072 = .error "failed to converge FAT32 layout" :=
  ⟨⟨by decide, by decide⟩, by decide +kernel⟩

end FunnyOS.Tools
