import FunnyOS.Fat32.EntrySpec
import FunnyOS.Fat32.Layout

/-!
# The FAT on disk

`OnDisk g fat s`: the first copy of the FAT on the device holds `fat`. `flush_fat` brings it there,
nothing but `flush_fat` writes to it, and `fat32_mount` reads it back.
-/

namespace FunnyOS.Fat32

open Prog

variable {g : Geometry} {env : Env} {s s' : State} {fat : Nat → Nat}

/-! ## Where the copy lies -/

/-- Sector `k` of the first copy, as `write_sectors` and `read_sectors` number it: they go on
modulo 2^32 after every 255 sectors. -/
def Geometry.fatSector (g : Geometry) (k : Nat) : Nat :=
  (g.partitionLba + (g.reservedSectors + k / 255 * 255)) % 2 ^ 32 + k % 255

/-- The first copy of the FAT holds `fat`. -/
def OnDisk (g : Geometry) (fat : Nat → Nat) (s : State) : Prop :=
  ∀ k < g.sectorsPerFat, ∀ o < sectorSize,
    s.disk (g.fatSector k) o = fatBytes fat (k * sectorSize + o)

/-- The sectors of the volume that belong to data clusters. -/
def Geometry.InDataArea (g : Geometry) (l : Nat) : Prop :=
  ∃ c k, g.isValidDataCluster c ∧ k < g.sectorsPerCluster ∧ l = g.clusterToLba c + k

namespace Geometry

/-- The first copy ends inside the volume. -/
theorem fatSector_area {k : Nat} (hk : k < g.sectorsPerFat) :
    g.reservedSectors + k < 2 ^ 32 ∧ k < g.fatCount * g.sectorsPerFat := by
  have hcopy : g.sectorsPerFat ≤ g.fatCount * g.sectorsPerFat :=
    Nat.le_mul_of_pos_left _ g.fatCount_pos
  have := g.nonData_lt
  have := g.totalSectors_lt
  omega

theorem fatSector_inFatArea {k : Nat} (hk : k < g.sectorsPerFat) :
    g.InFatArea (g.fatSector k) := by
  have := (fatSector_area hk).2
  exact ⟨k / 255 * 255, k % 255, rfl, by omega⟩

theorem not_inFatArea_of_data {l : Nat} (h : g.InDataArea l) : ¬ g.InFatArea l := by
  obtain ⟨c, k, hc, hk, rfl⟩ := h
  exact g.not_inFatArea_cluster hc hk

/-- The boot sector is none of the FAT. -/
theorem partitionLba_not_inFatArea : ¬ g.InFatArea g.partitionLba := by
  rintro ⟨a, k, h, hk⟩
  have hpart := g.partitionLba_lt
  have hpos := g.reservedSectors_pos
  have := g.nonData_lt
  have := g.totalSectors_lt
  have h₀ : (g.partitionLba + 0) % 2 ^ 32 + 0
      = (g.partitionLba + (g.reservedSectors + a)) % 2 ^ 32 + k := by omega
  have := offset_eq (by omega) (by omega) h₀
  omega

/-- Nor does it belong to a cluster. -/
theorem partitionLba_not_inDataArea : ¬ g.InDataArea g.partitionLba := by
  rintro ⟨c, k, hc, hk, h⟩
  have hpart := g.partitionLba_lt
  have hpos := g.reservedSectors_pos
  have harea := g.cluster_area hc hk
  have := g.totalSectors_lt
  rw [clusterToLba_eq] at h
  have h₀ : (g.partitionLba + 0) % 2 ^ 32 + 0 = (g.partitionLba + (g.reservedSectors
      + g.fatCount * g.sectorsPerFat + (c - 2) * g.sectorsPerCluster)) % 2 ^ 32 + k := by omega
  have := offset_eq (by omega) (by omega) h₀
  omega

end Geometry

/-! ## Writing it -/

/-- A write of sectors that does not fail: the sectors hold the data, the others are as before. -/
theorem writeSectors_run (hrel : ¬ env.Faulty) (base : Nat) : ∀ (room offset count : Nat)
    (cursor : Nat → UInt8) (s : State), count ≤ room → offset + count < 2 ^ 32 →
    ∃ s', writeSectors env.fails room ((base + offset) % 2 ^ 32) count cursor s = .ok true s' ∧
      s'.fat = s.fat ∧
      (∀ k < count, ∀ o, s'.disk ((base + (offset + k / 255 * 255)) % 2 ^ 32 + k % 255) o
        = cursor (k * sectorSize + o)) ∧
      ∀ l o, s'.disk l o ≠ s.disk l o →
        ∃ a k, l = (base + a) % 2 ^ 32 + k ∧ offset ≤ a ∧ a + k < offset + count := by
  intro room
  induction room with
  | zero =>
    intro offset count cursor s hroom _
    obtain rfl : count = 0 := by omega
    exact ⟨s, rfl, rfl, by simp, by simp⟩
  | succ room ih =>
    intro offset count cursor s hroom hlt
    unfold writeSectors
    by_cases h0 : count = 0
    · subst h0
      exact ⟨s, by rw [if_pos rfl]; rfl, rfl, by simp, by simp⟩
    rw [if_neg h0]
    have hok : env.fails s.transfers = false := Bool.eq_false_iff.mpr fun h => hrel ⟨_, h⟩
    -- the first chunk, and then the rest behind it
    generalize hs₁ : ({ s with
      transfers := s.transfers + 1
      requests := ((base + offset) % 2 ^ 32, min count 255) :: s.requests
      disk := fun l o =>
        if (base + offset) % 2 ^ 32 ≤ l ∧ l < (base + offset) % 2 ^ 32 + min count 255 then
          cursor ((l - (base + offset) % 2 ^ 32) * sectorSize + o)
        else s.disk l o } : State) = s₁
    have hfirst : blockWriteSectors env.fails ((base + offset) % 2 ^ 32) (min count 255) cursor s
        = .ok true s₁ := by
      rw [← hs₁]
      simp [blockWriteSectors, hok]
    have hdisk₁ : ∀ l o, s₁.disk l o =
        if (base + offset) % 2 ^ 32 ≤ l ∧ l < (base + offset) % 2 ^ 32 + min count 255 then
          cursor ((l - (base + offset) % 2 ^ 32) * sectorSize + o)
        else s.disk l o := fun l o => by rw [← hs₁]
    have hlba : ((base + offset) % 2 ^ 32 + min count 255) % 2 ^ 32
        = (base + (offset + min count 255)) % 2 ^ 32 := by omega
    obtain ⟨s', hrun, hfat, hdata, hframe⟩ := ih (offset + min count 255) (count - min count 255)
      (fun o => cursor (min count 255 * sectorSize + o)) s₁ (by omega) (by omega)
    refine ⟨s', ?_, ?_, ?_, ?_⟩
    · rw [bind_of_ok hfirst, if_pos rfl, hlba]
      exact hrun
    · rw [hfat, ← hs₁]
    · intro k hk o
      by_cases hin : k < min count 255
      · have hkdiv : k / 255 * 255 = 0 := by omega
        have hkmod : k % 255 = k := by omega
        rw [hkdiv, hkmod, Nat.add_zero]
        have hsame : s'.disk ((base + offset) % 2 ^ 32 + k) o
            = s₁.disk ((base + offset) % 2 ^ 32 + k) o := by
          by_contra hne
          obtain ⟨a, j, hl, ha, hj⟩ := hframe _ _ hne
          have := Geometry.offset_eq (by omega) (by omega) hl
          omega
        rw [hsame, hdisk₁, if_pos (by omega), Nat.add_sub_cancel_left]
      · have hcount : min count 255 = 255 := by omega
        rw [hcount] at hdata
        have hplace : (base + (offset + k / 255 * 255)) % 2 ^ 32 + k % 255
            = (base + (offset + 255 + (k - 255) / 255 * 255)) % 2 ^ 32 + (k - 255) % 255 := by
          have hdiv : offset + k / 255 * 255 = offset + 255 + (k - 255) / 255 * 255 := by omega
          have hmod : k % 255 = (k - 255) % 255 := by omega
          rw [hdiv, hmod]
        have hrest := hdata (k - 255) (by omega) o
        rw [← hplace] at hrest
        refine hrest.trans (congrArg cursor ?_)
        simp only [sectorSize]
        omega
    · intro l o hne
      by_cases h₁ : s'.disk l o = s₁.disk l o
      · rw [h₁, hdisk₁] at hne
        split at hne
        · next hin => exact ⟨offset, l - (base + offset) % 2 ^ 32, by omega, le_rfl, by omega⟩
        · exact absurd rfl hne
      · obtain ⟨a, k, hl, ha, hk⟩ := hframe l o h₁
        exact ⟨a, k, hl, by omega, by omega⟩

/-- The copies from number `i` on: they lie where they should. -/
theorem flushCopies_run (hrel : ¬ env.Faulty) : ∀ (copies i : Nat) (s : State),
    copies + i = env.geometry.fatCount →
    ∃ s', flushCopies env copies i s = .ok true s' ∧ s'.fat = s.fat ∧
      (copies ≠ 0 → i = 0 → OnDisk env.geometry s.fat s') ∧
      ∀ l o, s'.disk l o ≠ s.disk l o → ∃ a k,
        l = (env.geometry.partitionLba + (env.geometry.reservedSectors + a)) % 2 ^ 32 + k ∧
        i * env.geometry.sectorsPerFat ≤ a ∧
        a + k < env.geometry.fatCount * env.geometry.sectorsPerFat := by
  intro copies
  induction copies with
  | zero => exact fun i s _ => ⟨s, rfl, rfl, fun h => absurd rfl h, by simp⟩
  | succ copies ih =>
    intro i s hi
    have hcopy : i * env.geometry.sectorsPerFat + env.geometry.sectorsPerFat
        ≤ env.geometry.fatCount * env.geometry.sectorsPerFat := by
      rw [← Nat.succ_mul]
      exact Nat.mul_le_mul_right _ (by omega)
    have hdata := env.geometry.nonData_lt
    have htotal := env.geometry.totalSectors_lt
    have hlba : (env.geometry.fatLba + i * env.geometry.sectorsPerFat) % 2 ^ 32
        = (env.geometry.partitionLba
          + (env.geometry.reservedSectors + i * env.geometry.sectorsPerFat)) % 2 ^ 32 := by
      simp only [Geometry.fatLba]
      omega
    obtain ⟨s₁, hrun₁, hfat₁, hstored, hframe₁⟩ := writeSectors_run hrel env.geometry.partitionLba
      env.geometry.sectorsPerFat (env.geometry.reservedSectors + i * env.geometry.sectorsPerFat)
      env.geometry.sectorsPerFat (fatBytes s.fat) s le_rfl (by omega)
    obtain ⟨s', hrun, hfat, -, hframe⟩ := ih (i + 1) s₁ (by omega)
    have hall : ∀ l o, s'.disk l o ≠ s₁.disk l o → ∃ a k,
        l = (env.geometry.partitionLba + (env.geometry.reservedSectors + a)) % 2 ^ 32 + k ∧
        i * env.geometry.sectorsPerFat + env.geometry.sectorsPerFat ≤ a ∧
        a + k < env.geometry.fatCount * env.geometry.sectorsPerFat := by
      intro l o hne
      obtain ⟨a, k, hl, ha, hk⟩ := hframe l o hne
      rw [Nat.succ_mul] at ha
      exact ⟨a, k, hl, ha, hk⟩
    refine ⟨s', ?_, hfat.trans hfat₁, ?_, ?_⟩
    · unfold flushCopies
      change (writeSectors env.fails env.geometry.sectorsPerFat
        ((env.geometry.fatLba + i * env.geometry.sectorsPerFat) % 2 ^ 32)
        env.geometry.sectorsPerFat (fatBytes s.fat) >>= _) s = _
      rw [hlba, bind_of_ok hrun₁, if_pos rfl]
      exact hrun
    · rintro - rfl k hk o ho
      -- the later copies lie behind the first one
      have hsame : s'.disk (env.geometry.fatSector k) o = s₁.disk (env.geometry.fatSector k) o := by
        by_contra hne
        obtain ⟨a, j, hl, ha, hj⟩ := hall _ _ hne
        have := Geometry.offset_eq (by omega) (by omega) hl
        omega
      rw [hsame]
      have := hstored k hk o
      rw [Nat.zero_mul, Nat.add_zero] at this
      exact this
    · intro l o hne
      by_cases h₁ : s'.disk l o = s₁.disk l o
      · obtain ⟨a, k, hl, ha, hk⟩ := hframe₁ l o (h₁ ▸ hne)
        refine ⟨a - env.geometry.reservedSectors, k, ?_, by omega, by omega⟩
        rw [hl, Nat.add_sub_cancel' (by omega)]
      · obtain ⟨a, k, hl, ha, hk⟩ := hall l o h₁
        exact ⟨a, k, hl, by omega, hk⟩

/-- `flush_fat` brings the FAT to the device and writes nothing else. -/
theorem flushFat_run (hrel : ¬ env.Faulty) (s : State) :
    ∃ s', flushFat env s = .ok true s' ∧ s'.fat = s.fat ∧ OnDisk env.geometry s.fat s' ∧
      ∀ l o, s'.disk l o ≠ s.disk l o → env.geometry.InFatArea l := by
  obtain ⟨s', hrun, hfat, hdisk, hframe⟩ :=
    flushCopies_run hrel env.geometry.fatCount 0 s (by omega)
  refine ⟨s', hrun, hfat, hdisk (Nat.pos_iff_ne_zero.mp env.geometry.fatCount_pos) rfl, ?_⟩
  intro l o hne
  obtain ⟨a, k, hl, -, hk⟩ := hframe l o hne
  exact ⟨a, k, hl, hk⟩

/-! ## Reading it -/

/-- The bytes of the first copy. -/
def fatCopy (g : Geometry) (s : State) : Nat → UInt8 :=
  fun o => s.disk (g.fatSector (o / sectorSize)) (o % sectorSize)

/-- Taking an entry apart gives back its bytes. -/
theorem fatBytes_fatEntry {bytes : Nat → UInt8} {n : Nat} :
    fatBytes (fatEntry bytes) n = bytes n := by
  have h₀ := (bytes (4 * (n / 4))).toNat_lt
  have h₁ := (bytes (4 * (n / 4) + 1)).toNat_lt
  have h₂ := (bytes (4 * (n / 4) + 2)).toNat_lt
  have h₃ := (bytes (4 * (n / 4) + 3)).toNat_lt
  apply UInt8.toNat_inj.mp
  have hn : n % 4 = 0 ∨ n % 4 = 1 ∨ n % 4 = 2 ∨ n % 4 = 3 := by omega
  rcases hn with hn | hn | hn | hn
  all_goals
    have hplace := Nat.div_add_mod n 4
    rw [hn] at hplace
    simp only [fatBytes, fatEntry, le16, leByte, hn, UInt8.toNat_ofNat']
  · rw [Nat.add_zero] at hplace
    rw [hplace] at h₀ ⊢
    omega
  · rw [hplace] at h₁ ⊢
    omega
  · rw [hplace] at h₂ ⊢
    omega
  · rw [hplace] at h₃ ⊢
    omega

/-- Putting the bytes of an entry together gives back the entry. -/
theorem fatEntry_fatBytes {c : Nat} (h : fat c < 2 ^ 32) : fatEntry (fatBytes fat) c = fat c := by
  have h₀ : 4 * c / 4 = c ∧ 4 * c % 4 = 0 := by omega
  have h₁ : (4 * c + 1) / 4 = c ∧ (4 * c + 1) % 4 = 1 := by omega
  have h₂ : (4 * c + 2) / 4 = c ∧ (4 * c + 2) % 4 = 2 := by omega
  have h₃ : (4 * c + 3) / 4 = c ∧ (4 * c + 3) % 4 = 3 := by omega
  have hbytes := leByte_high h
  simp only [fatEntry, fatBytes, h₀, h₁, h₂, h₃]
  omega

/-- An entry depends on its four bytes. -/
theorem fatEntry_congr {bytes bytes' : Nat → UInt8} {c c' : Nat}
    (h : ∀ j < 4, bytes (4 * c + j) = bytes' (4 * c' + j)) :
    fatEntry bytes c = fatEntry bytes' c' := by
  have h₀ := h 0 (by omega)
  have h₁ := h 1 (by omega)
  have h₂ := h 2 (by omega)
  have h₃ := h 3 (by omega)
  simp only [Nat.add_zero] at h₀
  simp only [fatEntry, h₀, h₁, h₂, h₃]

theorem fatEntry_lt {bytes : Nat → UInt8} {c : Nat} : fatEntry bytes c < 2 ^ 32 := by
  have h₀ := (bytes (4 * c)).toNat_lt
  have h₁ := (bytes (4 * c + 1)).toNat_lt
  have h₂ := (bytes (4 * c + 2)).toNat_lt
  have h₃ := (bytes (4 * c + 3)).toNat_lt
  simp only [fatEntry, le16]
  omega

/-- What is read from the first copy lies there. -/
theorem onDisk_fatCopy : OnDisk g (fatEntry (fatCopy g s)) s := by
  intro k _ o ho
  rw [fatBytes_fatEntry]
  have hdiv : (k * sectorSize + o) / sectorSize = k := by
    simp only [sectorSize] at ho ⊢
    omega
  have hmod : (k * sectorSize + o) % sectorSize = o := by
    simp only [sectorSize] at ho ⊢
    omega
  simp only [fatCopy, hdiv, hmod]

/-- What lies there is read from it. -/
theorem OnDisk.fatEntry_eq {c : Nat} (h : OnDisk g fat s) (hfit : fat c < 2 ^ 32)
    (hc : c < g.sectorsPerFat * 128) : fatEntry (fatCopy g s) c = fat c := by
  rw [← fatEntry_fatBytes hfit]
  refine fatEntry_congr fun j hj => ?_
  have hmod : (4 * c + j) % sectorSize < sectorSize := Nat.mod_lt _ (by decide)
  have hdiv : (4 * c + j) / sectorSize < g.sectorsPerFat := by
    simp only [sectorSize]
    omega
  rw [fatCopy, h _ hdiv _ hmod, Nat.div_add_mod']

/-- The rest of the FAT from sector `done` on. -/
theorem readFatSectors_run {fails : Nat → Bool} (hrel : ∀ t, fails t = false) :
    ∀ (room done count : Nat) (s : State), count ≤ room → (count ≠ 0 → done % 255 = 0) →
    done + count = g.sectorsPerFat →
    ∃ s', readFatSectors fails room ((g.partitionLba + (g.reservedSectors + done)) % 2 ^ 32) count
        done s = .ok true s' ∧ s'.disk = s.disk ∧
      ∀ c, s'.fat c = if done * 128 ≤ c ∧ c < g.sectorsPerFat * 128 then fatEntry (fatCopy g s) c
        else s.fat c := by
  intro room
  induction room with
  | zero =>
    intro done count s hroom _ hsum
    refine ⟨s, rfl, rfl, fun c => ?_⟩
    rw [if_neg (by omega)]
  | succ room ih =>
    intro done count s hroom hdone hsum
    unfold readFatSectors
    by_cases h0 : count = 0
    · refine ⟨s, by rw [if_pos h0]; rfl, rfl, fun c => ?_⟩
      rw [if_neg (by omega)]
    rw [if_neg h0]
    have hdone := hdone h0
    generalize hlba : (g.partitionLba + (g.reservedSectors + done)) % 2 ^ 32 = lba
    have hread : blockReadSectors fails lba (min count 255) s
        = .ok (some fun o => s.disk (lba + o / sectorSize) (o % sectorSize))
          { s with
            transfers := s.transfers + 1
            requests := (lba, min count 255) :: s.requests } := by
      simp [blockReadSectors, hrel]
    have hnext : (lba + min count 255) % 2 ^ 32
        = (g.partitionLba + (g.reservedSectors + (done + min count 255))) % 2 ^ 32 := by omega
    generalize hs₁ : ({ s with
      transfers := s.transfers + 1
      requests := (lba, min count 255) :: s.requests
      fat := fun c =>
        if done * 128 ≤ c ∧ c < (done + min count 255) * 128 then
          fatEntry (fun o => s.disk (lba + o / sectorSize) (o % sectorSize)) (c - done * 128)
        else s.fat c } : State) = s₁
    have hcopy : fatCopy g s₁ = fatCopy g s := by
      rw [← hs₁]
      rfl
    have hfat₁ : ∀ c, s₁.fat c = if done * 128 ≤ c ∧ c < (done + min count 255) * 128 then
        fatEntry (fatCopy g s) c else s.fat c := by
      intro c
      rw [← hs₁]
      simp only
      split
      · next hin =>
        refine fatEntry_congr fun j hj => ?_
        -- within the chunk the sectors follow each other
        have hsector : g.fatSector ((4 * c + j) / sectorSize)
            = lba + (4 * (c - done * 128) + j) / sectorSize := by
          simp only [Geometry.fatSector, sectorSize, ← hlba]
          have hq : (4 * c + j) / 512 = done + (4 * (c - done * 128) + j) / 512 := by omega
          have hr : (4 * (c - done * 128) + j) / 512 < 255 := by omega
          rw [hq]
          have hdiv : (done + (4 * (c - done * 128) + j) / 512) / 255 * 255 = done := by omega
          rw [hdiv]
          omega
        have hmod : (4 * c + j) % sectorSize = (4 * (c - done * 128) + j) % sectorSize := by
          simp only [sectorSize]
          omega
        rw [fatCopy, hsector, hmod]
      · rfl
    obtain ⟨s', hrun, hdisk, hfat⟩ := ih (done + min count 255) (count - min count 255) s₁
      (by omega) (by omega) (by omega)
    refine ⟨s', ?_, ?_, fun c => ?_⟩
    · rw [← hnext] at hrun
      rw [bind_of_ok hread]
      change readFatSectors fails room ((lba + min count 255) % 2 ^ 32) (count - min count 255)
        (done + min count 255) { s with
          transfers := s.transfers + 1
          requests := (lba, min count 255) :: s.requests
          fat := _ } = _
      rw [hs₁]
      exact hrun
    · rw [hdisk, ← hs₁]
    · rw [hfat, hcopy, hfat₁]
      split
      · next hin => rw [if_pos (by omega)]
      · next hout =>
        split
        · next hin => rw [if_pos (by omega)]
        · next hout' => rw [if_neg (by omega)]

/-! ## Mounting -/

/-- `fat32_mount` looks at the first sector only. -/
theorem bootGeometry_low {lba : Nat} {boot : Nat → UInt8} :
    bootGeometry lba boot = bootGeometry lba (fun o => if o < sectorSize then boot o else 0) := rfl

theorem bootGeometry_congr {lba : Nat} {boot boot' : Nat → UInt8}
    (h : ∀ o < sectorSize, boot' o = boot o) : bootGeometry lba boot' = bootGeometry lba boot := by
  rw [bootGeometry_low, @bootGeometry_low lba boot]
  congr 1
  funext o
  split
  · next ho => exact h o ho
  · rfl

/-- Mounting an accepted volume reads the first copy of its FAT. -/
theorem fat32Mount_run {fails : Nat → Bool} {lba : Nat} (hrel : ∀ t, fails t = false)
    (hboot : bootGeometry lba (bootSector s lba) = some g) :
    ∃ s', fat32Mount fails lba sectorSize s = .ok (some g) s' ∧ s'.disk = s.disk ∧
      s'.mounted = true ∧
      s'.fat = fun c => if c < g.sectorsPerFat * 128 then fatEntry (fatCopy g s) c else 0 := by
  generalize hs₁ : ({ s with
    transfers := s.transfers + 1, requests := (lba, 1) :: s.requests } : State) = s₁
  have hread : blockReadSectors fails lba 1 s = .ok (some (bootSector s lba)) s₁ := by
    rw [← hs₁]
    simp only [blockReadSectors, hrel, Bool.false_eq_true, if_false]
    rfl
  have hlba : g.fatLba = (g.partitionLba + (g.reservedSectors + 0)) % 2 ^ 32 := rfl
  obtain ⟨s₂, hrun, hdisk, hfat⟩ := readFatSectors_run (g := g) hrel g.sectorsPerFat 0
    g.sectorsPerFat s₁ le_rfl (fun _ => rfl) (Nat.zero_add _)
  rw [← hlba] at hrun
  refine ⟨{ s₂ with
    mounted := true
    clusterBuffer := fun _ => 0
    fat := fun c => if c < g.sectorsPerFat * 128 then s₂.fat c else 0 }, ?_, ?_, rfl, ?_⟩
  · unfold fat32Mount
    rw [if_neg (by simp), bind_of_ok hread]
    simp only [hboot]
    rw [bind_of_ok hrun, if_pos rfl]
    rfl
  · rw [← hs₁] at hdisk
    exact hdisk
  · funext c
    have hcopy : fatCopy g s₁ = fatCopy g s := by
      rw [← hs₁]
      rfl
    simp only [hfat, hcopy]
    by_cases hc : c < g.sectorsPerFat * 128
    · rw [if_pos hc, if_pos hc, if_pos ⟨Nat.zero_le _, hc⟩]
    · rw [if_neg hc, if_neg hc]

end FunnyOS.Fat32
