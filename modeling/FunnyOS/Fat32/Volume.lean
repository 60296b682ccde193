import FunnyOS.Fat32.Device

/-!
# The volume seen through clusters

Everything later calls depend on is the in-memory FAT and the content of the data
clusters. `State.volume` extracts these from the sectors of the device; the specifications
of `read_cluster`, `write_cluster` and `flush_fat` are given over it. They rest on the
layout that `fat32_mount` has checked: the sectors of different clusters, and of the FAT
copies, do not overlap even though every sector number is computed modulo `2 ^ 32`.
-/

namespace FunnyOS.Fat32

open Prog

/-! ## Geometry -/

namespace Geometry

variable (g : Geometry)

theorem clusterSize_pos : 0 < g.clusterSize :=
  Nat.mul_pos g.sectorsPerCluster_pos (by decide)

theorem entriesPerCluster_mul : g.entriesPerCluster * 32 = g.clusterSize := by
  simp only [entriesPerCluster, clusterSize, sectorSize]; omega

theorem entriesPerCluster_eq : g.entriesPerCluster = 16 * g.sectorsPerCluster := by
  simp only [entriesPerCluster, clusterSize, sectorSize]; omega

theorem entriesPerCluster_ge : 16 ≤ g.entriesPerCluster := by
  have := g.sectorsPerCluster_pos
  rw [entriesPerCluster_eq]; omega

theorem clusterSize_le : g.clusterSize ≤ 4096 := by
  have := g.sectorsPerCluster_le
  simp only [clusterSize, sectorSize, maxClusterSectors] at *; omega

theorem totalClusters_lt : g.totalClusters ≤ 524288 := by
  have h₁ := g.totalClusters_le
  have h₂ := g.sectorsPerFat_le
  simp only [sectorSize, maxFatSectors] at *; omega

theorem totalClusters_lt_endOfChain : g.totalClusters < endOfChain := by
  have := g.totalClusters_lt
  simp only [endOfChain]; omega

theorem isValidDataCluster_iff {c : Nat} :
    g.isValidDataCluster c = true ↔ 2 ≤ c ∧ c < g.totalClusters := by
  simp [isValidDataCluster]

/-- The sectors of a data cluster lie inside the volume. -/
theorem cluster_area {c k : Nat} (hc : g.isValidDataCluster c) (hk : k < g.sectorsPerCluster) :
    g.reservedSectors + g.fatCount * g.sectorsPerFat + (c - 2) * g.sectorsPerCluster + k
      < g.totalSectors := by
  rw [isValidDataCluster_iff] at hc
  have hlt : c - 2 + 1 ≤
      (g.totalSectors - (g.reservedSectors + g.fatCount * g.sectorsPerFat))
        / g.sectorsPerCluster := by
    have := g.totalClusters_eq; omega
  have hmul := (Nat.le_div_iff_mul_le g.sectorsPerCluster_pos).mp hlt
  have := g.nonData_lt
  rw [Nat.add_mul, Nat.one_mul] at hmul
  omega

/-- Where a data cluster starts, as a sum counted from the start of the partition. -/
theorem clusterToLba_eq (c : Nat) : g.clusterToLba c =
    (g.partitionLba + (g.reservedSectors + g.fatCount * g.sectorsPerFat
      + (c - 2) * g.sectorsPerCluster)) % 2 ^ 32 := by
  simp only [clusterToLba, dataLba, fatLba]
  omega

/-- Equal sector numbers come from equal offsets, as long as these are below `2 ^ 32`. -/
theorem offset_eq {base a b k l : Nat} (ha : a + k < 2 ^ 32) (hb : b + l < 2 ^ 32)
    (h : (base + a) % 2 ^ 32 + k = (base + b) % 2 ^ 32 + l) : a + k = b + l := by
  omega

/-- Different places of the data area are different sectors. -/
theorem clusterToLba_inj {c c' k m : Nat} (hc : g.isValidDataCluster c)
    (hc' : g.isValidDataCluster c') (hk : k < g.sectorsPerCluster)
    (hk' : m < g.sectorsPerCluster)
    (h : g.clusterToLba c + k = g.clusterToLba c' + m) : c = c' ∧ k = m := by
  have hlt := g.totalSectors_lt
  have h₁ := g.cluster_area hc hk
  have h₂ := g.cluster_area hc' hk'
  rw [clusterToLba_eq, clusterToLba_eq] at h
  have heq := offset_eq (by omega) (by omega) h
  have heq' : (c - 2) * g.sectorsPerCluster + k = (c' - 2) * g.sectorsPerCluster + m := by
    omega
  have hdiv := congrArg (· / g.sectorsPerCluster) heq'
  have hmod := congrArg (· % g.sectorsPerCluster) heq'
  simp only [Nat.mul_comm _ g.sectorsPerCluster, Nat.mul_add_div g.sectorsPerCluster_pos,
    Nat.div_eq_of_lt hk, Nat.div_eq_of_lt hk', Nat.mul_add_mod, Nat.mod_eq_of_lt hk,
    Nat.mod_eq_of_lt hk'] at hdiv hmod
  rw [isValidDataCluster_iff] at hc hc'
  omega

/-- The sectors of the FAT copies, as `write_sectors` numbers them. -/
def InFatArea (l : Nat) : Prop :=
  ∃ a k, l = (g.partitionLba + (g.reservedSectors + a)) % 2 ^ 32 + k
    ∧ a + k < g.fatCount * g.sectorsPerFat

theorem not_inFatArea_cluster {c k : Nat} (hc : g.isValidDataCluster c)
    (hk : k < g.sectorsPerCluster) : ¬ g.InFatArea (g.clusterToLba c + k) := by
  rintro ⟨a, j, h, hj⟩
  have hlt := g.totalSectors_lt
  have h₁ := g.cluster_area hc hk
  rw [clusterToLba_eq] at h
  have := offset_eq (by omega) (by omega) h
  omega

end Geometry

/-! ## The view -/

/-- The driver's state as seen from one call to the next. Outside the data clusters `data`
is 0. -/
structure Volume where
  mounted : Bool
  fat : Nat → Nat
  data : Nat → Nat → UInt8

/-- The volume that a state holds. -/
def State.volume (g : Geometry) (s : State) : Volume where
  mounted := s.mounted
  fat := s.fat
  data := fun c o =>
    if g.isValidDataCluster c ∧ o < g.clusterSize then
      s.disk (g.clusterToLba c + o / sectorSize) (o % sectorSize)
    else 0

/-- Overwrite one cluster. -/
def Volume.setData (g : Geometry) (v : Volume) (c : Nat) (buffer : Nat → UInt8) : Volume :=
  { v with data := fun c' o => if c' = c ∧ o < g.clusterSize then buffer o else v.data c' o }

/-- Replace the FAT. -/
def Volume.setFat (v : Volume) (fat : Nat → Nat) : Volume := { v with fat := fat }

@[simp] theorem State.volume_fat (g : Geometry) (s : State) : (s.volume g).fat = s.fat := rfl
@[simp] theorem State.volume_mounted (g : Geometry) (s : State) :
    (s.volume g).mounted = s.mounted := rfl
@[simp] theorem Volume.setData_fat (g : Geometry) (v : Volume) (c : Nat) (b : Nat → UInt8) :
    (v.setData g c b).fat = v.fat := rfl
@[simp] theorem Volume.setData_mounted (g : Geometry) (v : Volume) (c : Nat) (b : Nat → UInt8) :
    (v.setData g c b).mounted = v.mounted := rfl
@[simp] theorem Volume.setFat_fat (v : Volume) (f : Nat → Nat) : (v.setFat f).fat = f := rfl
@[simp] theorem Volume.setFat_data (v : Volume) (f : Nat → Nat) :
    (v.setFat f).data = v.data := rfl
@[simp] theorem Volume.setFat_mounted (v : Volume) (f : Nat → Nat) :
    (v.setFat f).mounted = v.mounted := rfl
@[simp] theorem Volume.setFat_setFat (v : Volume) (f f' : Nat → Nat) :
    (v.setFat f).setFat f' = v.setFat f' := rfl
@[simp] theorem Volume.setFat_self (v : Volume) : v.setFat v.fat = v := rfl

theorem Volume.setData_congr {g : Geometry} {v : Volume} {c : Nat} {b b' : Nat → UInt8}
    (h : ∀ o < g.clusterSize, b o = b' o) : v.setData g c b = v.setData g c b' := by
  simp only [Volume.setData, Volume.mk.injEq, true_and]
  funext c' o
  by_cases hin : c' = c ∧ o < g.clusterSize
  · rw [if_pos hin, if_pos hin, h o hin.2]
  · rw [if_neg hin, if_neg hin]

/-- Changing only the cluster buffer does not change the volume. -/
@[simp] theorem State.volume_clusterBuffer (g : Geometry) (s : State) (b : Nat → UInt8) :
    ({ s with clusterBuffer := b } : State).volume g = s.volume g := rfl

@[simp] theorem State.volume_transfers (g : Geometry) (s : State) (n : Nat)
    (r : List (Nat × Nat)) :
    ({ s with transfers := n, requests := r } : State).volume g = s.volume g := rfl

theorem State.volume_withFat (g : Geometry) (s : State) (f : Nat → Nat) :
    ({ s with fat := f } : State).volume g = (s.volume g).setFat f := rfl

/-- The block device fails some transfer. -/
def Env.Faulty (env : Env) : Prop := ∃ t, env.fails t = true

/-! ## Transfers -/

section

variable {env : Env} {s : State} {c : Nat}

/-- After `read_cluster` the buffer holds the cluster, or the device has failed. -/
theorem readCluster_sat (hc : env.geometry.isValidDataCluster c) :
    Sat (readCluster env c) s
      (fun b s' => s'.volume env.geometry = s.volume env.geometry ∧
        if b then ∀ o < env.geometry.clusterSize,
          s'.clusterBuffer o = (s.volume env.geometry).data c o
        else env.Faulty)
      (fun _ _ => False) := by
  have hguard : ¬ (env.geometry.sectorsPerCluster = 0 ∨
      env.geometry.sectorsPerCluster > maxClusterSectors) := by
    have := env.geometry.sectorsPerCluster_pos
    have := env.geometry.sectorsPerCluster_le
    omega
  simp only [readCluster, if_neg hguard, if_pos hc]
  refine Sat.bind (Q := fun r s' => s'.volume env.geometry = s.volume env.geometry ∧
    r.elim env.Faulty fun bytes => ∀ o, bytes o
      = s.disk (env.geometry.clusterToLba c + o / sectorSize) (o % sectorSize)) ?_ (fun _ _ h => h) ?_
  · cases hf : env.fails s.transfers
    · simp [Sat, blockReadSectors, hf]
    · simp only [Sat, blockReadSectors, hf]
      exact ⟨rfl, _, hf⟩
  · rintro (_ | bytes) s' ⟨hv, hr⟩
    · exact ⟨hv, hr⟩
    · refine ⟨hv, ?_⟩
      intro o ho
      simp only [State.volume, ho, hc, and_self, if_true]
      exact hr o

/-- `write_cluster` stores the buffer in the cluster and changes no other one, or the
device has failed and nothing has changed. -/
theorem writeCluster_sat (hc : env.geometry.isValidDataCluster c) :
    Sat (writeCluster env c) s
      (fun b s' => if b then
          s'.volume env.geometry = (s.volume env.geometry).setData env.geometry c s.clusterBuffer
        else s'.volume env.geometry = s.volume env.geometry ∧ env.Faulty)
      (fun _ _ => False) := by
  have hguard : ¬ (env.geometry.sectorsPerCluster = 0 ∨
      env.geometry.sectorsPerCluster > maxClusterSectors) := by
    have := env.geometry.sectorsPerCluster_pos
    have := env.geometry.sectorsPerCluster_le
    omega
  simp only [writeCluster, if_neg hguard, if_pos hc]
  refine Sat.get_bind ?_
  cases hf : env.fails s.transfers
  · simp only [Sat, blockWriteSectors, hf, Bool.false_eq_true, if_false, if_true]
    simp only [State.volume, Volume.setData, Volume.mk.injEq, true_and]
    funext c' o
    by_cases hin : env.geometry.isValidDataCluster c' ∧ o < env.geometry.clusterSize
    · have hsec : o / sectorSize < env.geometry.sectorsPerCluster := by
        have := hin.2
        simp only [Geometry.clusterSize, sectorSize] at this ⊢
        omega
      by_cases heq : c' = c
      · subst heq
        have hbuf : (env.geometry.clusterToLba c' + o / sectorSize
            - env.geometry.clusterToLba c') * sectorSize + o % sectorSize = o := by
          rw [Nat.add_sub_cancel_left, Nat.mul_comm, Nat.div_add_mod]
        rw [if_pos hin, if_pos ⟨Nat.le_add_right _ _, Nat.add_lt_add_left hsec _⟩, hbuf,
          if_pos ⟨rfl, hin.2⟩]
      · have hout : ¬ (env.geometry.clusterToLba c ≤ env.geometry.clusterToLba c' + o / sectorSize
            ∧ env.geometry.clusterToLba c' + o / sectorSize
              < env.geometry.clusterToLba c + env.geometry.sectorsPerCluster) := by
          rintro ⟨h₁, h₂⟩
          refine heq (env.geometry.clusterToLba_inj (k := o / sectorSize)
            (m := env.geometry.clusterToLba c' + o / sectorSize - env.geometry.clusterToLba c)
            hin.1 hc hsec (by omega) (by omega)).1
        simp only [hin, and_self, if_true, if_neg hout, heq, false_and, if_false]
    · have hne : ¬ (c' = c ∧ o < env.geometry.clusterSize) := by
        rintro ⟨rfl, ho⟩
        exact hin ⟨hc, ho⟩
      rw [if_neg hin, if_neg hne, if_neg hin]
  · simp only [Sat, blockWriteSectors, hf, if_true]
    exact ⟨rfl, _, hf⟩

/-- The sectors that one call of `write_sectors` may change. -/
private theorem writeSectors_sat (base : Nat) : ∀ (room offset count : Nat)
    (cursor : Nat → UInt8) (s : State),
    Sat (writeSectors env.fails room ((base + offset) % 2 ^ 32) count cursor) s
      (fun b s' => s'.fat = s.fat ∧ s'.mounted = s.mounted ∧ (b = false → env.Faulty) ∧
        ∀ l o, s'.disk l o ≠ s.disk l o →
          ∃ a k, l = (base + a) % 2 ^ 32 + k ∧ offset ≤ a ∧ a + k < offset + count)
      (fun _ _ => False) := by
  intro room
  induction room with
  | zero => intros; exact ⟨rfl, rfl, by simp, by simp⟩
  | succ room ih =>
    intro offset count cursor s
    unfold writeSectors
    refine Sat.ite (fun _ => ⟨rfl, rfl, by simp, by simp⟩) (fun hcount => ?_)
    refine Sat.bind (Q := fun b s' => s'.fat = s.fat ∧ s'.mounted = s.mounted ∧
        (b = false → env.Faulty) ∧ ∀ l o, s'.disk l o ≠ s.disk l o →
          (base + offset) % 2 ^ 32 ≤ l ∧ l < (base + offset) % 2 ^ 32 + min count 255)
      ?_ (fun _ _ h => h) ?_
    · cases hf : env.fails s.transfers
      · simp only [Sat, blockWriteSectors, hf]
        refine ⟨rfl, rfl, by simp, ?_⟩
        intro l o hne
        by_contra hout
        exact hne (by simp only [if_neg hout])
      · simp only [Sat, blockWriteSectors, hf]
        exact ⟨rfl, rfl, fun _ => ⟨_, hf⟩, by simp⟩
    · rintro (_ | _) s₁ ⟨hfat, hmnt, hfault, hdisk⟩
      · refine ⟨hfat, hmnt, hfault, ?_⟩
        intro l o hne
        obtain ⟨h₁, h₂⟩ := hdisk l o hne
        exact ⟨offset, l - (base + offset) % 2 ^ 32, by omega, le_rfl, by omega⟩
      · have hlba : ((base + offset) % 2 ^ 32 + min count 255) % 2 ^ 32
            = (base + (offset + min count 255)) % 2 ^ 32 := by omega
        simp only [if_true, hlba]
        refine Sat.mono (ih _ _ _ s₁) ?_ (fun _ _ h => h)
        rintro b s₂ ⟨hfat₂, hmnt₂, hfault₂, hdisk₂⟩
        refine ⟨hfat₂.trans hfat, hmnt₂.trans hmnt, hfault₂, ?_⟩
        intro l o hne
        by_cases h₁ : s₂.disk l o = s₁.disk l o
        · obtain ⟨h₂, h₃⟩ := hdisk l o (h₁ ▸ hne)
          exact ⟨offset, l - (base + offset) % 2 ^ 32, by omega, le_rfl, by omega⟩
        · obtain ⟨a, k, hl, ha, hk⟩ := hdisk₂ l o h₁
          exact ⟨a, k, hl, by omega, by omega⟩

private theorem flushCopies_sat : ∀ (copies i : Nat) (s : State),
    copies + i = env.geometry.fatCount →
    Sat (flushCopies env copies i) s
      (fun b s' => s'.fat = s.fat ∧ s'.mounted = s.mounted ∧ (b = false → env.Faulty) ∧
        ∀ l o, s'.disk l o ≠ s.disk l o → env.geometry.InFatArea l)
      (fun _ _ => False) := by
  intro copies
  induction copies with
  | zero => intros; exact ⟨rfl, rfl, by simp, by simp⟩
  | succ copies ih =>
    intro i s hi
    unfold flushCopies
    refine Sat.get_bind ?_
    have hlba : (env.geometry.fatLba + i * env.geometry.sectorsPerFat) % 2 ^ 32
        = (env.geometry.partitionLba +
            (env.geometry.reservedSectors + i * env.geometry.sectorsPerFat)) % 2 ^ 32 := by
      simp only [Geometry.fatLba]; omega
    have hcopy : i * env.geometry.sectorsPerFat + env.geometry.sectorsPerFat
        ≤ env.geometry.fatCount * env.geometry.sectorsPerFat := by
      rw [← Nat.succ_mul]
      exact Nat.mul_le_mul_right _ (by omega)
    rw [hlba]
    refine Sat.bind (writeSectors_sat _ _ _ _ _ s) (fun _ _ h => h) ?_
    have harea : ∀ l, (∃ a k, l = (env.geometry.partitionLba + a) % 2 ^ 32 + k ∧
        env.geometry.reservedSectors + i * env.geometry.sectorsPerFat ≤ a ∧
        a + k < env.geometry.reservedSectors + i * env.geometry.sectorsPerFat
          + env.geometry.sectorsPerFat) → env.geometry.InFatArea l := by
      rintro l ⟨a, k, rfl, h₁, h₂⟩
      refine ⟨a - env.geometry.reservedSectors, k, ?_, by omega⟩
      rw [Nat.add_sub_cancel' (by omega)]
    rintro (_ | _) s₁ ⟨hfat, hmnt, hfault, hdisk⟩
    · exact ⟨hfat, hmnt, hfault, fun l o hne => harea l (hdisk l o hne)⟩
    · refine Sat.mono (ih (i + 1) s₁ (by omega)) ?_ (fun _ _ h => h)
      rintro b s₂ ⟨hfat₂, hmnt₂, hfault₂, hdisk₂⟩
      refine ⟨hfat₂.trans hfat, hmnt₂.trans hmnt, hfault₂, ?_⟩
      intro l o hne
      by_cases h₁ : s₂.disk l o = s₁.disk l o
      · exact harea l (hdisk l o (h₁ ▸ hne))
      · exact hdisk₂ l o h₁

/-- `flush_fat` writes the FAT copies only: the volume stays as it is. -/
theorem flushFat_sat :
    Sat (flushFat env) s
      (fun b s' => s'.volume env.geometry = s.volume env.geometry ∧ (b = false → env.Faulty))
      (fun _ _ => False) := by
  refine Sat.mono (flushCopies_sat _ _ s (by omega)) ?_ (fun _ _ h => h)
  rintro b s' ⟨hfat, hmnt, hfault, hdisk⟩
  refine ⟨?_, hfault⟩
  simp only [State.volume, Volume.mk.injEq]
  refine ⟨hmnt, hfat, ?_⟩
  funext c o
  by_cases hin : env.geometry.isValidDataCluster c ∧ o < env.geometry.clusterSize
  · rw [if_pos hin, if_pos hin]
    by_contra hne
    have hsec : o / sectorSize < env.geometry.sectorsPerCluster := by
      have := hin.2
      simp only [Geometry.clusterSize, sectorSize] at this ⊢
      omega
    exact env.geometry.not_inFatArea_cluster hin.1 hsec (hdisk _ _ hne)
  · rw [if_neg hin, if_neg hin]

end

end FunnyOS.Fat32
