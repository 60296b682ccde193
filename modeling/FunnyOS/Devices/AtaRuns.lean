import FunnyOS.Devices.AtaTransfers
import FunnyOS.Lib.KnownStore

/-!
# Runs of the ATA driver

As long as the driver has not given up on a command, a drive that it finds idle is a store whose
writes may fail. It does not wait for the command that it has given up on: the next call may write
its own command in the middle of it. Nor does it ask whether a write has ended with an error.
-/

namespace FunnyOS.Devices

open Prog AtaDisk

/-! ## The sectors of a request -/

section

variable {lba : UInt32} {i o j n : Nat} {k : Nat × Nat}

/-- The words of the sectors from the `j`-th one of a request on. -/
def sectorCells (lba : UInt32) (j n : Nat) (k : Nat × Nat) : Prop :=
  ∃ i, j ≤ i ∧ i < j + n ∧ k.1 = sectorAddress lba i ∧ k.2 < 256

/-- The place of a word in the buffer of a request. -/
def bufferPlace (lba : UInt32) (k : Nat × Nat) : Nat :=
  (k.1 + 2 ^ 28 - maskedAddress lba) % 2 ^ 28 * 256 + k.2

theorem sectorAddress_mod :
    sectorAddress lba i = (maskedAddress lba + i) % 2 ^ 28 := by
  rw [sectorAddress, maskedAddress, maskedAddress, UInt32.toNat_add, UInt32.toNat_ofNat']
  omega

theorem bufferPlace_sector (hi : i < 256) :
    bufferPlace lba (sectorAddress lba i, o) = i * 256 + o := by
  have hlt : maskedAddress lba < 2 ^ 28 := Nat.mod_lt _ (by decide)
  simp only [bufferPlace, sectorAddress_mod]
  omega

theorem sectorCells_succ : sectorCells lba j (n + 1) k ↔
    (k.1 = sectorAddress lba j ∧ k.2 < 256) ∨ sectorCells lba (j + 1) n k := by
  constructor
  · rintro ⟨i, hji, hij, hk⟩
    rcases Nat.eq_or_lt_of_le hji with rfl | hlt
    · exact .inl hk
    · exact .inr ⟨i, hlt, by omega, hk⟩
  · rintro (hk | ⟨i, hji, hij, hk⟩)
    · exact ⟨j, le_rfl, by omega, hk⟩
    · exact ⟨i, by omega, by omega, hk⟩

end

section

variable {ports : Ports} {drive : AtaDrive} {disk : List PortAccess → AtaDisk} {s s' : AtaState}
  {m m' : AtaMedium} {lba : UInt32} {count : UInt8} {j n : Nat}

/-- A sector that has been stored holds its words of the buffer. -/
theorem putSector_place {words : Nat → UInt16} {k : Nat × Nat} (hj : j < 256) :
    (m.putSector (sectorAddress lba j) (sectorWords words j)).sectors k =
      if k.1 = sectorAddress lba j ∧ k.2 < 256 then words (bufferPlace lba k)
      else m.sectors k := by
  obtain ⟨a, o⟩ := k
  unfold AtaMedium.putSector
  dsimp only
  split
  · next h =>
    obtain ⟨rfl, ho⟩ := h
    rw [bufferPlace_sector hj]
    simp [sectorWords, ho]
  · rfl

theorem AtaMedium.Ends.outside {words : List UInt16} {k : Nat × Nat}
    (h : m.Ends (sectorAddress lba j) words m') (hk : ¬ sectorCells lba j (n + 1) k) :
    m'.sectors k = m.sectors k :=
  h.others fun hin => hk (sectorCells_succ.mpr (.inl hin))

/-- The words of the buffer go to the sectors of a request that is written, if the drive ends all
writes well. Other sectors do not change. -/
theorem ataSectors_write (hf : ports.Follow drive disk) (hs : s.drive = drive)
    (h : Settled m (disk s.history)) (hj : j + n ≤ 256) :
    Sat (ataSectors (ataWriteSector ports lba) (List.range' j n)) s
      (fun _ s' => s'.drive = drive ∧ ∃ m', Settled m' (disk s'.history) ∧ m.spoilt ≤ m'.spoilt ∧
        (m'.spoilt = m.spoilt →
          ∀ k, sectorCells lba j n k → m'.sectors k = s.words (bufferPlace lba k)) ∧
        ∀ k, ¬ sectorCells lba j n k → m'.sectors k = m.sectors k)
      (fun _ s' => s'.drive = drive ∧
        ∀ k, ¬ sectorCells lba j n k → (disk s'.history).medium.sectors k = m.sectors k) := by
  induction n generalizing j s m with
  | zero =>
    refine Sat.pure ⟨hs, m, h, le_rfl, fun _ k hk => ?_, fun _ _ => rfl⟩
    obtain ⟨i, hji, hij, -⟩ := hk
    omega
  | succ n ih =>
    have hrest : ∀ k, ¬ sectorCells lba j (n + 1) k → ¬ sectorCells lba (j + 1) n k :=
      fun k hk hmem => hk (sectorCells_succ.mpr (.inr hmem))
    refine Sat.bind (ataWriteSector_moves hf hs h) ?_ ?_
    · rintro _ s₁ ⟨hdrive, hmedium | hends⟩
      · exact ⟨hdrive, fun k _ => by rw [hmedium]⟩
      · exact ⟨hdrive, fun k hk => hends.outside hk⟩
    · rintro _ s₁ ⟨hdrive, hwords, m₁, hends, hsettled⟩
      refine Sat.mono (ih hdrive hsettled (by omega)) ?_ ?_
      · rintro _ s' ⟨hdrive', m', hsettled', hle, hin, hout⟩
        have hfirst := hends.spoilt_le
        refine ⟨hdrive', m', hsettled', hfirst.trans hle, fun heq k hk => ?_, fun k hk => ?_⟩
        · by_cases hmem : sectorCells lba (j + 1) n k
          · rw [hin (by omega) k hmem, hwords]
          · have hk := (sectorCells_succ.mp hk).resolve_right hmem
            rw [hout k hmem, hends.eq_putSector (by omega), putSector_place (by omega), if_pos hk]
        · rw [hout k (hrest k hk), hends.outside hk]
      · rintro _ s' ⟨hdrive', hout⟩
        exact ⟨hdrive', fun k hk => (hout k (hrest k hk)).trans (hends.outside hk)⟩

/-- The words of the sectors of a request that is read come to their places in the buffer. -/
theorem ataSectors_read (hf : ports.Follow drive disk) (hs : s.drive = drive)
    (h : Settled m (disk s.history)) (hj : j + n ≤ 256) :
    Sat (ataSectors (ataReadSector ports lba) (List.range' j n)) s
      (fun _ s' => s'.drive = drive ∧ Settled m (disk s'.history) ∧
        (∀ k, sectorCells lba j n k → s'.words (bufferPlace lba k) = m.sectors k) ∧
        ∀ p < j * 256, s'.words p = s.words p)
      (fun _ s' => s'.drive = drive ∧ (disk s'.history).medium = m) := by
  induction n generalizing j s with
  | zero =>
    refine Sat.pure ⟨hs, h, ?_, fun _ _ => rfl⟩
    rintro k ⟨i, hji, hij, -⟩
    omega
  | succ n ih =>
    refine Sat.bind (ataReadSector_moves hf hs h) (fun _ _ h' => h') ?_
    rintro _ s₁ ⟨hdrive, hwords, hsettled⟩
    refine Sat.mono (ih hdrive hsettled (by omega)) ?_ fun _ _ h' => h'
    rintro _ s' ⟨hdrive', hsettled', hin, hbefore⟩
    refine ⟨hdrive', hsettled', fun k hk => ?_, fun p hp => ?_⟩
    · rcases sectorCells_succ.mp hk with ⟨hfirst, ho⟩ | hmem
      · obtain ⟨a, o⟩ := k
        obtain rfl : a = sectorAddress lba j := hfirst
        have ho : o < 256 := ho
        rw [bufferPlace_sector (show j < 256 by omega), hbefore _ (by omega), hwords,
          overlay_inside (by omega), Nat.add_sub_cancel_left]
      · exact hin k hmem
    · have hlt : p < (j + 1) * 256 := hp.trans_le (Nat.mul_le_mul_right 256 (Nat.le_succ j))
      rw [hbefore p hlt, hwords, overlay_outside (by omega)]

end

/-! ## Calls -/

/-- Between the two states the drive has ended no write with an error. -/
def unspoilt (disk : List PortAccess → AtaDisk) (s s' : AtaState) : Bool :=
  (disk s'.history).medium.spoilt == (disk s.history).medium.spoilt

/-- A call of `ata_read_sectors` or `ata_write_sectors`, with any words in the buffer. The data of
a read is what the buffer holds when the call returns. A write succeeds if the driver says so and
the drive has ended it without an error, which the driver does not ask for. -/
inductive AtaCall (ports : Ports) (disk : List PortAccess → AtaDisk) (s : AtaState) :
    Transfer (Nat × Nat) UInt16 → AtaState → Prop
  | read (lba : UInt32) (count : UInt8) (words : Nat → UInt16) (result : Except Unit Unit)
      (s' : AtaState)
      (hcall : attempt (ataReadSectors ports lba count) { s with words := words } = .ok result s') :
      AtaCall ports disk s ⟨false, sectorCells lba 0 count.toNat,
        fun k => s'.words (bufferPlace lba k), result.isOk⟩ s'
  | write (lba : UInt32) (count : UInt8) (words : Nat → UInt16) (result : Except Unit Unit)
      (s' : AtaState)
      (hcall :
        attempt (ataWriteSectors ports lba count) { s with words := words } = .ok result s') :
      AtaCall ports disk s ⟨true, sectorCells lba 0 count.toNat,
        fun k => words (bufferPlace lba k), result.isOk && unspoilt disk s s'⟩ s'

section

variable {ports : Ports} {drive : AtaDrive} {disk : List PortAccess → AtaDisk} {s s₁ s' : AtaState}
  {m : AtaMedium} {lba : UInt32} {count : UInt8}
  {known : Known (Nat × Nat) UInt16} {t : Transfer (Nat × Nat) UInt16}
  {ts : List (Transfer (Nat × Nat) UInt16)}

theorem sectorCells_zero {k : Nat × Nat} : ¬ sectorCells lba 0 0 k := by
  rintro ⟨i, -, hi, -⟩
  omega

theorem ataReadSectors_moves (hf : ports.Follow drive disk) (hs : s.drive = drive)
    (h : Settled m (disk s.history)) :
    Sat (ataReadSectors ports lba count) s
      (fun _ s' => s'.drive = drive ∧ Settled m (disk s'.history) ∧
        ∀ k, sectorCells lba 0 count.toNat k → s'.words (bufferPlace lba k) = m.sectors k)
      (fun _ s' => s'.drive = drive ∧ (disk s'.history).medium = m) := by
  refine Sat.ite (fun hzero => Sat.pure ⟨hs, h, fun k hk => ?_⟩) fun _ => ?_
  · rw [hzero] at hk
    exact absurd hk sectorCells_zero
  refine Sat.ite (fun _ => Sat.raise ⟨hs, h.medium⟩) fun _ => ?_
  have hlt := count.toNat_lt
  rw [List.range_eq_range']
  exact Sat.mono (ataSectors_read hf hs h (by omega)) (fun _ _ h' => ⟨h'.1, h'.2.1, h'.2.2.1⟩)
    fun _ _ h' => h'

theorem ataWriteSectors_moves (hf : ports.Follow drive disk) (hs : s.drive = drive)
    (h : Settled m (disk s.history)) :
    Sat (ataWriteSectors ports lba count) s
      (fun _ s' => s'.drive = drive ∧ ∃ m', Settled m' (disk s'.history) ∧
        (m'.spoilt = m.spoilt →
          ∀ k, sectorCells lba 0 count.toNat k → m'.sectors k = s.words (bufferPlace lba k)) ∧
        ∀ k, ¬ sectorCells lba 0 count.toNat k → m'.sectors k = m.sectors k)
      (fun _ s' => s'.drive = drive ∧ ∀ k, ¬ sectorCells lba 0 count.toNat k →
        (disk s'.history).medium.sectors k = m.sectors k) := by
  refine Sat.ite (fun hzero => Sat.pure ⟨hs, m, h, fun _ k hk => ?_, fun _ _ => rfl⟩)
    fun _ => ?_
  · rw [hzero] at hk
    exact absurd hk sectorCells_zero
  refine Sat.ite (fun _ => Sat.raise ⟨hs, fun k _ => by rw [h.medium]⟩) fun _ => ?_
  have hlt := count.toNat_lt
  rw [List.range_eq_range']
  refine Sat.mono (ataSectors_write hf hs h (by omega)) ?_ fun _ _ h' => h'
  rintro _ s' ⟨hdrive, m', hsettled, -, hin, hout⟩
  exact ⟨hdrive, m', hsettled, hin, hout⟩

/-- A call that finds the drive idle is a step of the store, and leaves it idle if it succeeds. -/
theorem AtaCall.step (hf : ports.Follow drive disk) (hs : s.drive = drive)
    (hidle : (disk s.history).phase = .idle) (h : known.Of (disk s.history).medium.sectors)
    (hcall : AtaCall ports disk s t s') :
    s'.drive = drive ∧ (t.ok = true → (disk s'.history).phase = .idle) ∧
      ∃ known', StoreStep known t known' ∧ known'.Of (disk s'.history).medium.sectors := by
  obtain ⟨m, hm⟩ : ∃ m, m = (disk s.history).medium := ⟨_, rfl⟩
  rw [← hm] at h
  have hsettled : Settled m (disk s.history) := ⟨hidle, hm.symm⟩
  cases hcall with
  | read lba count words result _ hcall =>
    have hread : Sat (attempt (ataReadSectors ports lba count)) { s with words := words }
        (fun r s' => s'.drive = drive ∧ (disk s'.history).medium = m ∧ (r.isOk = true →
          (disk s'.history).phase = .idle ∧
            ∀ k, sectorCells lba 0 count.toNat k → s'.words (bufferPlace lba k) = m.sectors k))
        (fun _ _ => False) :=
      Sat.attempt (ataReadSectors_moves hf hs hsettled)
        (fun _ _ h' => ⟨h'.1, h'.2.1.medium, fun _ => ⟨h'.2.1.phase, h'.2.2⟩⟩)
        fun _ _ h' => ⟨h'.1, h'.2, fun hok => by cases hok⟩
    obtain ⟨hdrive, hmedium, hok⟩ := hread.of_ok hcall
    refine ⟨hdrive, fun h' => (hok h').1, known, ?_, by rw [hmedium]; exact h⟩
    generalize result.isOk = ok at hok ⊢
    cases ok with
    | true => exact .read _ _ fun k b hk hb => ((hok rfl).2 k hk).trans (h k b hb)
    | false => exact .unread _ _
  | write lba count words result _ hcall =>
    have hwrite : Sat (attempt (ataWriteSectors ports lba count)) { s with words := words }
        (fun r s' => s'.drive = drive ∧
          (∀ k, ¬ sectorCells lba 0 count.toNat k →
            (disk s'.history).medium.sectors k = m.sectors k) ∧
          (r.isOk = true → (disk s'.history).phase = .idle ∧
            ((disk s'.history).medium.spoilt = m.spoilt → ∀ k, sectorCells lba 0 count.toNat k →
              (disk s'.history).medium.sectors k = words (bufferPlace lba k))))
        (fun _ _ => False) := by
      refine Sat.attempt (ataWriteSectors_moves hf hs hsettled) ?_
        fun _ _ h' => ⟨h'.1, h'.2, fun hok => by cases hok⟩
      rintro _ s' ⟨hdrive, m', hsettled', hin, hout⟩
      rw [hsettled'.medium]
      exact ⟨hdrive, hout, fun _ => ⟨hsettled'.phase, hin⟩⟩
    obtain ⟨hdrive, hout, hok⟩ := hwrite.of_ok hcall
    have hstored : (result.isOk && unspoilt disk s s') = true → (disk s'.history).phase = .idle ∧
        ∀ k, sectorCells lba 0 count.toNat k →
          (disk s'.history).medium.sectors k = words (bufferPlace lba k) := by
      intro hboth
      rw [Bool.and_eq_true, unspoilt, beq_iff_eq, ← hm] at hboth
      exact ⟨(hok hboth.1).1, (hok hboth.1).2 hboth.2⟩
    refine ⟨hdrive, fun h' => (hstored h').1, ?_⟩
    generalize (result.isOk && unspoilt disk s s') = ok at hstored ⊢
    have hforgot := h.forget hout
    cases ok with
    | true => exact ⟨_, .written _ _, hforgot.put (hstored rfl).2⟩
    | false => exact ⟨_, .damaged _ _, hforgot⟩

/-- The driver has given up on a command. -/
def GivenUp (disk : List PortAccess → AtaDisk) (ts : List (Transfer (Nat × Nat) UInt16))
    (s : AtaState) : Prop :=
  (disk s.history).phase ≠ .idle ∧ ∃ t, ts.getLast? = some t ∧ t.ok = false

/-- A run is a run of the store up to the first call that gives up on a command. -/
theorem AtaCall.run (hf : ports.Follow drive disk) (hrun : Runs (AtaCall ports disk) s ts s')
    (hs : s.drive = drive) (hidle : (disk s.history).phase = .idle)
    (h : known.Of (disk s.history).medium.sectors) :
    ∃ before after s₁ known', ts = before ++ after ∧ Runs (AtaCall ports disk) s before s₁ ∧
      Runs (AtaCall ports disk) s₁ after s' ∧ Runs StoreStep known before known' ∧
      known'.Of (disk s₁.history).medium.sectors ∧ (after = [] ∨ GivenUp disk before s₁) := by
  induction hrun generalizing known with
  | nil s => exact ⟨[], [], s, known, rfl, .nil s, .nil s, .nil known, h, .inl rfl⟩
  | @cons s s₁ s' t ts first rest ih =>
    obtain ⟨hdrive, hok, known₁, hstep, h₁⟩ := first.step hf hs hidle h
    by_cases hphase : (disk s₁.history).phase = .idle
    · obtain ⟨before, after, s₂, known₂, rfl, hbefore, hafter, hruns, h₂, hend⟩ :=
        ih hdrive hphase h₁
      refine ⟨t :: before, after, s₂, known₂, rfl, .cons first hbefore, hafter,
        .cons hstep hruns, h₂, hend.imp_right ?_⟩
      rintro ⟨hne, last, hlast, hfailed⟩
      refine ⟨hne, last, ?_, hfailed⟩
      rw [List.getLast?_cons, hlast]
      rfl
    · have hfailed : t.ok = false := Bool.eq_false_iff.mpr fun ht => hphase (hok ht)
      exact ⟨[t], ts, s₁, known₁, rfl, .cons first (.nil s₁), rest, .cons hstep (.nil known₁), h₁,
        .inr ⟨hphase, t, rfl, hfailed⟩⟩

end

/-- A drive that the driver finds idle is a store whose writes may fail, whatever it does between
the accesses of the driver, until the driver gives up on a command. -/
theorem store_of_ata {ports : Ports} {disk : List PortAccess → AtaDisk} {s s' : AtaState}
    {ts : List (Transfer (Nat × Nat) UInt16)} (hf : ports.Follow s.drive disk)
    (hidle : (disk s.history).phase = .idle) (hrun : Runs (AtaCall ports disk) s ts s') :
    ∃ before after s₁ known, ts = before ++ after ∧ Runs (AtaCall ports disk) s before s₁ ∧
      Runs (AtaCall ports disk) s₁ after s' ∧
      Runs StoreStep (Known.all (disk s.history).medium.sectors) before known ∧
      known.Of (disk s₁.history).medium.sectors ∧ (after = [] ∨ GivenUp disk before s₁) :=
  AtaCall.run hf hrun rfl hidle Known.of_all

/-! ## A drive that is never slow -/

/-- What the drive does by itself, at once. -/
def AtaDisk.promptly (d : AtaDisk) : AtaDisk :=
  match d.phase with
  | .busy false address => { d with phase := .offering address 0 }
  | .busy true address => { d with phase := .taking address [] }
  | .storing address words => ⟨.idle, d.medium.putSector address words⟩
  | _ => d

theorem AtaDisk.passes_promptly (d : AtaDisk) : d.Passes d.promptly := by
  obtain ⟨phase, m⟩ := d
  cases phase with
  | busy write address =>
    cases write with
    | false => exact .offers address m
    | true => exact .takes address m
  | storing address words => exact .ends address words m _ .stored
  | _ => exact .rests _

/-- The primary master after some accesses, if it is never slow. At first its words are zeros. -/
def promptDisk : List PortAccess → AtaDisk
  | [] => ⟨.idle, ⟨fun _ => 0, 0⟩⟩
  | a :: earlier => ((promptDisk earlier).access primaryMaster earlier a).promptly

/-- The status that a drive shows. -/
def AtaPhase.status : AtaPhase → UInt8
  | .idle => 0x50
  | .offering _ _ => 0x58
  | .taking _ _ => 0x58
  | .failed => 0x51
  | _ => 0xD0

theorem AtaDisk.shows_status (d : AtaDisk) : d.Shows d.phase.status := by
  obtain ⟨phase, m⟩ := d
  cases phase with
  | idle => exact show ¬ ((0x50 : UInt8) &&& 0x80 = 0 ∧ (0x50 : UInt8) &&& 0x08 ≠ 0) by decide
  | busy => exact show ¬ ((0xD0 : UInt8) &&& 0x80 = 0 ∧ (0xD0 : UInt8) &&& 0x08 ≠ 0) by decide
  | storing => exact show (0xD0 : UInt8) &&& 0x80 ≠ 0 by decide
  | failed => exact fun _ => show (0x51 : UInt8) &&& (0x01 ||| 0x20) ≠ 0 by decide
  | _ => exact trivial

/-- The word that a drive offers. -/
def AtaDisk.word (d : AtaDisk) : UInt16 :=
  match d.phase with
  | .offering address k => d.medium.sectors (address, k)
  | _ => 0

/-- Its ports. -/
def promptPorts : Ports where
  in8 earlier _ := (promptDisk earlier).phase.status
  in16 earlier _ := (promptDisk earlier).word

theorem promptPorts_follow : promptPorts.Follow primaryMaster promptDisk where
  passes _ _ := AtaDisk.passes_promptly _
  status earlier _ := (promptDisk earlier).shows_status
  data earlier address k _ h := by
    unfold promptPorts AtaDisk.word
    simp only [h]

theorem store_of_ata_write : ∃ s' before after s₁ known,
    [(⟨true, sectorCells 3 0 1, fun k => (fun _ => 7) (bufferPlace 3 k), true⟩ :
      Transfer (Nat × Nat) UInt16)] = before ++ after ∧
    Runs (AtaCall promptPorts promptDisk) ataStart before s₁ ∧
    Runs (AtaCall promptPorts promptDisk) s₁ after s' ∧
    Runs StoreStep (Known.all (promptDisk ataStart.history).medium.sectors) before known ∧
    known.Of (promptDisk s₁.history).medium.sectors ∧
    (after = [] ∨ GivenUp promptDisk before s₁) := by
  have hcall := eq_ok_of_result (d := ataStart) (show (attempt (ataWriteSectors promptPorts 3 1)
    { ataStart with words := fun _ => 7 }).result = some (.ok (.ok ())) by decide +kernel)
  have hspoilt : unspoilt promptDisk ataStart ((attempt (ataWriteSectors promptPorts 3 1)
    { ataStart with words := fun _ => 7 }).finalState ataStart) = true := by decide +kernel
  have hwrite : AtaCall promptPorts promptDisk ataStart _ _ := .write 3 1 _ _ _ hcall
  rw [hspoilt] at hwrite
  exact ⟨_, store_of_ata promptPorts_follow rfl (.cons hwrite (.nil _))⟩

end FunnyOS.Devices
