import FunnyOS.Devices.AtaAddresses

/-!
# A drive behind the ATA ports

A drive takes a command when it is idle. It is busy for as long as it likes, and then refuses the
command or moves the words of the sector, one at a time. It may end a write with an error when it
has all words. What it does when it is given something else, such as a command in the middle of
another one, is not laid down.
-/

namespace FunnyOS.Devices

/-- What a drive is doing: it offers word `k` of a sector, or takes the next word of one. A command
that has failed may still ask for its data. -/
inductive AtaPhase
  | idle
  | busy (write : Bool) (address : Nat)
  | offering (address k : Nat)
  | taking (address : Nat) (words : List UInt16)
  | storing (address : Nat) (words : List UInt16)
  | failed
  | astray
deriving DecidableEq, Repr

/-- The words of the sectors of a drive, and how many writes have ended with an error (ERR or DF)
after the drive had taken their words. -/
structure AtaMedium where
  sectors : Nat × Nat → UInt16
  spoilt : Nat

/-- A drive. -/
structure AtaDisk where
  phase : AtaPhase
  medium : AtaMedium

/-- The words of one sector are replaced. -/
def AtaMedium.putSector (m : AtaMedium) (address : Nat) (words : List UInt16) : AtaMedium where
  sectors := fun k => if k.1 = address ∧ k.2 < 256 then words.getD k.2 0 else m.sectors k
  spoilt := m.spoilt

/-- How the write of a sector ends when the drive has its words. -/
inductive AtaMedium.Ends (m : AtaMedium) (address : Nat) (words : List UInt16) : AtaMedium → Prop
  | stored : m.Ends address words (m.putSector address words)
  | spoilt (sectors : Nat × Nat → UInt16)
      (others : ∀ k, ¬ (k.1 = address ∧ k.2 < 256) → sectors k = m.sectors k) :
      m.Ends address words ⟨sectors, m.spoilt + 1⟩

section

variable {m m' : AtaMedium} {address : Nat} {words : List UInt16}

theorem AtaMedium.Ends.spoilt_le (h : m.Ends address words m') : m.spoilt ≤ m'.spoilt := by
  cases h with
  | stored => exact le_rfl
  | spoilt => exact Nat.le_succ _

theorem AtaMedium.Ends.eq_putSector (h : m.Ends address words m') (heq : m'.spoilt = m.spoilt) :
    m' = m.putSector address words := by
  cases h with
  | stored => rfl
  | spoilt => exact absurd heq (Nat.succ_ne_self _)

theorem AtaMedium.Ends.others {k : Nat × Nat} (h : m.Ends address words m')
    (hk : ¬ (k.1 = address ∧ k.2 < 256)) : m'.sectors k = m.sectors k := by
  cases h with
  | stored => exact if_neg hk
  | spoilt _ others => exact others k hk

end

/-- The number of sectors that the registers at `base` ask for. -/
def ataSectorCount (base : Nat) : List PortAccess → UInt8
  | [] => 0
  | .out8 port value :: earlier =>
    if port = base + ataSectorCountOffset then value else ataSectorCount base earlier
  | _ :: earlier => ataSectorCount base earlier

/-- The drive and head register selects the drive, and sector addresses of 28 bits. -/
def AtaDrive.Selected (drive : AtaDrive) (earlier : List PortAccess) : Prop :=
  (ataRegisters drive.ioBase earlier).head &&& 0xF0 = drive.driveHead

instance (drive : AtaDrive) (earlier : List PortAccess) : Decidable (drive.Selected earlier) :=
  inferInstanceAs (Decidable (_ = _))

namespace AtaDisk

/-- Word `k` is the next one to be read, if it is one of the sector. -/
def offeringFrom (address k : Nat) : AtaPhase := if k < 256 then .offering address k else .idle

/-- The words that have been written so far are these. -/
def takingFrom (address : Nat) (words : List UInt16) : AtaPhase :=
  if words.length < 256 then .taking address words else .storing address words

/-- A command is written. -/
def command (d : AtaDisk) (drive : AtaDrive) (earlier : List PortAccess) (value : UInt8) :
    AtaDisk :=
  let address := (ataRegisters drive.ioBase earlier).address
  if d.phase ≠ .idle ∨ ataSectorCount drive.ioBase earlier ≠ 1 then { d with phase := .astray }
  else if value = 0x20 then { d with phase := .busy false address }
  else if value = 0x30 then { d with phase := .busy true address }
  else { d with phase := .astray }

/-- A word is read. -/
def give (d : AtaDisk) : AtaDisk :=
  match d.phase with
  | .offering address k => { d with phase := offeringFrom address (k + 1) }
  | _ => { d with phase := .astray }

/-- A word is written. -/
def take (d : AtaDisk) (value : UInt16) : AtaDisk :=
  match d.phase with
  | .taking address words => { d with phase := takingFrom address (words ++ [value]) }
  | _ => { d with phase := .astray }

/-- What an access makes of the drive. -/
def access (d : AtaDisk) (drive : AtaDrive) (earlier : List PortAccess) : PortAccess → AtaDisk
  | .in8 _ _ => d
  | .out8 port value =>
    if port = drive.ioBase + ataCommandOffset then
      if drive.Selected earlier then d.command drive earlier value else d
    else if d.phase = .idle then d
    else { d with phase := .astray }
  | .in16 port _ =>
    if port = drive.ioBase + ataDataOffset ∧ drive.Selected earlier then d.give else d
  | .out16 port value =>
    if port = drive.ioBase + ataDataOffset ∧ drive.Selected earlier then d.take value else d

/-- What the drive may do until the next access. -/
inductive Passes : AtaDisk → AtaDisk → Prop
  | rests (d : AtaDisk) : Passes d d
  | offers (address : Nat) (m : AtaMedium) :
      Passes ⟨.busy false address, m⟩ ⟨.offering address 0, m⟩
  | takes (address : Nat) (m : AtaMedium) :
      Passes ⟨.busy true address, m⟩ ⟨.taking address [], m⟩
  | refuses (write : Bool) (address : Nat) (m : AtaMedium) :
      Passes ⟨.busy write address, m⟩ ⟨.idle, m⟩
  | fails (write : Bool) (address : Nat) (m : AtaMedium) :
      Passes ⟨.busy write address, m⟩ ⟨.failed, m⟩
  | recovers (m : AtaMedium) : Passes ⟨.failed, m⟩ ⟨.idle, m⟩
  | ends (address : Nat) (words : List UInt16) (m m' : AtaMedium)
      (write : m.Ends address words m') : Passes ⟨.storing address words, m⟩ ⟨.idle, m'⟩
  | strays (m : AtaMedium) (d : AtaDisk) : Passes ⟨.astray, m⟩ d

/-- What the status register may show: data is asked for only when there is a word to be moved, or
together with an error, and a drive that is storing is busy. -/
def Shows (d : AtaDisk) (status : UInt8) : Prop :=
  match d.phase with
  | .idle => ¬ (status &&& 0x80 = 0 ∧ status &&& 0x08 ≠ 0)
  | .busy _ _ => ¬ (status &&& 0x80 = 0 ∧ status &&& 0x08 ≠ 0)
  | .storing _ _ => status &&& 0x80 ≠ 0
  | .failed => status &&& 0x80 = 0 → status &&& (0x01 ||| 0x20) ≠ 0
  | _ => True

end AtaDisk

/-- The ports are those of a drive: `disk` says what it is doing after some accesses, just before
the next one. -/
structure Ports.Follow (ports : Ports) (drive : AtaDrive) (disk : List PortAccess → AtaDisk) :
    Prop where
  passes : ∀ earlier a, ((disk earlier).access drive earlier a).Passes (disk (a :: earlier))
  status : ∀ earlier, drive.Selected earlier →
    (disk earlier).Shows (ports.in8 earlier (drive.ioBase + ataStatusOffset))
  data : ∀ earlier address k, drive.Selected earlier →
    (disk earlier).phase = .offering address k →
    ports.in16 earlier (drive.ioBase + ataDataOffset) = (disk earlier).medium.sectors (address, k)

/-! ## What the driver knows of the drive -/

namespace AtaDisk

/-- The drive is idle. -/
structure Settled (m : AtaMedium) (d : AtaDisk) : Prop where
  phase : d.phase = .idle
  medium : d.medium = m

/-- The drive is ready for the first word of a sector. -/
def firstWord : Bool → Nat → AtaPhase
  | false, address => .offering address 0
  | true, address => .taking address []

/-- The drive has been given a command, and no word has been moved. -/
structure Underway (write : Bool) (address : Nat) (m : AtaMedium) (d : AtaDisk) : Prop where
  phase : d.phase = .busy write address ∨ d.phase = firstWord write address ∨
    d.phase = .failed ∨ d.phase = .idle
  medium : d.medium = m

/-- The drive asks for the first word. -/
structure Ready (write : Bool) (address : Nat) (m : AtaMedium) (d : AtaDisk) : Prop where
  phase : d.phase = firstWord write address
  medium : d.medium = m

/-- The drive has ended the write of a sector. -/
def Ended (address : Nat) (words : List UInt16) (m : AtaMedium) (d : AtaDisk) : Prop :=
  ∃ m', m.Ends address words m' ∧ d.Settled m'

/-- The drive has all words of a sector, and is still at the write or has ended it. -/
def Storing (address : Nat) (words : List UInt16) (m : AtaMedium) (d : AtaDisk) : Prop :=
  (d.phase = .storing address words ∧ d.medium = m) ∨ d.Ended address words m

/-- The words from the `k`-th on are still to be read. -/
structure Offering (address k : Nat) (m : AtaMedium) (d : AtaDisk) : Prop where
  phase : d.phase = offeringFrom address k
  medium : d.medium = m

/-- The drive has been given these words. -/
structure Given (address : Nat) (words : List UInt16) (m : AtaMedium) (d : AtaDisk) : Prop where
  part : words.length < 256 → d.phase = .taking address words ∧ d.medium = m
  whole : 256 ≤ words.length → Storing address words m d

/-- What the drive does by itself leaves it. -/
def Steady (P : AtaDisk → Prop) : Prop := ∀ d d', P d → d.Passes d' → P d'

variable {m : AtaMedium} {write : Bool} {address : Nat} {words : List UInt16} {d d' : AtaDisk}
  {status : UInt8} {k : Nat}

theorem Settled.steady : Steady (Settled m) := by
  intro d d' h hp
  cases hp with
  | rests => exact h
  | _ => cases h.phase

theorem Underway.steady : Steady (Underway write address m) := by
  intro d d' h hp
  obtain ⟨phase, m⟩ := d
  obtain ⟨hphase, rfl⟩ := h
  rcases hphase with rfl | rfl | rfl | rfl
  · cases hp with
    | rests => exact ⟨.inl rfl, rfl⟩
    | offers => exact ⟨.inr (.inl rfl), rfl⟩
    | takes => exact ⟨.inr (.inl rfl), rfl⟩
    | refuses => exact ⟨.inr (.inr (.inr rfl)), rfl⟩
    | fails => exact ⟨.inr (.inr (.inl rfl)), rfl⟩
  · cases write <;> cases hp <;> exact ⟨.inr (.inl rfl), rfl⟩
  · cases hp with
    | rests => exact ⟨.inr (.inr (.inl rfl)), rfl⟩
    | recovers => exact ⟨.inr (.inr (.inr rfl)), rfl⟩
  · cases hp
    exact ⟨.inr (.inr (.inr rfl)), rfl⟩

theorem Ready.steady : Steady (Ready write address m) := by
  intro d d' h hp
  obtain ⟨phase, m⟩ := d
  obtain ⟨rfl, rfl⟩ := h
  cases write <;> cases hp <;> exact ⟨rfl, rfl⟩

theorem Ended.steady : Steady (Ended address words m) := by
  rintro d d' ⟨m', hends, h⟩ hp
  exact ⟨m', hends, Settled.steady _ _ h hp⟩

theorem Storing.steady : Steady (Storing address words m) := by
  intro d d' h hp
  rcases h with ⟨hphase, hmedium⟩ | h
  · cases hp with
    | rests => exact .inl ⟨hphase, hmedium⟩
    | ends a ws m₀ m' hends =>
      cases hphase
      cases hmedium
      exact .inr ⟨m', hends, rfl, rfl⟩
    | _ => cases hphase
  · exact .inr (Ended.steady _ _ h hp)

theorem Offering.steady : Steady (Offering address k m) := by
  intro d d' h hp
  obtain ⟨phase, m⟩ := d
  obtain ⟨rfl, rfl⟩ := h
  unfold offeringFrom at hp
  split at hp
  · next hk =>
    cases hp
    exact ⟨(if_pos hk).symm, rfl⟩
  · next hk =>
    cases hp
    exact ⟨(if_neg hk).symm, rfl⟩

theorem Given.steady : Steady (Given address words m) := by
  refine fun d d' h hp => ⟨fun hlt => ?_, fun hle => Storing.steady _ _ (h.whole hle) hp⟩
  obtain ⟨hphase, hmedium⟩ := h.part hlt
  cases hp with
  | rests => exact ⟨hphase, hmedium⟩
  | _ => cases hphase

/-- A drive that asks for data, and shows no error, moves the first word. -/
theorem Underway.ready (h : Underway write address m d) (hs : d.Shows status)
    (herror : status &&& (0x01 ||| 0x20) = 0) (hbusy : status &&& 0x80 = 0)
    (hdrq : status &&& 0x08 ≠ 0) : Ready write address m d := by
  unfold Shows at hs
  rcases h.phase with hphase | hphase | hphase | hphase
  · rw [hphase] at hs
    exact absurd ⟨hbusy, hdrq⟩ hs
  · exact ⟨hphase, h.medium⟩
  · rw [hphase] at hs
    exact absurd herror (hs hbusy)
  · rw [hphase] at hs
    exact absurd ⟨hbusy, hdrq⟩ hs

/-- A drive that is no longer busy has ended the write. -/
theorem Storing.ended (h : Storing address words m d) (hs : d.Shows status)
    (hbusy : status &&& 0x80 = 0) : Ended address words m d := by
  rcases h with ⟨hphase, -⟩ | h
  · rw [Shows, hphase] at hs
    exact absurd hbusy hs
  · exact h

end AtaDisk

end FunnyOS.Devices
