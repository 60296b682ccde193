import FunnyOS.Devices.AhciTransfers
import FunnyOS.Lib.Returns

/-!
# Setting up a port

Where `ahci_init` returns true, the port is started, its registers and the command header point to
the pages of the driver, and no command is going on, whatever the controller has done meanwhile and
whatever the port was doing before.
-/

namespace FunnyOS.Devices

open Boot (AhciDeviceAddress)
open Prog

/-- Only the controller and the memory are other ones, and `K` holds of them. -/
def Stays (s₀ : AhciState) (K : Hba → Prop) (s : AhciState) : Prop :=
  (∃ hba n, s = { s₀ with hba := hba, accesses := n }) ∧ K s.hba

/-- A property that the controller leaves. -/
def Lasting (p : Nat) (K : Hba → Prop) : Prop := ∀ hba hba', K hba → Moves p hba hba' → K hba'

/-- No command is issued, the port is not started, and the registers that say where the pages are
are as `φ` says. -/
def Still (p : Nat) (φ : UInt32 → UInt32 → UInt32 → UInt32 → Prop) (hba : Hba) : Prop :=
  ¬ hba.Issued p ∧ ¬ hba.Started p ∧ φ (hba.ports p).regs.clb (hba.ports p).regs.clbu
    (hba.ports p).regs.fb (hba.ports p).regs.fbu

/-- No command is issued, and the port uses the pages. -/
def Prepared (p : Nat) (pages : AhciPages) (started : Prop) (hba : Hba) : Prop :=
  ¬ hba.Issued p ∧ (hba.Started p ↔ started) ∧ hba.Uses p pages

section

variable {env : AhciEnv} {p : Nat} {s₀ s : AhciState} {K K' : Hba → Prop}
  {φ : UInt32 → UInt32 → UInt32 → UInt32 → Prop} {E : Unit → AhciState → Prop} {α : Type}
  {pages : AhciPages} {b : Prop} {hba : Hba} {value : UInt32}

theorem Lasting.true : Lasting p fun _ => True := fun _ _ _ _ => trivial

theorem Lasting.still : Lasting p (Still p φ) := by
  rintro hba hba' ⟨hci, hst, h⟩ hm
  have hr := hm.rests fun hb => hci hb.1
  refine ⟨?_, fun hs => hst (hr.setup.starts.mp hs), ?_⟩
  · rw [Hba.Issued, hr.ci]
    exact hci
  · rw [hr.setup.clb, hr.setup.clbu, hr.setup.fb, hr.setup.fbu]
    exact h

theorem Lasting.prepared : Lasting p (Prepared p pages b) := by
  rintro hba hba' ⟨hci, hst, hu⟩ hm
  have hr := hm.rests fun hb => hci hb.1
  refine ⟨?_, hr.setup.starts.trans hst, (hr.sameCommand hu).uses hu⟩
  rw [Hba.Issued, hr.ci]
  exact hci

/-! ## Accesses -/

theorem readPort_returns {register : HbaPort → UInt32} {f : UInt32 → Ahci α}
    {R : α → AhciState → Prop}
    (hconf : env.Conforms p) (hK : Lasting p K) (h : Stays s₀ K s)
    (hf : ∀ s', Stays s₀ K s' → Returns (f (register (s'.hba.ports p).regs)) s' R E) :
    Returns (readPort env p register >>= f) s R E := by
  obtain ⟨⟨hba, n, rfl⟩, hk⟩ := h
  refine hf { s₀ with hba := env.moves n hba, accesses := n + 1 } ⟨⟨_, _, rfl⟩, ?_⟩
  exact hK _ _ hk (hconf n hba)

theorem writePort_returns {g : AhciPort → AhciPort} {f : Unit → Ahci α} {R : α → AhciState → Prop}
    (hconf : env.Conforms p) (hK : Lasting p K) (hg : ∀ hba, K hba → K' (hba.setPort p g))
    (h : Stays s₀ K s) (hf : ∀ s', Stays s₀ K' s' → Returns (f ()) s' R E) :
    Returns (writePort env p g >>= f) s R E := by
  obtain ⟨⟨hba, n, rfl⟩, hk⟩ := h
  refine hf { s₀ with hba := (env.moves n hba).setPort p g, accesses := n + 1 } ⟨⟨_, _, rfl⟩, ?_⟩
  exact hg _ (hK _ _ hk (hconf n hba))

theorem ahciWaitPortMaskClear_returns {mask : UInt32} (hconf : env.Conforms p) (hK : Lasting p K)
    (spins : Nat) (h : Stays s₀ K s) :
    Returns (ahciWaitPortMaskClear env p mask spins) s (fun _ s' => Stays s₀ K s') E := by
  induction spins generalizing s with
  | zero => exact Returns.pure h
  | succ spins ih =>
    refine readPort_returns hconf hK h fun s' hs' => ?_
    exact Returns.ite (fun _ => Returns.pure hs') fun _ => ih hs'

theorem ahciWaitPortReady_returns (hconf : env.Conforms p) (hK : Lasting p K) (spins : Nat)
    (h : Stays s₀ K s) :
    Returns (ahciWaitPortReady env p spins) s (fun _ s' => Stays s₀ K s') E := by
  induction spins generalizing s with
  | zero => exact Returns.pure h
  | succ spins ih =>
    refine readPort_returns hconf hK h fun s' hs' => ?_
    exact Returns.ite (fun _ => Returns.pure hs') fun _ => ih hs'

/-! ## Stopping and starting -/

theorem writeCmd_started (port : AhciPort) (value : UInt32) :
    (port.writeCmd value).regs.cmd &&& hbaPxcmdSt = value &&& hbaPxcmdSt := by
  have hbits : ∀ old : UInt32, ((value &&& ~~~(hbaPxcmdFr ||| hbaPxcmdCr)) |||
      (old &&& (hbaPxcmdFr ||| hbaPxcmdCr))) &&& hbaPxcmdSt = value &&& hbaPxcmdSt := by
    intro old
    apply UInt32.toBitVec_inj.mp
    ext i hi
    interval_cases i <;> simp
  unfold AhciPort.writeCmd
  simp only
  split <;> exact hbits _

theorem changeCmd_returns {f : UInt32 → UInt32} {Q : UInt32 → Prop} (hconf : env.Conforms p)
    (hK : Lasting p K) (hQ : ∀ hba, K hba → Q (f (hba.ports p).regs.cmd))
    (hset : ∀ value hba, Q value → K hba → K' (hba.setPort p (·.writeCmd value)))
    (h : Stays s₀ K s) : Returns (changeCmd env p f) s (fun _ s' => Stays s₀ K' s') E := by
  refine readPort_returns hconf hK h fun s₁ h₁ => ?_
  obtain ⟨⟨hba, n, rfl⟩, hk⟩ := h₁
  exact ⟨⟨_, _, rfl⟩, hset _ _ (hQ hba hk) (hK _ _ hk (hconf n hba))⟩

/-- The registers that say where the pages are. -/
theorem writeCmd_pages (port : AhciPort) (value : UInt32) :
    (port.writeCmd value).regs.clb = port.regs.clb ∧
    (port.writeCmd value).regs.clbu = port.regs.clbu ∧
    (port.writeCmd value).regs.fb = port.regs.fb ∧
    (port.writeCmd value).regs.fbu = port.regs.fbu := by
  unfold AhciPort.writeCmd
  simp only
  split <;> exact ⟨rfl, rfl, rfl, rfl⟩

theorem not_issued_writeCmd (h : value &&& hbaPxcmdSt = 0 ∨ ¬ hba.Issued p) :
    ¬ (hba.setPort p (·.writeCmd value)).Issued p := by
  rw [Hba.Issued, Hba.setPort_ports, AhciPort.writeCmd]
  simp only
  split
  · exact fun hne => hne UInt32.zero_and
  · next hset => exact h.resolve_left hset

/-- A port that is not started has no command. -/
theorem Still.of_writeCmd (h : value &&& hbaPxcmdSt = 0) :
    Still p (fun _ _ _ _ => True) (hba.setPort p (·.writeCmd value)) := by
  refine ⟨not_issued_writeCmd (.inl h), ?_, trivial⟩
  rw [Hba.Started, Hba.setPort_ports, writeCmd_started, not_not]
  exact h

theorem Prepared.writeCmd (h : Prepared p pages b hba) :
    Prepared p pages (value &&& hbaPxcmdSt ≠ 0) (hba.setPort p (·.writeCmd value)) := by
  obtain ⟨hclb, hclbu, hfb, hfbu⟩ := writeCmd_pages (hba.ports p) value
  have hlist : (hba.setPort p (·.writeCmd value)).list p = hba.list p := by
    rw [Hba.list, Hba.setPort_ports, hclb, hclbu, Hba.list]
  refine ⟨not_issued_writeCmd (.inr h.1), ?_, hlist.trans h.2.2.list, ?_, ?_⟩
  · rw [Hba.Started, Hba.setPort_ports, writeCmd_started]
  · rw [Hba.received, Hba.setPort_ports, hfb, hfbu, ← h.2.2.received, Hba.received]
  · rw [← h.2.2.table, Hba.table, Hba.table, hlist, Hba.setPort_memory]

theorem clear_start (cmd : UInt32) : (cmd &&& ~~~hbaPxcmdSt) &&& hbaPxcmdSt = 0 := by
  apply UInt32.toBitVec_inj.mp
  ext i hi
  interval_cases i <;> simp

theorem keep_start {cmd mask : UInt32} (h : cmd &&& hbaPxcmdSt = 0) :
    (cmd &&& mask) &&& hbaPxcmdSt = 0 := by
  rw [UInt32.and_assoc, UInt32.and_comm mask, ← UInt32.and_assoc, h, UInt32.zero_and]

theorem ahciStopPort_returns (hconf : env.Conforms p) (h : Stays s₀ (fun _ => True) s) :
    Returns (ahciStopPort env p) s
      (fun _ s' => Stays s₀ (Still p fun _ _ _ _ => True) s') E := by
  refine (changeCmd_returns hconf Lasting.true (fun hba _ => clear_start _)
    (fun value hba hv _ => Still.of_writeCmd hv) h).bind (fun _ _ h => h) fun _ s₁ h₁ => ?_
  refine (changeCmd_returns hconf Lasting.still (fun hba hk => keep_start (not_not.mp hk.2.1))
    (fun value hba hv _ => Still.of_writeCmd hv) h₁).bind (fun _ _ h => h) fun _ s₂ h₂ => ?_
  refine (ahciWaitPortMaskClear_returns hconf Lasting.still _ h₂).bind (fun _ _ h => h)
    fun _ s₃ h₃ => Returns.pure h₃

theorem ahciStartPort_returns (hconf : env.Conforms p) (h : Stays s₀ (Prepared p pages b) s) :
    Returns (ahciStartPort env p) s (fun _ s' => Stays s₀ (Prepared p pages True) s') E := by
  have hst : ∀ hba : Hba, ((hba.ports p).regs.cmd ||| hbaPxcmdSt) &&& hbaPxcmdSt ≠ 0 := by
    intro hba
    rw [or_and_self]
    decide
  refine (ahciWaitPortMaskClear_returns hconf Lasting.prepared _ h).bind (fun _ _ h => h)
    fun _ s₁ h₁ => ?_
  have hspin : Returns (changeCmd env p (· ||| (hbaPxcmdFre ||| hbaPxcmdSud))) s₁
      (fun _ s' => Stays s₀ (fun hba => ∃ b, Prepared p pages b hba) s') E :=
    changeCmd_returns (Q := fun _ => True) hconf Lasting.prepared (fun _ _ => trivial)
      (fun value hba _ hk => ⟨_, hk.writeCmd⟩) h₁
  refine hspin.bind (fun _ _ h => h) fun _ s₂ ⟨hframe, b', h₂⟩ => ?_
  refine changeCmd_returns (Q := fun value => value &&& hbaPxcmdSt ≠ 0) hconf Lasting.prepared
    (fun hba _ => hst hba) (fun value hba hv hk => ?_) ⟨hframe, h₂⟩
  obtain ⟨hci, hstarted, hu⟩ := @Prepared.writeCmd _ _ _ _ value hk
  exact ⟨hci, hstarted.trans (iff_true_intro hv), hu⟩

/-! ## The pages -/

/-- The pages that `alloc_pages` gives lie below 4 GiB and apart. -/
structure AhciEnv.FreshPages (env : AhciEnv) : Prop where
  below : ∀ n a, env.allocPages n = some a → a + 4096 ≤ 2 ^ 32
  apart : ∀ n m a b, env.allocPages n = some a → env.allocPages m = some b → n ≠ m →
    a + 4096 ≤ b ∨ b + 4096 ≤ a

/-- The driver has its pages. -/
structure HasPages (pages : AhciPages) (s : AhciState) : Prop where
  list : s.commandList = some pages.list
  fis : s.receivedFis = some pages.fis
  table : s.commandTable = some pages.table

theorem HasPages.stays (h : HasPages pages s₀) (hs : Stays s₀ K s) : HasPages pages s := by
  obtain ⟨⟨hba, n, rfl⟩, -⟩ := hs
  exact ⟨h.list, h.fis, h.table⟩

/-- A page that the driver does not have yet. -/
theorem ahciPage_returns {page : AhciState → Option Nat} {keep : Nat → AhciState → AhciState}
    (hnone : page s = none) : Returns (ahciPage env page keep) s (fun ok s' => ok = true →
      ∃ a, env.allocPages s.allocations = some a ∧
        s' = keep a { s with allocations := s.allocations + 1 }) E := by
  unfold ahciPage
  refine Returns.get_bind ?_
  simp only [hnone]
  refine Returns.modify_bind ?_
  cases ha : env.allocPages s.allocations with
  | none => exact Returns.pure fun h => by cases h
  | some a => exact Returns.modify_bind (Returns.pure fun _ => ⟨a, rfl, rfl⟩)

theorem ahciClearPage_returns {page : AhciState → Option Nat} {x : Ahci α}
    {R : α → AhciState → Prop} {a : Nat} (hpage : page s = some a)
    (hx : ∀ hba : Hba, Returns x { s with hba := hba } R E) :
    Returns (ahciClearPage page >>= fun _ => x) s R E := by
  have hrun : ahciClearPage page s = .ok ()
      { s with hba := s.hba.store a 4096 fun _ => 0 } := by
    unfold ahciClearPage
    refine (bind_of_ok rfl).trans ?_
    simp only [hpage]
    rfl
  exact Returns.of_bind_ok hrun (hx _)

/-- The driver gets its pages, if it had none. -/
theorem ahciPrepareMemory_returns (hfresh : env.FreshPages) (hlist : s.commandList = none)
    (hfis : s.receivedFis = none) (htable : s.commandTable = none) :
    Returns (ahciPrepareMemory env) s (fun ok s' => ok = true →
      s'.gPort = s.gPort ∧ ∃ pages, HasPages pages s') E := by
  refine (ahciPage_returns hlist).bind (fun _ _ h => h) fun ok s₁ h₁ => ?_
  refine Returns.ite (fun _ => Returns.pure fun h => by cases h) fun hok => ?_
  obtain ⟨a, ha, rfl⟩ := h₁ (by simpa using hok)
  refine Returns.bind (ahciPage_returns hfis) (fun _ _ h => h) fun ok s₂ h₂ => ?_
  refine Returns.ite (fun _ => Returns.pure fun h => by cases h) fun hok => ?_
  obtain ⟨b, hb, rfl⟩ := h₂ (by simpa using hok)
  refine Returns.bind (ahciPage_returns htable) (fun _ _ h => h) fun ok s₃ h₃ => ?_
  refine Returns.ite (fun _ => Returns.pure fun h => by cases h) fun hok => ?_
  obtain ⟨c, hc, rfl⟩ := h₃ (by simpa using hok)
  clear h₁ h₂ h₃
  have hnext : ∀ n : Nat, n ≠ n + 1 ∧ n ≠ n + 1 + 1 := fun n => by omega
  have hpages : ∃ pages : AhciPages, pages.list = a ∧ pages.fis = b ∧ pages.table = c :=
    ⟨⟨a, b, c, hfresh.apart _ _ _ _ ha hb (hnext _).1, hfresh.apart _ _ _ _ ha hc (hnext _).2,
      hfresh.apart _ _ _ _ hb hc (hnext _).1, hfresh.below _ _ ha, hfresh.below _ _ hb,
      hfresh.below _ _ hc⟩, rfl, rfl, rfl⟩
  obtain ⟨pages, rfl, rfl, rfl⟩ := hpages
  refine ahciClearPage_returns rfl fun hba₁ => ?_
  refine ahciClearPage_returns rfl fun hba₂ => ?_
  refine ahciClearPage_returns rfl fun hba₃ => ?_
  exact Returns.pure fun _ => ⟨rfl, pages, rfl, rfl, rfl⟩

/-! ## The registers and the header -/

/-- A register is written that leaves the commands and whether the port is started. -/
theorem writeRegs_returns {g : HbaPort → HbaPort} {x : Ahci α} {R : α → AhciState → Prop}
    {ψ : UInt32 → UInt32 → UInt32 → UInt32 → Prop} (hconf : env.Conforms p)
    (hci : ∀ r, (g r).ci = r.ci) (hcmd : ∀ r, (g r).cmd = r.cmd)
    (hφ : ∀ r, φ r.clb r.clbu r.fb r.fbu → ψ (g r).clb (g r).clbu (g r).fb (g r).fbu)
    (h : Stays s₀ (Still p φ) s) (hx : ∀ s', Stays s₀ (Still p ψ) s' → Returns x s' R E) :
    Returns (writeRegs env p g >>= fun _ => x) s R E := by
  refine writePort_returns hconf Lasting.still (fun hba hk => ⟨?_, ?_, ?_⟩) h hx
  · rw [Hba.Issued, Hba.setPort_ports, hci]
    exact hk.1
  · rw [Hba.Started, Hba.setPort_ports, hcmd]
    exact hk.2.1
  · rw [Hba.setPort_ports]
    exact hφ _ hk.2.2

/-- What is stored in the header. -/
def setupMemory (memory : Nat → UInt8) (list table : Nat) : Nat → UInt8 :=
  overlay (overlay (overlay (overlay (overlay (overlay memory list 1 fun _ => 5)
    (list + 1) 1 fun _ => 0) (list + 2) 2 (byteOf 1)) (list + 4) 4 fun _ => 0)
    (list + 8) 4 (byteOf (table % 2 ^ 32))) (list + 12) 4 fun _ => 0

/-- The registers point to the pages. -/
def AtPages (pages : AhciPages) (clb clbu fb fbu : UInt32) : Prop :=
  clb = .ofNat pages.list ∧ clbu = 0 ∧ fb = .ofNat pages.fis ∧ fbu = 0

/-- With the header, that is all that a port needs. -/
theorem prepared_setup {hba hba' : Hba} (h : Still p (AtPages pages) hba)
    (hports : hba'.ports = hba.ports)
    (hmem : hba'.memory = setupMemory hba.memory pages.list pages.table) :
    Prepared p pages False hba' := by
  obtain ⟨hci, hst, hclb, hclbu, hfb, hfbu⟩ := h
  have ht := pages.table_lt
  have hl : pages.list < UInt32.size := Nat.lt_of_lt_of_le (by omega) pages.list_lt
  have hf : pages.fis < UInt32.size := Nat.lt_of_lt_of_le (by omega) pages.fis_lt
  have hlist : hba'.list p = pages.list := by
    rw [Hba.list, hports, hclb, hclbu, wide, UInt32.toNat_ofNat_of_lt' hl]
    rfl
  refine ⟨?_, iff_of_false ?_ id, hlist, ?_, ?_⟩
  · rw [Hba.Issued, hports]
    exact hci
  · rw [Hba.Started, hports]
    exact hst
  · rw [Hba.received, hports, hfb, hfbu, wide, UInt32.toNat_ofNat_of_lt' hf]
    rfl
  · have hlow : ∀ i < 4, hba'.memory (pages.list + 8 + i) = byteOf (pages.table % 2 ^ 32) i := by
      intro i hi
      rw [hmem]
      simp (disch := omega) only [setupMemory, overlay_inside, overlay_outside,
        Nat.add_sub_cancel_left]
    have hhigh : ∀ i < 4, hba'.memory (pages.list + 12 + i) = 0 := by
      intro i hi
      rw [hmem]
      simp (disch := omega) only [setupMemory, overlay_inside]
    rw [Hba.table, hlist, field_byteOf hlow, field_zero hhigh, wide]
    omega

/-- Where the port could be set up, it is. -/
theorem ahciConfigurePort_returns (hconf : env.Conforms p) (hfresh : env.FreshPages)
    (hlist : s.commandList = none) (hfis : s.receivedFis = none) (htable : s.commandTable = none) :
    Returns (ahciConfigurePort env p) s (fun ok s' => ok = true → s'.gPort = s.gPort ∧
      ∃ pages, HasPages pages s' ∧ Prepared p pages True s'.hba) E := by
  refine (ahciPrepareMemory_returns hfresh hlist hfis htable).bind (fun _ _ h => h)
    fun ok s₁ h₁ => ?_
  refine Returns.ite (fun _ => Returns.pure fun h => by cases h) fun hok => ?_
  obtain ⟨hport, pages, hpages⟩ := h₁ (by simpa using hok)
  refine (ahciStopPort_returns hconf ⟨⟨s₁.hba, s₁.accesses, rfl⟩, trivial⟩).bind (fun _ _ h => h)
    fun _ s₂ h₂ => ?_
  refine Returns.get_bind ?_
  have hpages₂ := hpages.stays h₂
  simp only [hpages₂.list, hpages₂.fis, hpages₂.table]
  refine writeRegs_returns (ψ := fun clb _ _ _ => clb = .ofNat pages.list) hconf (fun _ => rfl)
    (fun _ => rfl) (fun _ _ => rfl) h₂ fun s₃ h₃ => ?_
  refine writeRegs_returns (ψ := fun clb clbu _ _ => clb = .ofNat pages.list ∧ clbu = 0) hconf
    (fun _ => rfl) (fun _ => rfl) (fun _ h => ⟨h, rfl⟩) h₃ fun s₄ h₄ => ?_
  refine writeRegs_returns (ψ := fun clb clbu fb _ => clb = .ofNat pages.list ∧ clbu = 0 ∧
    fb = .ofNat pages.fis) hconf (fun _ => rfl) (fun _ => rfl) (fun _ h => ⟨h.1, h.2, rfl⟩) h₄
    fun s₅ h₅ => ?_
  refine writeRegs_returns (ψ := AtPages pages) hconf (fun _ => rfl) (fun _ => rfl)
    (fun _ h => ⟨h.1, h.2.1, h.2.2, rfl⟩) h₅ fun s₆ h₆ => ?_
  refine writeRegs_returns (ψ := AtPages pages) hconf (fun _ => rfl) (fun _ => rfl) (fun _ h => h)
    h₆ fun s₇ h₇ => ?_
  refine writeRegs_returns (ψ := AtPages pages) hconf (fun _ => rfl) (fun _ => rfl) (fun _ h => h)
    h₇ fun s₈ h₈ => ?_
  refine writeRegs_returns (ψ := AtPages pages) hconf (fun _ => rfl) (fun _ => rfl) (fun _ h => h)
    h₈ fun s₉ h₉ => ?_
  refine writeRegs_returns (ψ := AtPages pages) hconf (fun _ => rfl) (fun _ => rfl) (fun _ h => h)
    h₉ fun s₁₀ h₁₀ => ?_
  have hnoci : ∀ r : HbaPort, (r.writeCi 0).ci = r.ci ∧ (r.writeCi 0).cmd = r.cmd ∧
      (r.writeCi 0).clb = r.clb ∧ (r.writeCi 0).clbu = r.clbu ∧ (r.writeCi 0).fb = r.fb ∧
      (r.writeCi 0).fbu = r.fbu := by
    intro r
    unfold HbaPort.writeCi
    split
    · exact ⟨rfl, rfl, rfl, rfl, rfl, rfl⟩
    · exact ⟨UInt32.or_zero, rfl, rfl, rfl, rfl, rfl⟩
  refine writeRegs_returns (ψ := AtPages pages) hconf (fun r => (hnoci r).1)
    (fun r => (hnoci r).2.1)
    (fun r h => by
      obtain ⟨-, -, hclb, hclbu, hfb, hfbu⟩ := hnoci r
      rw [hclb, hclbu, hfb, hfbu]
      exact h) h₁₀ fun s₁₁ h₁₁ => ?_
  -- the header
  obtain ⟨⟨hba, n, rfl⟩, hstill⟩ := h₁₁
  have hready : Stays s₁ (Prepared p pages False) { s₁ with
      hba := { hba with memory := setupMemory hba.memory pages.list pages.table }
      accesses := n } :=
    ⟨⟨_, _, rfl⟩, prepared_setup hstill rfl rfl⟩
  have hstart : Returns (ahciStartPort env p >>= fun _ => ahciWaitPortReady env p ahciSpins)
      { s₁ with
        hba := { hba with memory := setupMemory hba.memory pages.list pages.table }, accesses := n }
      (fun ok s' => ok = true → s'.gPort = s.gPort ∧
        ∃ pages, HasPages pages s' ∧ Prepared p pages True s'.hba) E := by
    refine (ahciStartPort_returns hconf hready).bind (fun _ _ h => h) fun _ s₁₂ h₁₂ => ?_
    refine (ahciWaitPortReady_returns hconf Lasting.prepared _ h₁₂).mono (fun ok s' hs' _ => ?_)
      fun _ _ h => h
    refine ⟨?_, pages, hpages.stays hs', hs'.2⟩
    obtain ⟨⟨hba', n', rfl⟩, -⟩ := hs'
    exact hport
  exact hstart

/-! ## Finding the port -/

/-- The driver has no pages yet. -/
def Bare (s : AhciState) : Prop :=
  s.commandList = none ∧ s.receivedFis = none ∧ s.commandTable = none

theorem onPci_bare {x : Pci α} : Maintains Bare (onPci x) := by
  intro s hs
  unfold onPci onPart
  cases x s.pci <;> exact hs

theorem readHba_bare {register : Hba → UInt32} : Maintains Bare (readHba env register) :=
  fun _ hs => hs

theorem writeGhc_bare : Maintains Bare (writeGhc env value) := fun _ hs => hs

theorem readPort_bare {register : HbaPort → UInt32} :
    Maintains (fun s => Bare s ∧ s.gPort = some p) (readPort env p register) := fun _ hs => hs

theorem ahciPortHasSataDrive_bare :
    Maintains (fun s => Bare s ∧ s.gPort = some p) (ahciPortHasSataDrive env p) := by
  refine .bind readPort_bare fun ssts => .ite (fun _ => .pure) fun _ => ?_
  exact .bind readPort_bare fun sig => .pure

/-- Where `ahci_init` returns true, the port is set up. -/
theorem ahciInit_returns {device : AhciDeviceAddress} (hconf : env.Conforms device.port.toNat)
    (hfresh : env.FreshPages) (hbare : Bare s) :
    Returns (ahciInit env device) s (fun ok s' => ok = true →
      s'.gPort = some device.port.toNat ∧
      ∃ pages, HasPages pages s' ∧ Prepared device.port.toNat pages True s'.hba)
      fun _ _ => True := by
  have hfalse : ∀ s, Returns (pure false : Ahci Bool) s (fun ok s' => ok = true →
      s'.gPort = some device.port.toNat ∧
      ∃ pages, HasPages pages s' ∧ Prepared device.port.toNat pages True s'.hba)
      fun _ _ => True := fun s => Returns.pure fun h => by cases h
  unfold ahciInit
  refine Returns.ite (fun _ => hfalse _) fun _ => ?_
  refine Returns.maintains_bind onPci_bare hbare (fun _ _ _ => trivial) fun found s₁ h₁ => ?_
  cases found with
  | none => exact hfalse _
  | some info =>
    refine Returns.ite (fun _ => hfalse _) fun _ => ?_
    refine Returns.maintains_bind onPci_bare h₁ (fun _ _ _ => trivial) fun command s₂ h₂ => ?_
    refine Returns.maintains_bind onPci_bare h₂ (fun _ _ _ => trivial) fun _ s₃ h₃ => ?_
    refine Returns.maintains_bind onPci_bare h₃ (fun _ _ _ => trivial) fun abar s₄ h₄ => ?_
    refine Returns.ite (fun _ => hfalse _) fun _ => Returns.ite (fun _ => hfalse _) fun _ => ?_
    refine Returns.ite (fun _ => hfalse _) fun _ => ?_
    refine Returns.maintains_bind readHba_bare h₄ (fun _ _ _ => trivial) fun ghc s₅ h₅ => ?_
    refine Returns.maintains_bind writeGhc_bare h₅ (fun _ _ _ => trivial) fun _ s₆ h₆ => ?_
    refine Returns.maintains_bind readHba_bare h₆ (fun _ _ _ => trivial) fun pi s₇ h₇ => ?_
    refine Returns.ite (fun _ => hfalse _) fun _ => Returns.modify_bind ?_
    refine Returns.maintains_bind ahciPortHasSataDrive_bare (⟨h₇, rfl⟩) (fun _ _ _ => trivial)
      fun drive s₈ ⟨h₈, hport⟩ => ?_
    refine Returns.ite (fun _ => hfalse _) fun _ => ?_
    refine (ahciConfigurePort_returns hconf hfresh h₈.1 h₈.2.1 h₈.2.2).mono
      (fun ok s' h hok => ?_) fun _ _ h => h
    obtain ⟨hsame, hpages⟩ := h hok
    exact ⟨hsame.trans hport, hpages⟩

end

end FunnyOS.Devices
