import FunnyOS.Devices.AhciInit

/-!
# Runs of the AHCI driver

Between two calls the rest of the kernel may write to the memory outside the pages of the driver,
and a command that the driver has given up on may still be going on. Over all such runs the disk is
a store whose writes may fail; and a port that has stopped at an error stays so.
-/

namespace FunnyOS.Devices

open Boot (AhciDeviceAddress)
open Prog

/-- What may happen while the driver is not running: the controller moves, or the kernel writes to
memory. -/
def Meanwhile (p : Nat) (pages : AhciPages) (hba hba' : Hba) : Prop :=
  Moves p hba hba' ∨
    (hba'.ports p = { hba.ports p with disturbed := true } ∧
      ∀ a, pages.Has a → hba'.memory a = hba.memory a)

/-- A call of `ahci_read_sectors` or `ahci_write_sectors` with a buffer outside the pages. The data
of the transfer is what the buffer holds when the call returns. -/
inductive AhciCall (env : AhciEnv) (p : Nat) (pages : AhciPages) (s : AhciState) :
    Transfer (Nat × Nat) UInt8 → AhciState → Prop
  | read (lba : UInt32) (count : UInt8) (out : Nat) (hba : Hba) (ok : Bool) (s' : AhciState)
      (hmeanwhile : Relation.ReflTransGen (Meanwhile p pages) s.hba hba)
      (hspare : pages.Spare (request lba count out false))
      (hcall : ahciReadSectors env lba count out { s with hba := hba } = .ok ok s') :
      AhciCall env p pages s ⟨false, (request lba count out false).cells,
        (request lba count out false).data s'.hba.memory, ok⟩ s'
  | write (lba : UInt32) (count : UInt8) (data : Nat) (hba : Hba) (ok : Bool) (s' : AhciState)
      (hmeanwhile : Relation.ReflTransGen (Meanwhile p pages) s.hba hba)
      (hspare : pages.Spare (request lba count data true))
      (hcall : ahciWriteSectors env lba count data { s with hba := hba } = .ok ok s') :
      AhciCall env p pages s ⟨true, (request lba count data true).cells,
        (request lba count data true).data s'.hba.memory, ok⟩ s'

/-- The driver has its port and its pages. -/
structure Serves (p : Nat) (pages : AhciPages) (s : AhciState) : Prop where
  port : s.gPort = some p
  pages : HasPages pages s

section

variable {env : AhciEnv} {p : Nat} {pages : AhciPages} {known : Known (Nat × Nat) UInt8}
  {hba hba' : Hba} {s s' : AhciState} {t : Transfer (Nat × Nat) UInt8}
  {ts : List (Transfer (Nat × Nat) UInt8)} {lba : UInt32} {count : UInt8} {buffer : Nat}
  {write ok : Bool}

/-- A change of memory outside the pages leaves the command. -/
theorem sameCommand_of_memory (hregs : (hba'.ports p).regs = (hba.ports p).regs)
    (hmem : ∀ a, pages.Has a → hba'.memory a = hba.memory a) : SameCommand p pages hba hba' := by
  refine ⟨?_, fun a ha => hmem a ha.has⟩
  rw [hregs]
  exact ⟨rfl, rfl, rfl, rfl, rfl⟩

theorem Tracked.meanwhile (h : Tracked p pages known hba) (hm : Meanwhile p pages hba hba') :
    Tracked p pages known hba' := by
  rcases hm with hm | ⟨hport, hmem⟩
  · exact (h.moves hm).1
  · have hsame : SameCommand p pages hba hba' := sameCommand_of_memory (by rw [hport]) hmem
    refine ⟨hsame.uses h.uses, hsame.setup.starts.mpr h.started, ?_, fun hb => ?_⟩
    · unfold Hba.disk
      rw [hport]
      exact h.holds
    · rw [Hba.Busy, Hba.Issued, Hba.Started, hport] at hb
      obtain ⟨c, hfinds, hrest⟩ := h.busy hb
      exact ⟨c, hsame.finds h.uses hfinds, hrest⟩

theorem Tracked.meanwhiles (h : Tracked p pages known hba)
    (hm : Relation.ReflTransGen (Meanwhile p pages) hba hba') : Tracked p pages known hba' := by
  induction hm with
  | refl => exact h
  | tail _ hlast ih => exact ih.meanwhile hlast

/-- A transfer only changes the controller and the memory. -/
theorem Watches.of_ok {x : Ahci Bool} {R : Bool → Hba → Prop} (h : Watches x s R)
    (hx : x s = .ok ok s') : R ok s'.hba ∧ ∃ n, s' = { s with hba := s'.hba, accesses := n } := by
  obtain ⟨b, hba, n, hrun, hr⟩ := h
  rw [hx] at hrun
  cases hrun
  exact ⟨hr, n, rfl⟩

theorem Serves.of_watches (h : Serves p pages s) {n : Nat}
    (hs' : s' = { s with hba := s'.hba, accesses := n }) : Serves p pages s' := by
  rw [hs']
  exact ⟨h.port, h.pages.list, h.pages.fis, h.pages.table⟩

/-- A call is a step of the store. -/
theorem AhciCall.step (hconf : env.Conforms p) (hs : Serves p pages s)
    (h : Tracked p pages known s.hba) (hcall : AhciCall env p pages s t s') :
    Serves p pages s' ∧ ∃ known', StoreStep known t known' ∧ Tracked p pages known' s'.hba := by
  cases hcall with
  | read lba count out hba ok _ hmeanwhile hspare hcall =>
    obtain ⟨hstep, n, hs'⟩ := (ahciIssueIo_watches (s := { s with hba := hba }) hconf hs.port
      hs.pages.list hs.pages.table (h.meanwhiles hmeanwhile) hspare).of_ok hcall
    exact ⟨hs.of_watches hs', hstep⟩
  | write lba count data hba ok _ hmeanwhile hspare hcall =>
    obtain ⟨hstep, n, hs'⟩ := (ahciIssueIo_watches (s := { s with hba := hba }) hconf hs.port
      hs.pages.list hs.pages.table (h.meanwhiles hmeanwhile) hspare).of_ok hcall
    exact ⟨hs.of_watches hs', hstep⟩

/-- Every run is a run of the store. -/
theorem AhciCall.run (hconf : env.Conforms p) (hrun : Runs (AhciCall env p pages) s ts s')
    (hs : Serves p pages s) (h : Tracked p pages known s.hba) :
    Serves p pages s' ∧ ∃ known', Runs StoreStep known ts known' ∧
      Tracked p pages known' s'.hba := by
  induction hrun generalizing known with
  | nil s => exact ⟨hs, known, .nil known, h⟩
  | cons first _ ih =>
    obtain ⟨hs₁, known₁, hstep, h₁⟩ := first.step hconf hs h
    obtain ⟨hs', known', hruns, h'⟩ := ih hs₁ h₁
    exact ⟨hs', known', .cons hstep hruns, h'⟩

theorem HasPages.unique {pages' : AhciPages} (h : HasPages pages s) (h' : HasPages pages' s) :
    pages = pages' := by
  obtain ⟨hlist, hfis, htable⟩ := h
  obtain ⟨hlist', hfis', htable'⟩ := h'
  rw [hlist] at hlist'
  rw [hfis] at hfis'
  rw [htable] at htable'
  cases pages
  cases pages'
  cases hlist'
  cases hfis'
  cases htable'
  rfl

theorem Prepared.tracked (h : Prepared p pages True hba) :
    Tracked p pages (Known.all (hba.disk p)) hba :=
  ⟨h.2.2, h.2.1.mpr trivial, Known.of_all, fun hb => absurd hb.1 h.1⟩

end

/-- What `ahci_init` has set up. -/
theorem served_of_init {env : AhciEnv} {device : AhciDeviceAddress} {s₀ s : AhciState}
    {pages : AhciPages} (hconf : env.Conforms device.port.toNat) (hfresh : env.FreshPages)
    (hbare : Bare s₀) (hinit : ahciInit env device s₀ = .ok true s) (hpages : HasPages pages s) :
    Serves device.port.toNat pages s ∧ Tracked device.port.toNat pages
      (Known.all (s.hba.disk device.port.toNat)) s.hba := by
  obtain ⟨hport, pages', hpages', hprepared⟩ :=
    (ahciInit_returns hconf hfresh hbare).of_ok hinit rfl
  obtain rfl := hpages.unique hpages'
  exact ⟨⟨hport, hpages⟩, hprepared.tracked⟩

/-- Once `ahci_init` has succeeded, the disk is a store whose writes may fail, whatever the
controller does between the accesses of the driver and the kernel between its calls. -/
theorem store_of_ahci {env : AhciEnv} {device : AhciDeviceAddress} {s₀ s s' : AhciState}
    {pages : AhciPages} {ts : List (Transfer (Nat × Nat) UInt8)}
    (hconf : env.Conforms device.port.toNat) (hfresh : env.FreshPages) (hbare : Bare s₀)
    (hinit : ahciInit env device s₀ = .ok true s) (hpages : HasPages pages s)
    (hrun : Runs (AhciCall env device.port.toNat pages) s ts s') :
    ∃ known, Runs StoreStep (Known.all (s.hba.disk device.port.toNat)) ts known ∧
      known.Of (s'.hba.disk device.port.toNat) := by
  obtain ⟨hserves, h⟩ := served_of_init hconf hfresh hbare hinit hpages
  obtain ⟨-, known, hruns, h'⟩ := AhciCall.run hconf hrun hserves h
  exact ⟨known, hruns, h'.holds⟩

/-! ## A port that has stopped -/

/-- A command is issued, and the port has stopped at an error: so it stays, and so does the disk. -/
structure Stopped (p : Nat) (pages : AhciPages) (disk : Nat × Nat → UInt8) (hba : Hba) : Prop where
  uses : hba.Uses p pages
  started : hba.Started p
  issued : hba.Issued p
  halted : (hba.ports p).halted = true
  disk : hba.disk p = disk

section

variable {env : AhciEnv} {p : Nat} {pages : AhciPages} {disk : Nat × Nat → UInt8}
  {hba hba' : Hba} {s s' : AhciState} {t : Transfer (Nat × Nat) UInt8}
  {ts : List (Transfer (Nat × Nat) UInt8)} {lba : UInt32} {count : UInt8} {buffer : Nat}
  {write ok : Bool}

theorem Stopped.not_busy (h : Stopped p pages disk hba) : ¬ hba.Busy p := by
  intro hb
  have := h.halted
  rw [hb.2.2] at this
  cases this

theorem Stopped.of_ports (h : Stopped p pages disk hba) (hsame : SameCommand p pages hba hba')
    (hissued : hba'.Issued p) (hhalted : (hba'.ports p).halted = (hba.ports p).halted)
    (hsectors : (hba'.ports p).sectors = (hba.ports p).sectors) : Stopped p pages disk hba' := by
  refine ⟨hsame.uses h.uses, hsame.setup.starts.mpr h.started, hissued, hhalted.trans h.halted, ?_⟩
  rw [← h.disk]
  unfold Hba.disk
  rw [hsectors]

theorem Stopped.moves (h : Stopped p pages disk hba) (hm : Moves p hba hba') :
    Stopped p pages disk hba' := by
  have hr := hm.rests h.not_busy
  refine h.of_ports (hr.sameCommand h.uses) ?_ hr.halted hr.sectors
  rw [Hba.Issued, hr.ci]
  exact h.issued

theorem Stopped.meanwhiles (h : Stopped p pages disk hba)
    (hm : Relation.ReflTransGen (Meanwhile p pages) hba hba') : Stopped p pages disk hba' := by
  induction hm with
  | refl => exact h
  | tail _ hlast ih =>
    rcases hlast with hm | ⟨hport, hmem⟩
    · exact ih.moves hm
    · refine ih.of_ports (sameCommand_of_memory (by rw [hport]) hmem) ?_ (by rw [hport])
        (by rw [hport])
      rw [Hba.Issued, hport]
      exact ih.issued

/-- A write to a register that leaves the issued command. -/
theorem Stopped.writePort {g : AhciPort → AhciPort} (h : Stopped p pages disk hba)
    (hsetup : SameSetup (hba.ports p).regs (g (hba.ports p)).regs)
    (hci : (g (hba.ports p)).regs.ci &&& 1 ≠ 0)
    (hhalted : (g (hba.ports p)).halted = (hba.ports p).halted)
    (hsectors : (g (hba.ports p)).sectors = (hba.ports p).sectors) :
    Stopped p pages disk (hba.setPort p g) := by
  refine h.of_ports ⟨?_, fun a _ => rfl⟩ ?_ ?_ ?_
  · rw [Hba.setPort_ports]
    exact hsetup
  · rw [Hba.Issued, Hba.setPort_ports]
    exact hci
  · rw [Hba.setPort_ports]
    exact hhalted
  · rw [Hba.setPort_ports]
    exact hsectors

/-- The driver cannot get a transfer through. -/
theorem ahciIssueIo_stopped (hconf : env.Conforms p) (hs : Serves p pages s)
    (h : Stopped p pages disk s.hba) :
    Watches (ahciIssueIo env lba count buffer write) s fun ok hba =>
      (ok = true → count = 0) ∧ Stopped p pages disk hba := by
  have hJ : ∀ hba hba', Stopped p pages disk hba → Moves p hba hba' → Stopped p pages disk hba' :=
    fun _ _ hd hm => hd.moves hm
  have hfail : ∀ hba, Stopped p pages disk hba →
      (false = true → count = 0) ∧ Stopped p pages disk hba :=
    fun hba hd => ⟨fun h => Bool.noConfusion h, hd⟩
  unfold ahciIssueIo
  refine Watches.get ?_
  simp only [hs.port, hs.pages.list, hs.pages.table]
  refine Watches.ite (fun hzero => Watches.pure ⟨fun _ => hzero, h⟩) fun hcount => ?_
  refine Watches.ite (fun _ => Watches.pure (hfail _ h)) fun _ => ?_
  refine Watches.ite (fun _ => Watches.pure (hfail _ h)) fun hbuffer => ?_
  refine Watches.bind (ahciWaitPortReady_watches hconf (fun hba hba' hd hm =>
    ⟨hd.moves hm, fun hb => absurd hb (hd.moves hm).not_busy⟩) _ h) fun b hba n hw => ?_
  obtain ⟨hd, -⟩ := hw
  refine Watches.ite (fun _ => Watches.pure (hfail _ hd)) fun _ => ?_
  have hlt : buffer < 2 ^ 32 := by
    rw [ne_eq, not_not, Nat.shiftRight_eq_div_pow] at hbuffer
    omega
  obtain ⟨hba₁, hhba₁⟩ : ∃ hba₁ : Hba, hba₁ = { hba with
    memory := commandMemory hba.memory pages.list pages.table lba count buffer write } := ⟨_, rfl⟩
  have h₁ : Stopped p pages disk hba₁ := by
    have hports : hba₁.ports = hba.ports := by rw [hhba₁]
    have huses := (finds_commandMemory hd.uses hcount hlt hports (by rw [hhba₁])).1
    obtain ⟨-, hst, hci, hhalted, hdisk⟩ := hd
    unfold Hba.Started at hst
    unfold Hba.Issued at hci
    unfold Hba.disk at hdisk
    rw [← hports] at hst hci hhalted hdisk
    exact ⟨huses, hst, hci, hhalted, hdisk⟩
  refine Watches.of_run (storeCommand_run _ _ _) ?_
  rw [← hhba₁]
  refine Watches.writes (Watches.writes ?_)
  have h₂ := (h₁.moves (hconf n hba₁)).writePort
    (g := fun port => { port with regs := port.regs.writeIs 0xFFFFFFFF })
    ⟨rfl, rfl, rfl, rfl, rfl⟩ (h₁.moves (hconf n hba₁)).issued rfl rfl
  have h₃ := h₂.moves (hconf (n + 1) _)
  have hissue : ∀ r : HbaPort, r.cmd &&& hbaPxcmdSt ≠ 0 →
      SameSetup r (r.writeCi 1) ∧ (r.writeCi 1).ci &&& 1 ≠ 0 := by
    intro r hst
    rw [HbaPort.writeCi, if_neg hst]
    refine ⟨⟨rfl, rfl, rfl, rfl, rfl⟩, ?_⟩
    rw [or_and_self]
    decide
  obtain ⟨hsetup, hci⟩ := hissue _ h₃.started
  have h₄ := h₃.writePort (g := (·.writeCi 1)) hsetup hci rfl rfl
  refine Watches.bind (ahciWaitIssued_watches hconf hJ _ h₄) fun b hba n hd => ?_
  refine Watches.ite (fun _ => ?_) fun _ => Watches.pure (hfail _ hd)
  refine (ahciFinish_watches hconf hJ hd).mono fun ok hba' hw => ?_
  obtain ⟨hd', hok⟩ := hw
  refine ⟨fun h => ?_, hd'⟩
  exact absurd hd'.issued (hok h)

theorem AhciCall.stopped (hconf : env.Conforms p) (hs : Serves p pages s)
    (h : Stopped p pages disk s.hba) (hcall : AhciCall env p pages s t s') :
    Serves p pages s' ∧ Stopped p pages disk s'.hba ∧ (t.ok = true → ∀ k, ¬ t.cells k) := by
  have hnone : ∀ {lba : UInt32} {count : UInt8} {buffer : Nat} {write : Bool}, count = 0 →
      ∀ k, ¬ (request lba count buffer write).cells k := by
    rintro lba count buffer write rfl k ⟨hle, hlt, -⟩
    exact absurd (hle.trans_lt hlt) (Nat.lt_irrefl _)
  cases hcall with
  | read lba count out hba ok _ hmeanwhile hspare hcall =>
    obtain ⟨⟨hok, hd⟩, n, hs'⟩ := (ahciIssueIo_stopped (s := { s with hba := hba }) hconf
      ⟨hs.port, hs.pages.list, hs.pages.fis, hs.pages.table⟩ (h.meanwhiles hmeanwhile)).of_ok hcall
    exact ⟨hs.of_watches hs', hd, fun h => hnone (hok h)⟩
  | write lba count data hba ok _ hmeanwhile hspare hcall =>
    obtain ⟨⟨hok, hd⟩, n, hs'⟩ := (ahciIssueIo_stopped (s := { s with hba := hba }) hconf
      ⟨hs.port, hs.pages.list, hs.pages.fis, hs.pages.table⟩ (h.meanwhiles hmeanwhile)).of_ok hcall
    exact ⟨hs.of_watches hs', hd, fun h => hnone (hok h)⟩

end

/-- Once a port has stopped at an error, no transfer of any sector gets through any more, and the
disk does not change: the driver does not start the port again. -/
theorem stopped_of_ahci {env : AhciEnv} {device : AhciDeviceAddress} {s₀ s₁ s s' : AhciState}
    {pages : AhciPages} {before ts : List (Transfer (Nat × Nat) UInt8)}
    (hconf : env.Conforms device.port.toNat) (hfresh : env.FreshPages) (hbare : Bare s₀)
    (hinit : ahciInit env device s₀ = .ok true s₁) (hpages : HasPages pages s₁)
    (hbefore : Runs (AhciCall env device.port.toNat pages) s₁ before s)
    (hissued : s.hba.Issued device.port.toNat)
    (hhalted : (s.hba.ports device.port.toNat).halted = true)
    (hrun : Runs (AhciCall env device.port.toNat pages) s ts s') :
    (∀ t ∈ ts, t.ok = true → ∀ k, ¬ t.cells k) ∧
      s'.hba.disk device.port.toNat = s.hba.disk device.port.toNat := by
  obtain ⟨hserves, h₁⟩ := served_of_init hconf hfresh hbare hinit hpages
  obtain ⟨hserves, known, -, ht⟩ := AhciCall.run hconf hbefore hserves h₁
  have h : Stopped device.port.toNat pages (s.hba.disk device.port.toNat) s.hba :=
    ⟨ht.uses, ht.started, hissued, hhalted, rfl⟩
  clear hissued hhalted ht hbefore
  generalize s.hba.disk device.port.toNat = disk at h ⊢
  induction hrun with
  | nil s => exact ⟨fun t ht => absurd ht List.not_mem_nil, h.disk⟩
  | cons first _ ih =>
    obtain ⟨hs₁, hd₁, hfirst⟩ := first.stopped hconf hserves h
    obtain ⟨hrest, hdisk⟩ := ih hs₁ hd₁
    refine ⟨fun t ht => ?_, hdisk⟩
    rcases List.mem_cons.mp ht with rfl | ht
    · exact hfirst
    · exact hrest t ht

/-! ## A controller that does a command at once -/

/-- The command that a port reads from memory, if it is a proper one. -/
def Hba.command (hba : Hba) (p : Nat) : HbaCommand where
  write := hba.memory (hba.table p + 2) = 0x35
  lba := field hba.memory (hba.table p + 4) 3 + field hba.memory (hba.table p + 8) 3 * 2 ^ 24
  count :=
    if field hba.memory (hba.table p + 12) 2 = 0 then 65536
    else field hba.memory (hba.table p + 12) 2
  buffer := wide (field hba.memory (hba.table p + 128) 4) (field hba.memory (hba.table p + 132) 4)

theorem Hba.Finds.eq_command {hba : Hba} {p : Nat} {c : HbaCommand} (h : hba.Finds p c) :
    c = hba.command p := by
  obtain ⟨⟨-, -, -, -, -, hcmd, -⟩, hlba, hcount, hbuffer, -⟩ := h
  obtain ⟨write, lba, count, buffer⟩ := c
  simp only at hcmd hlba hcount hbuffer
  rw [command, hlba, hcount, hbuffer]
  cases write with
  | false => simp [hcmd]
  | true => simp [hcmd]

instance (hba : Hba) (p : Nat) : Decidable (hba.Busy p) :=
  inferInstanceAs (Decidable ((hba.ports p).regs.ci &&& 1 ≠ 0 ∧
    (hba.ports p).regs.cmd &&& hbaPxcmdSt ≠ 0 ∧ (hba.ports p).halted = false))

/-- The port and the disk when the command is done. -/
def AhciPort.carryOut (port : AhciPort) (memory : Nat → UInt8) (c : HbaCommand) : AhciPort where
  regs := { port.regs with ci := port.regs.ci &&& ~~~1 }
  halted := false
  disturbed := port.disturbed
  sectors := fun l o =>
    if c.write ∧ c.lba ≤ l ∧ l < c.lba + c.count ∧ o < 512 then memory (c.byteAt l o)
    else port.sectors l o

/-- The command is carried out. -/
def Hba.carryOut (hba : Hba) (p : Nat) (c : HbaCommand) : Hba :=
  (if c.write then hba else hba.store c.buffer (c.count * 512) fun i =>
    (hba.ports p).sectors (c.lba + i / 512) (i % 512)).setPort p (·.carryOut hba.memory c)

/-- Such a controller behind port 0. -/
def promptEnv : AhciEnv where
  moves := fun _ hba => if hba.Busy 0 then hba.carryOut 0 (hba.command 0) else hba
  allocPages := fun n => if n < 3 then some (0x10000 + n * 0x1000) else none
  pagingMapRange := fun _ => true

theorem promptEnv_conforms : promptEnv.Conforms 0 := by
  intro n hba
  constructor
  · intro hidle
    simp only [promptEnv, if_neg hidle]
    exact ⟨fun a h => absurd rfl h, ⟨rfl, rfl, rfl, rfl, rfl⟩, rfl, rfl, rfl, rfl⟩
  · intro hbusy c hfinds
    simp only [promptEnv, if_pos hbusy]
    rw [← hfinds.eq_command]
    generalize hnew : hba.carryOut 0 c = hba'
    have hport : hba'.ports 0 = (hba.ports 0).carryOut hba.memory c := by
      rw [← hnew, Hba.carryOut, Hba.setPort_ports]
      split <;> rfl
    have hfree : ¬ hba'.Issued 0 := by
      rw [Hba.Issued, hport, not_not]
      apply UInt32.toBitVec_inj.mp
      ext i hi
      interval_cases i <;> simp [AhciPort.carryOut]
    have hsetup : SameSetup (hba.ports 0).regs (hba'.ports 0).regs := by
      rw [hport]
      exact ⟨rfl, rfl, rfl, rfl, rfl⟩
    have hsectors : ∀ l o, (hba'.ports 0).sectors l o =
        if c.write ∧ c.lba ≤ l ∧ l < c.lba + c.count ∧ o < 512 then hba.memory (c.byteAt l o)
        else (hba.ports 0).sectors l o := fun l o => by rw [hport, AhciPort.carryOut]
    have hhalted : (hba'.ports 0).halted = false := by rw [hport, AhciPort.carryOut]
    have hdisturbed : (hba'.ports 0).disturbed = (hba.ports 0).disturbed := by
      rw [hport, AhciPort.carryOut]
    refine ⟨⟨fun a hne => .inr ?_, hsetup, hdisturbed, fun l o hne => ?_⟩,
      .inr (.inl ⟨hfree, hhalted, fun _ => ?_⟩)⟩
    · cases hw : c.write with
      | false =>
        refine ⟨rfl, ?_⟩
        by_contra hout
        refine hne ?_
        rw [← hnew, Hba.carryOut, hw, Hba.setPort_memory, if_neg Bool.false_ne_true]
        exact if_neg hout
      | true =>
        refine absurd ?_ hne
        rw [← hnew, Hba.carryOut, hw, Hba.setPort_memory]
        rfl
    · by_contra hout
      exact hne ((hsectors l o).trans (if_neg hout))
    · intro l o hlo
      rw [hsectors]
      cases hw : c.write with
      | false =>
        have hin := HbaCommand.byteAt_inBuffer hlo
        have hmem : hba'.memory = overlay hba.memory c.buffer (c.count * 512) fun i =>
            (hba.ports 0).sectors (c.lba + i / 512) (i % 512) := by
          rw [← hnew, Hba.carryOut, hw, Hba.setPort_memory]
          rfl
        rw [if_neg (by simp), hmem, overlay_inside hin, HbaCommand.byteAt, Nat.add_sub_cancel_left]
        obtain ⟨hle, -, ho⟩ := hlo
        congr 1 <;> omega
      | true =>
        have hmem : hba'.memory = hba.memory := by
          rw [← hnew, Hba.carryOut, hw, Hba.setPort_memory]
          rfl
        rw [if_pos ⟨rfl, hlo⟩, hmem]

theorem promptEnv_freshPages : promptEnv.FreshPages := by
  constructor
  · intro n a h
    simp only [promptEnv, Option.ite_none_right_eq_some, Option.some.injEq] at h
    omega
  · intro n m a b ha hb hne
    simp only [promptEnv, Option.ite_none_right_eq_some, Option.some.injEq] at ha hb
    omega

/-- A machine with such a controller on the PCI bus. -/
def bareMachine : AhciState where
  hba :=
    { memory := fun _ => 0
      ghc := 0
      pi := 1
      ports := fun _ =>
        { regs := ⟨0, 0, 0, 0, 0, 0, 0, 0, sataSigAta, 0x103, 0, 0, 0⟩
          halted := false
          disturbed := false
          sectors := fun l _ => .ofNat l } }
  accesses := 0
  allocations := 0
  pci :=
    { available := true
      latch := 0
      config := fun _ o => ([(0x0, 0x86), (0x1, 0x80), (0x9, 0x1), (0xA, 0x6), (0xB, 0x1),
        (0x25, 0x10), (0x26, 0xBF), (0x27, 0xFE)].lookup o).getD 0
      stored := fun config _ _ _ => config }
  gPort := none
  commandList := none
  receivedFis := none
  commandTable := none

/-- The machine behind `ahci_init`. -/
def servedMachine : AhciState :=
  (ahciInit promptEnv ⟨⟨0, 1, 0⟩, 0⟩ bareMachine).finalState bareMachine

theorem servedMachine_init :
    ahciInit promptEnv ⟨⟨0, 1, 0⟩, 0⟩ bareMachine = .ok true servedMachine :=
  Prog.eq_ok_of_result (by decide +kernel)

/-- The pages that `ahci_init` has got there. -/
def promptPages : AhciPages :=
  ⟨0x10000, 0x11000, 0x12000, by decide, by decide, by decide, by decide, by decide, by decide⟩

theorem servedMachine_pages : HasPages promptPages servedMachine := by
  constructor <;> decide +kernel

/-- A buffer above the pages. -/
theorem promptPages_spare {lba : UInt32} {count : UInt8} {buffer : Nat} {write : Bool}
    (h : 0x13000 ≤ buffer) : promptPages.Spare (request lba count buffer write) := by
  intro a ha hin
  have hle : buffer ≤ a := ha.1
  simp only [AhciPages.Has, promptPages] at hin
  omega

/-- A call behind which nothing else happens. -/
theorem AhciCall.writeNow {env : AhciEnv} {p : Nat} {pages : AhciPages} {s s' : AhciState}
    {lba : UInt32} {count : UInt8} {data : Nat} {ok : Bool}
    (hspare : pages.Spare (request lba count data true))
    (hcall : ahciWriteSectors env lba count data s = .ok ok s') :
    AhciCall env p pages s ⟨true, (request lba count data true).cells,
      (request lba count data true).data s'.hba.memory, ok⟩ s' :=
  .write lba count data s.hba ok s' .refl hspare hcall

/-- A sector is written. -/
theorem store_of_ahci_write : ∃ s' t known,
    Runs (AhciCall promptEnv 0 promptPages) servedMachine [t] s' ∧
    Runs StoreStep (Known.all (servedMachine.hba.disk 0)) [t] known ∧
    known.Of (s'.hba.disk 0) := by
  have hcall := Prog.eq_ok_of_result (d := servedMachine)
    (show (ahciWriteSectors promptEnv 3 1 0x20000 servedMachine).result = some (.ok true) by
      decide +kernel)
  have hspare : promptPages.Spare (request 3 1 0x20000 true) := promptPages_spare (by omega)
  have hfirst : AhciCall promptEnv 0 promptPages servedMachine _ _ := .writeNow hspare hcall
  have hrun := Runs.cons hfirst (.nil _)
  obtain ⟨known, hruns, hknown⟩ := store_of_ahci promptEnv_conforms promptEnv_freshPages
    ⟨rfl, rfl, rfl⟩ servedMachine_init servedMachine_pages hrun
  exact ⟨_, _, known, hrun, hruns, hknown⟩

/-! ## A controller that stops at every command -/

/-- The port stops where it is busy, and reports an error in any case. -/
def brokenEnv : AhciEnv where
  moves := fun _ hba => hba.setPort 0 fun port =>
    { port with
      regs := { port.regs with is := hbaPxisTfes }
      halted := port.halted || decide (hba.Busy 0) }
  allocPages := promptEnv.allocPages
  pagingMapRange := fun _ => true

theorem brokenEnv_conforms : brokenEnv.Conforms 0 := by
  intro n hba
  generalize hnew : brokenEnv.moves n hba = hba'
  have hport : hba'.ports 0 = { hba.ports 0 with
      regs := { (hba.ports 0).regs with is := hbaPxisTfes }
      halted := (hba.ports 0).halted || decide (hba.Busy 0) } := by
    rw [← hnew, brokenEnv, Hba.setPort_ports]
  have hmem : hba'.memory = hba.memory := by
    rw [← hnew]
    rfl
  have hsetup : SameSetup (hba.ports 0).regs (hba'.ports 0).regs := by
    rw [hport]
    exact ⟨rfl, rfl, rfl, rfl, rfl⟩
  have hsectors : (hba'.ports 0).sectors = (hba.ports 0).sectors := by rw [hport]
  have hci : (hba'.ports 0).regs.ci = (hba.ports 0).regs.ci := by rw [hport]
  have hdisturbed : (hba'.ports 0).disturbed = (hba.ports 0).disturbed := by rw [hport]
  refine ⟨fun hidle => ⟨fun a hne => ?_, hsetup, hci, ?_, hdisturbed, hsectors⟩, fun hbusy c _ =>
    ⟨⟨fun a hne => ?_, hsetup, hdisturbed, fun l o hne => ?_⟩, .inr (.inr ⟨hci, ?_⟩)⟩⟩
  · exact absurd (by rw [hmem]) hne
  · simp [hport, hidle]
  · exact absurd (by rw [hmem]) hne
  · exact absurd (by rw [hsectors]) hne
  · simp [hport, hbusy]

/-- The machine behind `ahci_init`, and then behind a write. -/
def brokenMachine : AhciState :=
  (ahciInit brokenEnv ⟨⟨0, 1, 0⟩, 0⟩ bareMachine).finalState bareMachine

@[inherit_doc brokenMachine]
def stoppedMachine : AhciState :=
  (ahciWriteSectors brokenEnv 3 1 0x20000 brokenMachine).finalState brokenMachine

/-- The next write fails as well. -/
theorem stopped_of_ahci_write : ∃ s' t, AhciCall brokenEnv 0 promptPages stoppedMachine t s' ∧
    (t.ok = true → ∀ k, ¬ t.cells k) ∧ s'.hba.disk 0 = stoppedMachine.hba.disk 0 := by
  have hinit : ahciInit brokenEnv ⟨⟨0, 1, 0⟩, 0⟩ bareMachine = .ok true brokenMachine :=
    Prog.eq_ok_of_result (by decide +kernel)
  have hpages : HasPages promptPages brokenMachine := by constructor <;> decide +kernel
  have hspare : promptPages.Spare (request 3 1 0x20000 true) := promptPages_spare (by omega)
  have hfail : ahciWriteSectors brokenEnv 3 1 0x20000 brokenMachine = .ok false stoppedMachine :=
    Prog.eq_ok_of_result (by decide +kernel)
  have hfail' := Prog.eq_ok_of_result (d := stoppedMachine)
    (show (ahciWriteSectors brokenEnv 3 1 0x20000 stoppedMachine).result = some (.ok false) by
      decide +kernel)
  have hfirst : AhciCall brokenEnv 0 promptPages brokenMachine _ _ := .writeNow hspare hfail
  have hnext : AhciCall brokenEnv 0 promptPages stoppedMachine _ _ := .writeNow hspare hfail'
  have hissued : stoppedMachine.hba.Issued 0 := by
    unfold Hba.Issued
    decide +kernel
  have hfresh : brokenEnv.FreshPages := ⟨promptEnv_freshPages.below, promptEnv_freshPages.apart⟩
  obtain ⟨hnone, hdisk⟩ := stopped_of_ahci brokenEnv_conforms hfresh ⟨rfl, rfl, rfl⟩ hinit hpages
    (.cons hfirst (.nil _)) hissued (by decide +kernel) (.cons hnext (.nil _))
  exact ⟨_, _, hnext, hnone _ List.mem_cons_self, hdisk⟩

end FunnyOS.Devices
