import FunnyOS.Devices.AhciCommand
import FunnyOS.Lib.KnownStore

/-!
# Transfers through AHCI

Whatever the controller does between the accesses of the driver, a transfer that succeeds has moved
the right bytes, and one that fails has damaged no other sectors than those that it names: the disk
is a store whose writes may fail. A command that the driver has given up on may still be going on in
the next call; the driver then waits for it before it touches the command table.
-/

namespace FunnyOS.Devices

open Prog

/-- The bytes of the disk behind a port. -/
def Hba.disk (hba : Hba) (p : Nat) : Nat × Nat → UInt8 := fun k => (hba.ports p).sectors k.1 k.2

/-- The bytes of the disk that a command covers. -/
def HbaCommand.cells (c : HbaCommand) : Nat × Nat → Prop := fun k => c.Covers k.1 k.2

/-- The bytes in its buffer for them. -/
def HbaCommand.data (c : HbaCommand) (memory : Nat → UInt8) : Nat × Nat → UInt8 :=
  fun k => memory (c.byteAt k.1 k.2)

/-- A port that is set up, and what is known of its disk. A port that is busy is so with a transfer
outside the pages, and if that writes, nothing is known of its sectors. -/
structure Tracked (p : Nat) (pages : AhciPages) (known : Known (Nat × Nat) UInt8) (hba : Hba) :
    Prop where
  uses : hba.Uses p pages
  started : hba.Started p
  holds : known.Of (hba.disk p)
  busy : hba.Busy p → ∃ c, hba.Finds p c ∧ pages.Spare c ∧
    (c.write = true → ∀ k, c.cells k → known k = none)

/-- What has become of a command that was issued: it is going on, or done, or the port has stopped
at an error. -/
def Progress (p : Nat) (c : HbaCommand) (hba : Hba) : Prop :=
  (hba.Busy p ∧ hba.Finds p c ∧ (hba.ports p).disturbed = false) ∨
    (¬ hba.Issued p ∧ Done p c hba) ∨ (hba.Issued p ∧ (hba.ports p).halted = true)

/-- A port that is busy says so. -/
def SaysBusy (p : Nat) (hba : Hba) : Prop :=
  hba.Busy p → (hba.ports p).regs.tfd &&& hbaPxtfdBusy ≠ 0

/-! ## Moves of the controller -/

section

variable {p : Nat} {pages : AhciPages} {known : Known (Nat × Nat) UInt8} {hba hba' : Hba}
  {c : HbaCommand}

theorem Hba.Own.has {a : Nat} (hu : hba.Uses p pages) (h : hba.Own p a) : pages.Has a := by
  rw [Hba.Own, hu.received, hu.list] at h
  rcases h with h | h
  · exact .inr (.inl ⟨h.1, by omega⟩)
  · exact .inl ⟨by omega, by omega⟩

theorem Hba.Own.not_command {a : Nat} (hu : hba.Uses p pages) (h : hba.Own p a) :
    ¬ pages.Says a := by
  rw [Hba.Own, hu.received, hu.list] at h
  have := pages.list_fis
  have := pages.list_table
  have := pages.fis_table
  simp only [AhciPages.Says]
  omega

theorem Rests.sameCommand (hu : hba.Uses p pages) (h : Rests p hba hba') :
    SameCommand p pages hba hba' := by
  refine ⟨h.setup, fun a ha => ?_⟩
  by_contra hne
  exact (h.memory a hne).not_command hu ha

theorem Works.sameCommand (hu : hba.Uses p pages) (hs : pages.Spare c) (h : Works p c hba hba') :
    SameCommand p pages hba hba' := by
  refine ⟨h.setup, fun a ha => ?_⟩
  by_contra hne
  rcases h.memory a hne with hown | ⟨-, hin⟩
  · exact hown.not_command hu ha
  · exact hs a hin ha.has

theorem Rests.busy (h : Rests p hba hba') : hba'.Busy p ↔ hba.Busy p := by
  rw [Hba.Busy, Hba.Busy, Hba.Issued, Hba.Issued, h.ci, h.setup.starts, h.halted]

/-- The buffer is none of the controller's own. -/
theorem Rests.buffer {a : Nat} (hu : hba.Uses p pages) (hs : pages.Spare c)
    (h : Rests p hba hba') (ha : c.InBuffer a) : hba'.memory a = hba.memory a := by
  by_contra hne
  exact hs a ha ((h.memory a hne).has hu)

theorem HbaCommand.byteAt_inBuffer {l o : Nat} (h : c.Covers l o) : c.InBuffer (c.byteAt l o) := by
  obtain ⟨hle, hlt, ho⟩ := h
  have : (l - c.lba + 1) * 512 ≤ c.count * 512 := Nat.mul_le_mul_right _ (by omega)
  exact ⟨Nat.le_add_right _ _, by rw [byteAt]; omega⟩

/-- A controller that rests leaves what is done. -/
theorem Rests.done (hu : hba.Uses p pages) (hs : pages.Spare c) (h : Rests p hba hba')
    (hd : Done p c hba) : Done p c hba' := by
  intro l o hlo
  rw [h.sectors, hd l o hlo, h.buffer hu hs (HbaCommand.byteAt_inBuffer hlo)]

/-- The controller keeps what is known, and says when it is busy. -/
theorem Tracked.moves (h : Tracked p pages known hba) (hm : Moves p hba hba') :
    Tracked p pages known hba' ∧ SaysBusy p hba' := by
  by_cases hbusy : hba.Busy p
  · obtain ⟨c, hfinds, hspare, hforgot⟩ := h.busy hbusy
    obtain ⟨hw, hends⟩ := hm.works hbusy c hfinds
    have hsame := hw.sameCommand h.uses hspare
    have hknown : known.Of (hba'.disk p) := by
      refine h.holds.congr fun k hk => ?_
      by_contra hne
      obtain ⟨hwrite, hcovers⟩ := hw.sectors k.1 k.2 hne
      exact hk (hforgot hwrite k hcovers)
    refine ⟨⟨hsame.uses h.uses, hw.setup.starts.mpr h.started, hknown, fun _ =>
      ⟨c, hsame.finds h.uses hfinds, hspare, hforgot⟩⟩, fun hbusy' => ?_⟩
    rcases hends with ⟨-, -, htfd⟩ | ⟨hfree, -⟩ | ⟨-, hhalted⟩
    · exact htfd
    · exact absurd hbusy'.1 hfree
    · rw [hbusy'.2.2] at hhalted
      cases hhalted
  · have hr := hm.rests hbusy
    have hsame := hr.sameCommand h.uses
    have hknown : known.Of (hba'.disk p) := by
      refine h.holds.congr fun k _ => ?_
      rw [Hba.disk, Hba.disk, hr.sectors]
    have hfree : ¬ hba'.Busy p := fun hb => hbusy (hr.busy.mp hb)
    exact ⟨⟨hsame.uses h.uses, hr.setup.starts.mpr h.started, hknown, fun hb => absurd hb hfree⟩,
      fun hb => absurd hb hfree⟩

/-- It goes on with a command, and leaves one that is over. -/
theorem Progress.moves (hu : hba.Uses p pages) (hs : pages.Spare c) (h : Progress p c hba)
    (hm : Moves p hba hba') : Progress p c hba' := by
  rcases h with ⟨hbusy, hfinds, hquiet⟩ | ⟨hfree, hdone⟩ | ⟨hissued, hhalted⟩
  · obtain ⟨hw, hends⟩ := hm.works hbusy c hfinds
    have hquiet' := hw.disturbed.trans hquiet
    have hfinds' := (hw.sameCommand hu hs).finds hu hfinds
    have hstarted := hw.setup.starts.mpr hbusy.2.1
    rcases hends with ⟨hci, hhalted, -⟩ | ⟨hfree, -, hdone⟩ | ⟨hci, hhalted⟩
    · refine .inl ⟨⟨?_, hstarted, hhalted⟩, hfinds', hquiet'⟩
      rw [Hba.Issued, hci]
      exact hbusy.1
    · exact .inr (.inl ⟨hfree, hdone hquiet'⟩)
    · refine .inr (.inr ⟨?_, hhalted⟩)
      rw [Hba.Issued, hci]
      exact hbusy.1
  · have hr := hm.rests fun hb => hfree hb.1
    refine .inr (.inl ⟨?_, hr.done hu hs hdone⟩)
    rw [Hba.Issued, hr.ci]
    exact hfree
  · have hr := hm.rests fun hb => by rw [hb.2.2] at hhalted; cases hhalted
    refine .inr (.inr ⟨?_, hr.halted.trans hhalted⟩)
    rw [Hba.Issued, hr.ci]
    exact hissued

/-- Less may be known. -/
theorem Tracked.forget (h : Tracked p pages known hba) (cells : Nat × Nat → Prop) :
    Tracked p pages (known.forget cells) hba := by
  refine ⟨h.uses, h.started, h.holds.forget fun _ _ => rfl, fun hb => ?_⟩
  obtain ⟨c, hfinds, hspare, hforgot⟩ := h.busy hb
  refine ⟨c, hfinds, hspare, fun hw k hk => ?_⟩
  by_cases hcells : cells k
  · exact Known.forget_of_mem hcells
  · rw [Known.forget_of_not_mem hcells]
    exact hforgot hw k hk

end

/-! ## Waiting -/

/-- The program returns, has only looked at registers, and `R` holds then. -/
def Watches (x : Ahci Bool) (s : AhciState) (R : Bool → Hba → Prop) : Prop :=
  ∃ b hba n, x s = .ok b { s with hba := hba, accesses := n } ∧ R b hba

section

variable {env : AhciEnv} {p : Nat} {J : Hba → Prop} {s : AhciState} {R R' : Bool → Hba → Prop}

theorem Watches.mono {x : Ahci Bool} (h : Watches x s R) (hR : ∀ b hba, R b hba → R' b hba) :
    Watches x s R' := by
  obtain ⟨b, hba, n, hrun, hr⟩ := h
  exact ⟨b, hba, n, hrun, hR b hba hr⟩

theorem Watches.pure {b : Bool} (h : R b s.hba) : Watches (Pure.pure b) s R :=
  ⟨b, s.hba, s.accesses, rfl, h⟩

/-- A look at a register, behind a move of the controller. -/
theorem Watches.read {register : HbaPort → UInt32} {f : UInt32 → Ahci Bool}
    (h : Watches (f (register ((env.moves s.accesses s.hba).ports p).regs))
      { s with hba := env.moves s.accesses s.hba, accesses := s.accesses + 1 } R) :
    Watches (readPort env p register >>= f) s R := h

theorem ahciWaitPortReady_watches (hconf : env.Conforms p)
    (hJ : ∀ hba hba', J hba → Moves p hba hba' → J hba' ∧ SaysBusy p hba') (spins : Nat)
    (h : J s.hba) : Watches (ahciWaitPortReady env p spins) s
      fun b hba => J hba ∧ (b = true → ¬ hba.Busy p) := by
  induction spins generalizing s with
  | zero => exact Watches.pure ⟨h, fun hb => by cases hb⟩
  | succ spins ih =>
    obtain ⟨h', hsays⟩ := hJ _ _ h (hconf s.accesses s.hba)
    refine Watches.read ?_
    split
    · next hfree => exact Watches.pure ⟨h', fun _ hb => hsays hb hfree⟩
    · exact ih h'

theorem ahciWaitIssued_watches (hconf : env.Conforms p)
    (hJ : ∀ hba hba', J hba → Moves p hba hba' → J hba') (spins : Nat) (h : J s.hba) :
    Watches (ahciWaitIssued env p spins) s fun _ hba => J hba := by
  induction spins generalizing s with
  | zero => exact Watches.pure h
  | succ spins ih =>
    have h₁ := hJ _ _ h (hconf s.accesses s.hba)
    refine Watches.read ?_
    split
    · exact Watches.pure h₁
    · have h₂ := hJ _ _ h₁ (hconf (s.accesses + 1) (env.moves s.accesses s.hba))
      refine Watches.read ?_
      split
      · exact Watches.pure h₂
      · exact ih h₂

theorem ahciFinish_watches (hconf : env.Conforms p)
    (hJ : ∀ hba hba', J hba → Moves p hba hba' → J hba') (h : J s.hba) :
    Watches (ahciFinish env p) s fun b hba => J hba ∧ (b = true → ¬ hba.Issued p) := by
  have h₁ := hJ _ _ h (hconf s.accesses s.hba)
  refine Watches.read ?_
  split
  · exact Watches.pure ⟨h₁, fun hb => by cases hb⟩
  · next hfree =>
    have hfree : ¬ (env.moves s.accesses s.hba).Issued p := hfree
    have hm := hconf (s.accesses + 1) (env.moves s.accesses s.hba)
    have hr := hm.rests fun hb => hfree hb.1
    refine Watches.read (Watches.pure ⟨hJ _ _ h₁ hm, fun _ hissued => hfree ?_⟩)
    rw [Hba.Issued, hr.ci] at hissued
    exact hissued

end

/-! ## Issuing a command -/

@[simp] theorem Hba.setPort_ports {hba : Hba} {p : Nat} {f : AhciPort → AhciPort} :
    (hba.setPort p f).ports p = f (hba.ports p) := Function.update_self ..

@[simp] theorem Hba.setPort_memory {hba : Hba} {p : Nat} {f : AhciPort → AhciPort} :
    (hba.setPort p f).memory = hba.memory := rfl

/-- A bit that has been set is set. -/
theorem or_and_self (x b : UInt32) : (x ||| b) &&& b = b := by
  apply UInt32.toBitVec_inj.mp
  ext i hi
  simpa using Or.inr

/-- A port that rests, with a command in memory. -/
structure Loaded (p : Nat) (pages : AhciPages) (known : Known (Nat × Nat) UInt8) (c : HbaCommand)
    (hba : Hba) : Prop where
  tracked : Tracked p pages known hba
  idle : ¬ hba.Busy p
  finds : hba.Finds p c

section

variable {p : Nat} {pages : AhciPages} {known : Known (Nat × Nat) UInt8} {hba hba' : Hba}
  {c : HbaCommand}

theorem Loaded.moves (h : Loaded p pages known c hba) (hm : Moves p hba hba') :
    Loaded p pages known c hba' := by
  have hr := hm.rests h.idle
  refine ⟨(h.tracked.moves hm).1, fun hb => h.idle (hr.busy.mp hb), ?_⟩
  exact (hr.sameCommand h.tracked.uses).finds h.tracked.uses h.finds

/-- A write to `is` changes nothing else. -/
theorem Loaded.writeIs (h : Loaded p pages known c hba) (value : UInt32) :
    Loaded p pages known c
      (hba.setPort p fun port => { port with regs := port.regs.writeIs value }) := by
  have hsame : SameCommand p pages hba
      (hba.setPort p fun port => { port with regs := port.regs.writeIs value }) := by
    refine ⟨?_, fun a _ => rfl⟩
    rw [Hba.setPort_ports]
    exact ⟨rfl, rfl, rfl, rfl, rfl⟩
  have hbusy : (hba.setPort p fun port => { port with regs := port.regs.writeIs value }).Busy p ↔
      hba.Busy p := by
    simp only [Hba.Busy, Hba.Issued, Hba.Started, Hba.setPort_ports, HbaPort.writeIs]
  refine ⟨⟨hsame.uses h.tracked.uses, hsame.setup.starts.mpr h.tracked.started, ?_, fun hb =>
    absurd (hbusy.mp hb) h.idle⟩, fun hb => h.idle (hbusy.mp hb),
    hsame.finds h.tracked.uses h.finds⟩
  refine h.tracked.holds.congr fun k _ => ?_
  rw [Hba.disk, Hba.disk, Hba.setPort_ports]

/-- What is known while a transfer is going on. -/
noncomputable def Known.during (known : Known (Nat × Nat) UInt8) (c : HbaCommand) :
    Known (Nat × Nat) UInt8 := if c.write then known.forget c.cells else known

theorem Tracked.during (h : Tracked p pages known hba) :
    Tracked p pages (Known.during known c) hba := by
  unfold Known.during
  split
  · exact h.forget c.cells
  · exact h

/-- A write to `ci` issues the command. -/
theorem Loaded.issue (h : Loaded p pages known c hba) (hs : pages.Spare c) :
    Tracked p pages (Known.during known c)
      (hba.setPort p (·.writeCi 1)) ∧ Progress p c (hba.setPort p (·.writeCi 1)) := by
  generalize hnew : (hba.setPort p (·.writeCi 1)) = hba'
  have hport : hba'.ports p = { hba.ports p with
      regs := { (hba.ports p).regs with ci := (hba.ports p).regs.ci ||| 1 }
      disturbed := false } := by
    rw [← hnew, Hba.setPort_ports, AhciPort.writeCi, HbaPort.writeCi, if_neg h.tracked.started]
  have hsame : SameCommand p pages hba hba' := by
    refine ⟨?_, fun a _ => by rw [← hnew]; rfl⟩
    rw [hport]
    exact ⟨rfl, rfl, rfl, rfl, rfl⟩
  have hstarted := hsame.setup.starts.mpr h.tracked.started
  have hfinds := hsame.finds h.tracked.uses h.finds
  have hissued : hba'.Issued p := by
    rw [Hba.Issued, hport, or_and_self]
    decide
  have hdisk : hba'.disk p = hba.disk p := by
    unfold Hba.disk
    rw [hport]
  refine ⟨⟨hsame.uses h.tracked.uses, hstarted, ?_, fun _ => ⟨c, hfinds, hs, ?_⟩⟩, ?_⟩
  · rw [hdisk]
    exact h.tracked.during.holds
  · intro hw k hk
    rw [Known.during, if_pos hw]
    exact Known.forget_of_mem hk
  · cases hhalted : (hba'.ports p).halted with
    | false => exact .inl ⟨⟨hissued, hstarted, hhalted⟩, hfinds, by rw [hport]⟩
    | true => exact .inr (.inr ⟨hissued, hhalted⟩)

/-- The driver writes the command where nothing is going on. -/
theorem Tracked.load {lba : UInt32} {count : UInt8} {buffer : Nat} {write : Bool}
    (h : Tracked p pages known hba) (hidle : ¬ hba.Busy p) (hcount : count ≠ 0)
    (hbuffer : buffer < 2 ^ 32) (hports : hba'.ports = hba.ports) (hmem : hba'.memory
      = commandMemory hba.memory pages.list pages.table lba count buffer write) :
    Loaded p pages known (request lba count buffer write) hba' := by
  obtain ⟨huses, hfinds⟩ := finds_commandMemory h.uses hcount hbuffer hports hmem
  have hbusy : ¬ hba'.Busy p := by
    rw [Hba.Busy, Hba.Issued, Hba.Started, hports]
    exact hidle
  refine ⟨⟨huses, ?_, ?_, fun hb => absurd hb hbusy⟩, hbusy, hfinds⟩
  · rw [Hba.Started, hports]
    exact h.started
  · unfold Hba.disk
    rw [hports]
    exact h.holds

/-- A transfer that has failed. -/
theorem Tracked.fail (h : Tracked p pages (Known.during known c) hba)
    (data : Nat × Nat → UInt8) : ∃ known',
    StoreStep known ⟨c.write, c.cells, data, false⟩ known' ∧ Tracked p pages known' hba := by
  refine ⟨_, ?_, h⟩
  unfold Known.during
  cases c.write with
  | false => exact .unread _ _
  | true => exact .damaged _ _

/-- A transfer that is done. -/
theorem Tracked.succeed (h : Tracked p pages (Known.during known c) hba) (hidle : ¬ hba.Busy p)
    (hdone : Done p c hba) : ∃ known',
    StoreStep known ⟨c.write, c.cells, c.data hba.memory, true⟩ known' ∧
      Tracked p pages known' hba := by
  have hsame : ∀ k, c.cells k → hba.disk p k = c.data hba.memory k := fun k hk => hdone k.1 k.2 hk
  cases hw : c.write with
  | false =>
    rw [Known.during, hw] at h
    refine ⟨known, .read _ _ fun k b hk hb => ?_, h⟩
    rw [← hsame k hk]
    exact h.holds k b hb
  | true =>
    rw [Known.during, hw] at h
    exact ⟨_, .written _ _, h.uses, h.started, h.holds.put hsame, fun hb => absurd hb hidle⟩

end

section

variable {env : AhciEnv} {p : Nat} {pages : AhciPages} {known : Known (Nat × Nat) UInt8}
  {s : AhciState} {lba : UInt32} {count : UInt8} {buffer : Nat} {write : Bool}
  {R : Bool → Hba → Prop}

theorem Watches.writes {g : AhciPort → AhciPort} {x : Ahci Bool}
    (h : Watches x { s with
      hba := (env.moves s.accesses s.hba).setPort p g, accesses := s.accesses + 1 } R) :
    Watches (writePort env p g >>= fun _ => x) s R := h

theorem Watches.get {f : AhciState → Ahci Bool} (h : Watches (f s) s R) :
    Watches (Prog.get >>= f) s R := h

/-- Behind a program that has changed the memory. -/
theorem Watches.of_run {x : Ahci Unit} {y : Ahci Bool} {hba : Hba} {n : Nat}
    (hx : x s = .ok () { s with hba := hba, accesses := n })
    (h : Watches y { s with hba := hba, accesses := n } R) : Watches (x >>= fun _ => y) s R := by
  obtain ⟨b, hba', n', hrun, hr⟩ := h
  exact ⟨b, hba', n', (bind_of_ok hx).trans hrun, hr⟩

/-- Behind a program that only watches. -/
theorem Watches.bind {x : Ahci Bool} {f : Bool → Ahci Bool} {Q : Bool → Hba → Prop}
    (h : Watches x s Q)
    (hf : ∀ b hba n, Q b hba → Watches (f b) { s with hba := hba, accesses := n } R) :
    Watches (x >>= f) s R := by
  obtain ⟨b, hba, n, hrun, hq⟩ := h
  obtain ⟨b', hba', n', hrun', hr⟩ := hf b hba n hq
  exact ⟨b', hba', n', (bind_of_ok hrun).trans hrun', hr⟩

theorem Watches.ite {c : Prop} [Decidable c] {x y : Ahci Bool} (hx : c → Watches x s R)
    (hy : ¬ c → Watches y s R) : Watches (if c then x else y) s R := by
  split
  · next h => exact hx h
  · next h => exact hy h

/-- A command that has been issued is waited for. -/
theorem ahciAwait_watches {c : HbaCommand} (hconf : env.Conforms p) (hs : pages.Spare c)
    (h : Tracked p pages (Known.during known c) s.hba) (hp : Progress p c s.hba) :
    Watches (do if ← ahciWaitIssued env p ahciSpins then ahciFinish env p else pure false) s
      fun ok hba => ∃ known', StoreStep known ⟨c.write, c.cells, c.data hba.memory, ok⟩ known' ∧
        Tracked p pages known' hba := by
  have hJ : ∀ hba hba', Tracked p pages (Known.during known c) hba ∧ Progress p c hba →
      Moves p hba hba' → Tracked p pages (Known.during known c) hba' ∧ Progress p c hba' :=
    fun hba hba' hj hm => ⟨(hj.1.moves hm).1, hj.2.moves hj.1.uses hs hm⟩
  refine Watches.bind (ahciWaitIssued_watches hconf hJ _ ⟨h, hp⟩) fun b hba n hj => ?_
  refine Watches.ite (fun _ => ?_) fun _ => Watches.pure (hj.1.fail _)
  refine (ahciFinish_watches hconf hJ hj).mono fun ok hba' hw => ?_
  obtain ⟨hj', hok⟩ := hw
  cases ok with
  | false => exact hj'.1.fail _
  | true =>
    have hfree := hok rfl
    refine hj'.1.succeed (fun hb => hfree hb.1) ?_
    rcases hj'.2 with ⟨hb, -⟩ | ⟨-, hdone⟩ | ⟨hissued, -⟩
    · exact absurd hb.1 hfree
    · exact hdone
    · exact absurd hissued hfree

/-- A transfer is a step of a store whose writes may fail. -/
theorem ahciIssueIo_watches (hconf : env.Conforms p) (hport : s.gPort = some p)
    (hlist : s.commandList = some pages.list) (htable : s.commandTable = some pages.table)
    (h : Tracked p pages known s.hba) (hs : pages.Spare (request lba count buffer write)) :
    Watches (ahciIssueIo env lba count buffer write) s fun ok hba => ∃ known',
      StoreStep known ⟨write, (request lba count buffer write).cells,
        (request lba count buffer write).data hba.memory, ok⟩ known' ∧
      Tracked p pages known' hba := by
  have hfail : ∀ hba, Tracked p pages known hba → ∃ known',
      StoreStep known ⟨write, (request lba count buffer write).cells,
        (request lba count buffer write).data hba.memory, false⟩ known' ∧
      Tracked p pages known' hba :=
    fun hba ht => (Tracked.during (c := request lba count buffer write) ht).fail _
  unfold ahciIssueIo
  refine Watches.get ?_
  simp only [hport, hlist, htable]
  refine Watches.ite (fun hzero => Watches.pure ?_) fun hcount => ?_
  · have hnone : ∀ k, ¬ (request lba count buffer write).cells k := by
      rintro k ⟨hle, hlt, -⟩
      simp only [request, hzero] at hle hlt
      exact absurd (hle.trans_lt hlt) (Nat.lt_irrefl _)
    cases write with
    | false => exact ⟨known, .read _ _ fun k b hk => absurd hk (hnone k), h⟩
    | true => exact ⟨_, .written _ _, (Known.put_of_empty hnone).symm ▸ h⟩
  refine Watches.ite (fun _ => Watches.pure (hfail _ h)) fun _ => ?_
  refine Watches.ite (fun _ => Watches.pure (hfail _ h)) fun hbuffer => ?_
  refine Watches.bind (ahciWaitPortReady_watches hconf (fun hba hba' ht hm => ht.moves hm) _ h)
    fun b hba n hw => ?_
  obtain ⟨ht, hidle⟩ := hw
  refine Watches.ite (fun _ => Watches.pure (hfail _ ht)) fun hready => ?_
  have hlt : buffer < 2 ^ 32 := by
    rw [ne_eq, not_not, Nat.shiftRight_eq_div_pow] at hbuffer
    omega
  -- the command is in memory; the two writes to registers then issue it
  obtain ⟨hba₁, hhba₁⟩ : ∃ hba₁ : Hba, hba₁ = { hba with
    memory := commandMemory hba.memory pages.list pages.table lba count buffer write } := ⟨_, rfl⟩
  have hloaded : Loaded p pages known (request lba count buffer write) hba₁ :=
    ht.load (hidle (by simpa using hready)) hcount hlt (by rw [hhba₁]) (by rw [hhba₁])
  refine Watches.of_run (storeCommand_run _ _ _) ?_
  rw [← hhba₁]
  refine Watches.writes (Watches.writes ?_)
  have h₁ := (hloaded.moves (hconf n hba₁)).writeIs 0xFFFFFFFF
  obtain ⟨h₂, hp⟩ := (h₁.moves (hconf (n + 1) _)).issue hs
  exact ahciAwait_watches hconf hs h₂ hp

end

end FunnyOS.Devices
