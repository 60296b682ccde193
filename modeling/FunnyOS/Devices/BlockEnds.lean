import FunnyOS.Devices.Block
import FunnyOS.Lib.Gives

/-!
# The initialisation of the disk ends

Every loop of the drivers counts down, and the walk along a boot device path that fits its buffer
comes to an end, so `block_init` returns whatever the controller and the bus answer.
-/

namespace FunnyOS.Devices

open Boot (AhciDeviceAddress BlockPciPathHop BootInfo PathError PciAddress WalkState ahciWalk
  blockBootPathToAta bootinfoDevicePathCapacity)
open Prog

/-! ## The PCI bus -/

section

variable {I : PciState → Prop} {address : PciAddress} {offset : UInt8}

theorem outAddress_gives {value : UInt32} : Gives (fun _ => True) (outAddress value) :=
  .modify fun _ _ => trivial

theorem inData8_gives {k : UInt8} : Gives I (inData8 k) := .bind .get fun _ => .pure

theorem inData16_gives {k : UInt8} : Gives I (inData16 k) := .bind .get fun _ => .pure

theorem inData32_gives : Gives I inData32 := .bind .get fun _ => .pure

theorem pciReadConfig8_gives : Gives (fun _ => True) (pciReadConfig8 address offset) :=
  .bind .get fun _ => .ite .pure (.bind outAddress_gives fun _ => inData8_gives)

theorem pciReadConfig16_gives : Gives (fun _ => True) (pciReadConfig16 address offset) :=
  .bind .get fun _ => .ite .pure (.bind outAddress_gives fun _ => inData16_gives)

theorem pciReadConfig32_gives : Gives (fun _ => True) (pciReadConfig32 address offset) :=
  .bind .get fun _ => .ite .pure (.bind outAddress_gives fun _ => inData32_gives)

theorem pciWriteConfig16_gives {value : UInt16} :
    Gives (fun _ => True) (pciWriteConfig16 address offset value) :=
  .bind .get fun _ => .ite .pure (.bind outAddress_gives fun _ => .modify fun _ _ => trivial)

theorem pciReadDeviceInfo_gives : Gives (fun _ => True) (pciReadDeviceInfo address) := by
  refine .bind .get fun _ => .ite .pure (.ite .pure (.bind pciReadConfig16_gives fun _ => ?_))
  refine .ite .pure (.bind pciReadConfig16_gives fun _ => .bind pciReadConfig8_gives fun _ => ?_)
  refine .bind pciReadConfig8_gives fun _ => .bind pciReadConfig8_gives fun _ => ?_
  exact .bind pciReadConfig8_gives fun _ => .bind pciReadConfig8_gives fun _ => .pure

theorem pciReadBar_gives {barIndex : UInt8} :
    Gives (fun _ => True) (pciReadBar address barIndex) :=
  .bind .get fun _ => .ite .pure pciReadConfig32_gives

theorem pciReadBar64_gives {barIndex : UInt8} :
    Gives (fun _ => True) (pciReadBar64 address barIndex) := by
  refine .bind .get fun _ => .ite .pure (.bind pciReadBar_gives fun _ => .ite .pure ?_)
  exact .ite (.ite .pure (.bind pciReadBar_gives fun _ => .pure)) .pure

theorem resolvePciPath_gives {bus : UInt8} {hops : List BlockPciPathHop} :
    Gives (fun _ => True) (resolvePciPath bus hops) := by
  induction hops generalizing bus with
  | nil => exact .pure
  | cons hop rest ih =>
    refine .bind pciReadDeviceInfo_gives fun info => ?_
    cases info with
    | none => exact .pure
    | some info =>
      exact .ite .pure (.ite .pure (.bind pciReadConfig8_gives fun _ => .ite .pure ih))

end

/-! ## The AHCI driver -/

section

variable {env : AhciEnv} {I : AhciState → Prop} {p : Nat} {s : AhciState}

/-- What does not depend on the controller, the memory and the bus. -/
structure OwnOnly (I : AhciState → Prop) : Prop where
  hba : ∀ s hba accesses, I s → I { s with hba := hba, accesses := accesses }
  pci : ∀ s pci, I s → I { s with pci := pci }

/-- The driver has its three pages. -/
structure Paged (s : AhciState) : Prop where
  list : s.commandList.isSome = true
  fis : s.receivedFis.isSome = true
  table : s.commandTable.isSome = true

theorem paged_ownOnly : OwnOnly Paged :=
  ⟨fun _ _ _ h => ⟨h.list, h.fis, h.table⟩, fun _ _ h => ⟨h.list, h.fis, h.table⟩⟩

theorem true_ownOnly : OwnOnly fun _ => True := ⟨fun _ _ _ _ => trivial, fun _ _ _ => trivial⟩

theorem controllerMoves_gives (hI : OwnOnly I) : Gives I (controllerMoves env) :=
  .modify fun s hs => hI.hba s _ _ hs

theorem readPort_gives (hI : OwnOnly I) {register : HbaPort → UInt32} :
    Gives I (readPort env p register) :=
  .bind (controllerMoves_gives hI) fun _ => .bind .get fun _ => .pure

theorem writePort_gives (hI : OwnOnly I) {f : AhciPort → AhciPort} : Gives I (writePort env p f) :=
  .bind (controllerMoves_gives hI) fun _ => .modify fun s hs => hI.hba s _ s.accesses hs

theorem writeMemory_gives (hI : OwnOnly I) {address count : Nat} {value : Nat → UInt8} :
    Gives I (writeMemory address count value) :=
  .modify fun s hs => hI.hba s _ s.accesses hs

theorem ahciWaitPortMaskClear_gives (hI : OwnOnly I) {mask : UInt32} {spins : Nat} :
    Gives I (ahciWaitPortMaskClear env p mask spins) := by
  induction spins with
  | zero => exact .pure
  | succ spins ih => exact .bind (readPort_gives hI) fun _ => .ite .pure ih

theorem ahciWaitPortReady_gives (hI : OwnOnly I) {spins : Nat} :
    Gives I (ahciWaitPortReady env p spins) := by
  induction spins with
  | zero => exact .pure
  | succ spins ih => exact .bind (readPort_gives hI) fun _ => .ite .pure ih

theorem changeCmd_gives (hI : OwnOnly I) {f : UInt32 → UInt32} : Gives I (changeCmd env p f) :=
  .bind (readPort_gives hI) fun _ => writePort_gives hI

theorem ahciStopPort_gives (hI : OwnOnly I) : Gives I (ahciStopPort env p) :=
  .bind (changeCmd_gives hI) fun _ => .bind (changeCmd_gives hI) fun _ =>
    .bind (ahciWaitPortMaskClear_gives hI) fun _ => .pure

theorem ahciStartPort_gives (hI : OwnOnly I) : Gives I (ahciStartPort env p) :=
  .bind (ahciWaitPortMaskClear_gives hI) fun _ => .bind (changeCmd_gives hI) fun _ =>
    changeCmd_gives hI

theorem ahciPortHasSataDrive_gives (hI : OwnOnly I) : Gives I (ahciPortHasSataDrive env p) :=
  .bind (readPort_gives hI) fun _ => .ite .pure (.bind (readPort_gives hI) fun _ => .pure)

/-- Where `ahci_prepare_memory` has come to a page, the driver has it, and the ones that it had. -/
theorem ahciPage_ends {page : AhciState → Option Nat} {keep : Nat → AhciState → AhciState}
    (hkeep : ∀ a s, page (keep a s) = some a) (hI : ∀ a s, I s → I (keep a s))
    (hcount : ∀ s n, I s → I { s with allocations := n }) (h : I s) :
    Ends (ahciPage env page keep) s
      (fun ok s' => I s' ∧ (ok = true → (page s').isSome = true)) (fun _ _ => False) := by
  refine Ends.get_bind ?_
  cases hpage : page s with
  | some a => exact Ends.pure ⟨h, fun _ => by rw [hpage]; rfl⟩
  | none =>
    refine Ends.modify_bind ?_
    cases env.allocPages s.allocations with
    | none => exact Ends.pure ⟨hcount s _ h, fun hok => by cases hok⟩
    | some address =>
      refine Ends.modify_bind (Ends.pure ⟨hI _ _ (hcount s _ h), fun _ => ?_⟩)
      rw [hkeep]
      rfl

theorem ahciClearPage_gives {page : AhciState → Option Nat}
    (hpage : ∀ s, Paged s → (page s).isSome = true) : Gives Paged (ahciClearPage page) := by
  intro s hs
  refine Ends.get_bind ?_
  obtain ⟨address, haddress⟩ := Option.isSome_iff_exists.mp (hpage s hs)
  rw [haddress]
  exact writeMemory_gives paged_ownOnly s hs

/-- `ahci_prepare_memory`. -/
theorem ahciPrepareMemory_ends :
    Ends (ahciPrepareMemory env) s (fun ok s' => ok = true → Paged s') (fun _ _ => False) := by
  refine Ends.bind (ahciPage_ends (I := fun _ => True) (fun _ _ => rfl) (fun _ _ _ => trivial)
    (fun _ _ _ => trivial) trivial) (fun _ _ h => h) fun ok₁ s₁ h₁ => ?_
  refine Ends.ite (fun _ => Ends.pure fun hok => by cases hok) fun hok₁ => ?_
  have hlist : s₁.commandList.isSome = true := h₁.2 (by simpa using hok₁)
  refine Ends.bind (ahciPage_ends (I := fun s => s.commandList.isSome = true) (fun _ _ => rfl)
    (fun _ _ h => h) (fun _ _ h => h) hlist) (fun _ _ h => h) fun ok₂ s₂ h₂ => ?_
  refine Ends.ite (fun _ => Ends.pure fun hok => by cases hok) fun hok₂ => ?_
  have hfis : s₂.receivedFis.isSome = true := h₂.2 (by simpa using hok₂)
  refine Ends.bind (ahciPage_ends
    (I := fun s => s.commandList.isSome = true ∧ s.receivedFis.isSome = true) (fun _ _ => rfl)
    (fun _ _ h => h) (fun _ _ h => h) ⟨h₂.1, hfis⟩) (fun _ _ h => h) fun ok₃ s₃ h₃ => ?_
  refine Ends.ite (fun _ => Ends.pure fun hok => by cases hok) fun hok₃ => ?_
  have hpaged : Paged s₃ := ⟨h₃.1.1, h₃.1.2, h₃.2 (by simpa using hok₃)⟩
  refine (ahciClearPage_gives fun _ h => h.list).bind_ends hpaged fun _ s₄ h₄ => ?_
  refine (ahciClearPage_gives fun _ h => h.fis).bind_ends h₄ fun _ s₅ h₅ => ?_
  exact (ahciClearPage_gives fun _ h => h.table).bind_ends h₅ fun _ s₆ h₆ => Ends.pure fun _ => h₆

theorem ahciConfigurePort_gives : Gives (fun _ => True) (ahciConfigurePort env p) := by
  intro s _
  refine Ends.bind ahciPrepareMemory_ends (fun _ _ h => h) fun ok s₁ h₁ => ?_
  refine Ends.ite (fun _ => Ends.pure trivial) fun hok => ?_
  refine (ahciStopPort_gives paged_ownOnly).bind_ends (h₁ (by simpa using hok)) fun _ s₂ h₂ => ?_
  obtain ⟨list, hlist⟩ := Option.isSome_iff_exists.mp h₂.list
  obtain ⟨fis, hfis⟩ := Option.isSome_iff_exists.mp h₂.fis
  obtain ⟨table, htable⟩ := Option.isSome_iff_exists.mp h₂.table
  refine Ends.get_bind ?_
  rw [hlist, hfis, htable]
  have hregs : ∀ {f}, Gives (fun _ => True) (writeRegs env p f) := writePort_gives true_ownOnly
  have hmemory : ∀ {a n v}, Gives (fun _ => True) (writeMemory a n v) :=
    writeMemory_gives true_ownOnly
  have hheader : Gives (fun _ => True) (storeHeader list 5) :=
    .bind hmemory fun _ => .bind hmemory fun _ => .bind hmemory fun _ => hmemory
  have hsetup : Gives (fun _ => True) (do
      storeHeader list 5
      writeMemory (list + 8) 4 (byteOf (table % 2 ^ 32))
      writeMemory (list + 12) 4 fun _ => 0
      ahciStartPort env p
      ahciWaitPortReady env p ahciSpins) :=
    .bind hheader fun _ => .bind hmemory fun _ => .bind hmemory fun _ =>
      .bind (ahciStartPort_gives true_ownOnly) fun _ => ahciWaitPortReady_gives true_ownOnly
  exact Gives.bind hregs (fun _ => .bind hregs fun _ => .bind hregs fun _ => .bind hregs fun _ =>
    .bind hregs fun _ => .bind hregs fun _ => .bind hregs fun _ => .bind hregs fun _ =>
    .bind hregs fun _ => hsetup) s₂ trivial

theorem onPci_gives {α : Type} {x : Pci α} (hx : Gives (fun _ => True) x) (hI : OwnOnly I) :
    Gives I (onPci x) := .onPart hx fun s pci hs => hI.pci s pci hs

/-- `ahci_init` returns. -/
theorem ahciInit_gives {device : AhciDeviceAddress} :
    Gives (fun _ => True) (ahciInit env device) := by
  have hread : ∀ register, Gives (fun _ => True) (readHba env register) := fun _ =>
    .bind (controllerMoves_gives true_ownOnly) fun _ => .bind .get fun _ => .pure
  refine .ite .pure (.bind (onPci_gives pciReadDeviceInfo_gives true_ownOnly) fun info => ?_)
  cases info with
  | none => exact .pure
  | some info =>
    refine .ite .pure (.bind (onPci_gives pciReadConfig16_gives true_ownOnly) fun _ => ?_)
    refine .bind (onPci_gives pciWriteConfig16_gives true_ownOnly) fun _ => ?_
    refine .bind (onPci_gives pciReadBar64_gives true_ownOnly) fun _ => ?_
    refine .ite .pure (.ite .pure (.ite .pure (.bind (hread _) fun _ => ?_)))
    refine .bind (.bind (controllerMoves_gives true_ownOnly) fun _ => .modify fun _ _ => trivial)
      fun _ => .bind (hread _) fun _ => .ite .pure ?_
    refine .bind (.modify fun _ _ => trivial) fun _ => ?_
    refine .bind (ahciPortHasSataDrive_gives true_ownOnly) fun _ => ?_
    exact .ite .pure ahciConfigurePort_gives

end

/-! ## The block layer -/

section

variable {env : AhciEnv} {info : BootInfo}

theorem probeDrivers_gives {σ : Type} {device : DriverDevice} {drivers : List (DriverOps σ)}
    (h : ∀ driver ∈ drivers, Gives (fun _ => True) (driver.probe device)) :
    Gives (fun _ => True) (probeDrivers device drivers) := by
  induction drivers with
  | nil => exact .pure
  | cons driver rest ih =>
    have hrest := ih fun d hd => h d (List.mem_cons_of_mem _ hd)
    exact .ite hrest (.bind (h driver List.mem_cons_self) fun _ => .ite hrest .pure)

theorem probeDevices_gives {σ : Type} {devices : List DriverDevice} {drivers : List (DriverOps σ)}
    (h : ∀ device, ∀ driver ∈ drivers, Gives (fun _ => True) (driver.probe device)) :
    Gives (fun _ => True) (probeDevices drivers devices) := by
  induction devices with
  | nil => exact .pure
  | cons device rest ih =>
    refine .bind (probeDrivers_gives (h device)) fun found => ?_
    cases found with
    | some driver => exact .pure
    | none => exact ih

theorem blockDriverProbeAhci_gives {device : DriverDevice} :
    Gives (fun _ => True) (blockDriverProbeAhci env device) := by
  refine .bind (.onPart ahciInit_gives fun _ _ h => h) fun _ => .ite .pure ?_
  exact .bind (.modify fun _ _ => trivial) fun _ => .pure

theorem ataInit_ends {device : Option AtaDeviceAddress} {s : AtaState} :
    Ends (ataInit device) s (fun _ _ => True) fun _ _ => True := by
  cases device with
  | none => exact Ends.raise trivial
  | some device =>
    refine Ends.ite (fun _ => Ends.raise trivial) fun _ => ?_
    split <;> trivial

theorem blockDriverProbeAta_gives {device : DriverDevice} :
    Gives (fun _ => True) (blockDriverProbeAta device) := by
  have hinit : ∀ address, Gives (fun _ => True) (attempt (onAta (ataInit address))) :=
    fun address s _ => Ends.attempt (Ends.onPart ataInit_ends) (fun _ _ h => h) fun _ _ h => h
  refine .bind (hinit _) fun result => ?_
  cases result with
  | error e => exact .pure
  | ok u => exact .bind (.modify fun _ _ => trivial) fun _ => .pure

theorem onPath_gives {α : Type} {x : Boot.Walk α} (h : (x (.start info)).result.isSome = true) :
    Gives (fun _ => True) (onPath info x) := by
  intro s _
  unfold Ends onPath
  cases hx : x (.start info) with
  | ok a w => trivial
  | error e w => trivial
  | _ =>
    rw [hx] at h
    cases h

theorem ahciWalk_ends (hsize : info.bootDevicePathSize ≤ bootinfoDevicePathCapacity) :
    (ahciWalk (.start info)).result.isSome = true := by
  have hdefined : Defined ahciWalk := by
    refine Defined.bind Defined.get fun s => ?_
    exact Defined.loop (Boot.walkNode_defined fun _ _ _ => Boot.lookForSata_defined) _ _
  have hwalk : Sat ahciWalk (.start info) (fun _ _ => True) fun _ _ => True :=
    Sat.get_bind (Sat.mono (Boot.walk_inside Boot.lookForSata_looksAt hsize) (fun _ _ _ => trivial)
      fun _ _ _ => trivial)
  exact (Ends.of_sat hwalk (hdefined _)).result_isSome

/-- `block_init` returns, if the recorded size of the path is one that the buffer has. -/
theorem blockInit_gives (hsize : info.bootDevicePathSize ≤ bootinfoDevicePathCapacity) :
    Gives (fun _ => True) (blockInit env info) := by
  have hahci : Gives (fun _ => True) (bootPathToAhci info) := by
    refine .ite .pure (.bind (onPath_gives (ahciWalk_ends hsize)) fun result => ?_)
    cases result with
    | error e => exact .pure
    | ok path =>
      dsimp only
      cases path.port with
      | none => exact .pure
      | some port =>
        refine .bind (.onPart (onPci_gives resolvePciPath_gives true_ownOnly) fun _ _ h => h)
          fun controller => ?_
        cases controller with
        | none => exact .pure
        | some controller => exact .pure
  obtain ⟨r, r', hr, hr', hdrivers⟩ :
      ∃ r r', driverCoreRegister driverCoreReset (gBlockDriverAhci env) = some r ∧
        driverCoreRegister r gBlockDriverAta = some r' ∧
        r'.drivers = [gBlockDriverAhci env, gBlockDriverAta] := register_reset
  have hprobe : ∀ devices, Gives (fun _ => True) (driverCoreProbe r' devices) := by
    intro devices
    refine probeDevices_gives fun device driver hdriver => ?_
    rw [hdrivers, List.mem_pair] at hdriver
    rcases hdriver with rfl | rfl
    · exact blockDriverProbeAhci_gives
    · exact blockDriverProbeAta_gives
  refine .bind (.modify fun _ _ => trivial) fun _ => ?_
  simp only [hr, hr']
  refine .bind hahci fun ahciDevice => ?_
  refine .bind (onPath_gives (Boot.blockBootPathToAta_inside hsize).ends) fun result => ?_
  cases result with
  | error e => exact .pure
  | ok ataResult =>
    refine .bind (hprobe _) fun bound => ?_
    cases bound with
    | none => exact .pure
    | some pair => exact .bind .get fun _ => .pure

end

end FunnyOS.Devices
