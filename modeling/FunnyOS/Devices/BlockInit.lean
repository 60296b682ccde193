import FunnyOS.Devices.BlockEnds

/-!
# The device that is bound

`block_init` binds the disk that the boot device path names: through AHCI if there is such a disk
and its driver can be started on it, or else through the ATA ports. It fails on a path with a
malformed ATA node only, and does not look whether there is an ATA drive.
-/

namespace FunnyOS.Devices

open Boot (AhciDeviceAddress AhciPath BlockPciPathHop BootInfo DevicePathNode PathError PciAddress
  PciBus WalkState ahciWalk blockBootPathToAhci blockBootPathToAta blockResolvePciPath
  bootinfoDevicePathCapacity lookForAtapi pathRounds walkNode)
open Prog

/-! ## The bus -/

/-- What the kernel asks of the functions on the bus. -/
def PciState.bus (s : PciState) : PciBus where
  deviceInfo address := if s.available then
    (s.config.deviceInfo address).map fun info => (info.classCode, info.subclass) else none
  config8 := s.config

section

variable {s : PciState} {bus : UInt8} {hops : List BlockPciPathHop}

theorem PciConfig.deviceInfo_inside {config : PciConfig} {address : PciAddress}
    {info : PciDeviceInfo} (h : config.deviceInfo address = some info) :
    address.device < pciMaxDeviceCount ∧ address.function < pciMaxFunctionCount := by
  unfold PciConfig.deviceInfo at h
  split at h
  · cases h
  · next hin =>
    simp only [ge_iff_le, not_or, UInt8.not_le] at hin
    exact hin

theorem pciReadDeviceInfo_unavailable {address : PciAddress} (ha : s.available = false) :
    Looks (pciReadDeviceInfo address) s none := by
  refine Looks.get_bind (Looks.ite (fun _ => Looks.pure) fun h => ?_)
  simp [ha] at h

theorem bus_deviceInfo {address : PciAddress} (ha : s.available = true) :
    s.bus.deviceInfo address =
      (s.config.deviceInfo address).map fun info => (info.classCode, info.subclass) := if_pos ha

/-- `block_resolve_pci_path` comes to the function that the hops lead to. -/
theorem resolvePciPath_looks :
    Looks (resolvePciPath bus hops) s (blockResolvePciPath s.bus bus hops) := by
  induction hops generalizing bus s with
  | nil => exact Looks.pure
  | cons hop rest ih =>
    simp only [resolvePciPath, blockResolvePciPath]
    cases ha : s.available with
    | false =>
      have hnone : s.bus.deviceInfo ⟨bus, hop.device, hop.function⟩ = none :=
        if_neg (by simp [ha])
      rw [hnone]
      exact Looks.bind (pciReadDeviceInfo_unavailable ha) fun _ => Looks.pure
    | true =>
      rw [bus_deviceInfo ha]
      refine Looks.bind (pciReadDeviceInfo_looks ha) fun latch => ?_
      cases hinfo : s.config.deviceInfo ⟨bus, hop.device, hop.function⟩ with
      | none => exact Looks.pure
      | some info =>
        obtain ⟨hd, hf⟩ := PciConfig.deviceInfo_inside hinfo
        simp only [Option.map_some]
        split
        · exact Looks.pure
        · split
          · exact Looks.pure
          · refine Looks.bind (pciReadConfig8_looks ha hd hf) fun latch' => ?_
            change Looks (if s.config _ 0x19 = 0xFF then _ else _) _
              (if s.config _ 0x19 = 0xFF then _ else _)
            split
            · exact Looks.pure
            · exact ih

end

/-! ## The path -/

/-- What a walk has found. -/
def found {α : Type} : Outcome WalkState PathError α → Option α
  | .ok a _ => some a
  | _ => none

/-- The AHCI disk that the boot device path names. -/
def namedAhci (info : BootInfo) (pci : PciState) : Option AhciDeviceAddress :=
  found (blockBootPathToAhci pci.bus (.start info))

section

variable {info : BootInfo} {s s' : BlockState} {ahciDevice : Option AhciDeviceAddress}

/-- The address port of the PCI bus has been written. -/
def BlockState.withLatch (s : BlockState) (latch : UInt32) : BlockState :=
  { s with ahci := { s.ahci with pci := { s.ahci.pci with latch := latch } } }

theorem onPath_ok {α : Type} {x : Boot.Walk α} {r : Except PathError α}
    (h : onPath info x s = .ok r s') :
    s = s' ∧ ((∃ a w, x (.start info) = .ok a w ∧ r = .ok a) ∨
      ∃ e w, x (.start info) = .error e w ∧ r = .error e) := by
  unfold onPath at h
  cases hx : x (.start info) with
  | ok a w =>
    rw [hx] at h
    cases h
    exact ⟨rfl, .inl ⟨a, w, rfl, rfl⟩⟩
  | error e w =>
    rw [hx] at h
    cases h
    exact ⟨rfl, .inr ⟨e, w, rfl, rfl⟩⟩
  | _ =>
    rw [hx] at h
    cases h

theorem onAhci_looks {α : Type} {x : Pci α} {a b : α} (h : Looks x s.ahci.pci a)
    (hx : onAhci (onPci x) s = .ok b s') : b = a ∧ ∃ latch, s' = s.withLatch latch := by
  obtain ⟨latch, hlooks⟩ := h
  unfold onAhci onPci onPart at hx
  rw [hlooks] at hx
  cases hx
  exact ⟨rfl, latch, rfl⟩

theorem namedAhci_of_error {e : PathError} {w : WalkState} {pci : PciState}
    (h : ahciWalk (.start info) = .error e w) : namedAhci info pci = none := by
  unfold namedAhci blockBootPathToAhci
  change found ((if info.bootDevicePathSize < _ then _ else Prog.bind ahciWalk _) _) = none
  split
  · rfl
  · unfold Prog.bind
    rw [h]
    rfl

theorem namedAhci_of_ok {path : AhciPath} {w : WalkState} {pci : PciState}
    (hsize : ¬ info.bootDevicePathSize < Boot.devicePathNodeSize)
    (h : ahciWalk (.start info) = .ok path w) : namedAhci info pci =
      path.port.bind fun port =>
        (blockResolvePciPath pci.bus 0 path.hops).map fun controller => ⟨controller, port⟩ := by
  unfold namedAhci blockBootPathToAhci
  change found ((if info.bootDevicePathSize < _ then _ else Prog.bind ahciWalk _) _) = _
  rw [if_neg hsize]
  unfold Prog.bind
  rw [h]
  obtain ⟨hops, port⟩ := path
  cases port with
  | none => rfl
  | some port =>
    simp only [Option.bind_some]
    cases blockResolvePciPath pci.bus 0 hops with
    | none => rfl
    | some controller => rfl

/-- `block_boot_path_to_ahci` finds the disk that the path names. -/
theorem bootPathToAhci_named (h : bootPathToAhci info s = .ok ahciDevice s') :
    ahciDevice = namedAhci info s.ahci.pci ∧ ∃ latch, s' = s.withLatch latch := by
  unfold bootPathToAhci at h
  split at h
  · next hsize =>
    cases h
    refine ⟨?_, s.ahci.pci.latch, rfl⟩
    unfold namedAhci blockBootPathToAhci
    change _ = found ((if info.bootDevicePathSize < _ then _ else Prog.bind ahciWalk _) _)
    rw [if_pos hsize]
    rfl
  · next hsize =>
    obtain ⟨r, s₁, hwalk, hrest⟩ := ok_of_bind h
    obtain ⟨rfl, ⟨path, w, hx, rfl⟩ | ⟨e, w, hx, rfl⟩⟩ := onPath_ok hwalk
    · rw [namedAhci_of_ok hsize hx]
      cases hport : path.port with
      | none =>
        simp only [hport] at hrest
        cases hrest
        exact ⟨rfl, s.ahci.pci.latch, rfl⟩
      | some port =>
        simp only [hport] at hrest
        obtain ⟨controller, s₂, hresolve, hend⟩ := ok_of_bind hrest
        obtain ⟨rfl, latch, rfl⟩ := onAhci_looks resolvePciPath_looks hresolve
        cases hc : blockResolvePciPath s.ahci.pci.bus 0 path.hops with
        | none =>
          simp only [hc] at hend
          cases hend
          exact ⟨rfl, latch, rfl⟩
        | some controller =>
          simp only [hc] at hend
          cases hend
          exact ⟨rfl, latch, rfl⟩
    · cases hrest
      exact ⟨(namedAhci_of_error hx).symm, s.ahci.pci.latch, rfl⟩

end

/-! ## The ATA drive -/

/-- An address that `ata_init` takes. -/
def AtaDeviceAddress.Valid (device : AtaDeviceAddress) : Prop :=
  device.channel ≤ 1 ∧ device.drive ≤ 1

theorem lookForAtapi_valid {offset : Nat} {node : DevicePathNode} {w : WalkState} :
    Returns (lookForAtapi offset node ()) w
      (fun r _ => ∀ device, r = .done (some device) → device.Valid) (fun _ _ => True) := by
  refine Returns.ite (fun _ => ?_) fun _ => Returns.pure fun _ h => by cases h
  refine Returns.ends.bind (fun _ _ h => h) fun _ _ _ => ?_
  refine Returns.ends.bind (fun _ _ h => h) fun primarySecondary _ _ => ?_
  refine Returns.ends.bind (fun _ _ h => h) fun slaveMaster _ _ => ?_
  refine Returns.ite (fun _ => Returns.raise trivial) fun hle => Returns.pure fun device h => ?_
  simp only [gt_iff_lt, not_or, UInt8.not_lt] at hle
  cases h
  exact hle

/-- An ATA drive that the path names is one that there may be. -/
theorem blockBootPathToAta_valid {w w' : WalkState} {device : AtaDeviceAddress}
    (h : blockBootPathToAta w = .ok (some device) w') : device.Valid := by
  have hwalk : Returns blockBootPathToAta w
      (fun r _ => ∀ device, r = some device → device.Valid) (fun _ _ => True) := by
    refine Returns.get_bind (Returns.ite (fun _ => Returns.pure fun _ h => by cases h) fun _ => ?_)
    refine Returns.loop (fun _ _ => True) (fun cursor w₁ _ => ?_) pathRounds _ _ trivial
    refine Returns.ite (fun _ => Returns.pure fun _ h => by cases h) fun _ => ?_
    refine Returns.ends.bind (fun _ _ h => h) fun node _ _ => ?_
    refine Returns.ite (fun _ => Returns.raise trivial) fun _ => ?_
    refine Returns.ite (fun _ => Returns.raise trivial) fun _ => ?_
    refine Returns.ite (fun _ => Returns.pure fun _ h => by cases h) fun _ => ?_
    refine Returns.ends.bind (fun _ _ h => h) fun _ _ _ => ?_
    refine lookForAtapi_valid.bind (fun _ _ h => h) fun r _ hr => ?_
    cases r with
    | again next => exact Returns.pure trivial
    | done result => exact Returns.pure fun device hdone => hr device (by rw [hdone])
  exact hwalk.of_ok h device rfl

theorem eq_zero_or_one {x : UInt8} (h : x ≤ 1) : x = 0 ∨ x = 1 := by
  have hle : x.toNat ≤ 1 := h
  rcases Nat.le_one_iff_eq_zero_or_eq_one.mp hle with h | h
  · exact .inl (UInt8.toNat_inj.mp h)
  · exact .inr (UInt8.toNat_inj.mp h)

/-- `ata_init` takes it. -/
theorem ataInit_valid {device : AtaDeviceAddress} (h : device.Valid) (s : AtaState) :
    ∃ s', ataInit (some device) s = .ok () s' := by
  obtain ⟨channel, drive⟩ := device
  obtain ⟨hchannel, hdrive⟩ := h
  rcases eq_zero_or_one hchannel with rfl | rfl <;> rcases eq_zero_or_one hdrive with rfl | rfl
  all_goals exact ⟨_, rfl⟩

/-! ## The probes -/

section

variable {env : AhciEnv} {info : BootInfo} {s s' : BlockState} {ok : Bool}
  {ahciDevice : AhciDeviceAddress} {ataDevice : AtaDeviceAddress}

/-- No device is bound. -/
abbrev noBlockDevice : BlockDevice := ⟨.none, none, none⟩

/-- The disk behind the AHCI controller is bound. -/
abbrev ahciBlockDevice : BlockDevice := ⟨.ahci, some .ahci, some .ahci⟩

/-- The disk behind the ATA ports is bound. -/
abbrev ataBlockDevice : BlockDevice := ⟨.ataPio, some .ata, some .ata⟩

theorem probe_ahci (h : (gBlockDriverAhci env).probe (ahciCandidate ahciDevice) s = .ok ok s') :
    ∃ ahci, ahciInit env ahciDevice s.ahci = .ok ok ahci ∧
      s' = { s with ahci := ahci, device := if ok then ahciBlockDevice else s.device } := by
  change blockDriverProbeAhci env (ahciCandidate ahciDevice) s = _ at h
  unfold blockDriverProbeAhci at h
  simp only [ahciCandidate, Vector.getElem_mk, List.getElem_toArray, List.getElem_cons_succ,
    List.getElem_cons_zero, UInt8.toUInt8_toUInt32] at h
  obtain ⟨r, s₁, hinit, hrest⟩ := ok_of_bind h
  unfold onAhci onPart at hinit
  cases hx : ahciInit env ahciDevice s.ahci with
  | ok r' ahci =>
    rw [hx] at hinit
    cases hinit
    cases r with
    | false =>
      cases hrest
      exact ⟨ahci, rfl, rfl⟩
    | true =>
      cases hrest
      exact ⟨ahci, rfl, rfl⟩
  | _ =>
    rw [hx] at hinit
    cases hinit

theorem probe_ata (hd : ataDevice.Valid) :
    ∃ ata, ataInit (some ataDevice) s.ata = .ok () ata ∧
      gBlockDriverAta.probe (ataCandidate ataDevice) s
        = .ok true { s with ata := ata, device := ataBlockDevice } := by
  obtain ⟨ata, hata⟩ := ataInit_valid hd s.ata
  refine ⟨ata, hata, ?_⟩
  have hattempt : attempt (onAta (ataInit (some ataDevice))) s
      = .ok (.ok ()) { s with ata := ata } := by
    unfold attempt onAta onPart
    rw [hata]
  change blockDriverProbeAta (ataCandidate ataDevice) s = _
  unfold blockDriverProbeAta
  simp only [ataCandidate, Vector.getElem_mk, List.getElem_toArray, List.getElem_cons_succ,
    List.getElem_cons_zero, UInt8.toUInt8_toUInt32]
  exact bind_of_ok hattempt

end

/-! ## Initialisation -/

/-- The disk that is bound: the AHCI disk if its driver could be started, else an ATA drive. -/
inductive BoundThrough (env : AhciEnv) (ahciDevice : Option AhciDeviceAddress)
    (ataDevice : AtaDeviceAddress) (s s' : BlockState) : Prop
  | ahci (device : AhciDeviceAddress) (hnamed : ahciDevice = some device)
      (hinit : ahciInit env device s.ahci = .ok true s'.ahci) (hata : s'.ata = s.ata)
      (hdevice : s'.device = ahciBlockDevice)
  | ata (hahci : (ahciDevice = none ∧ s'.ahci = s.ahci) ∨
        ∃ device, ahciDevice = some device ∧ ahciInit env device s.ahci = .ok false s'.ahci)
      (hinit : ataInit (some ataDevice) s.ata = .ok () s'.ata)
      (hdevice : s'.device = ataBlockDevice)

section

variable {env : AhciEnv} {info : BootInfo} {s s' : BlockState} {ok : Bool}
  {ahciDevice : Option AhciDeviceAddress} {ataDevice : AtaDeviceAddress}
  {registry : DriverRegistry BlockState} {bound : Option (DriverOps BlockState × DriverDevice)}

/-- Each candidate has its own driver. -/
theorem matching_candidates (hr : registry.drivers = [gBlockDriverAhci env, gBlockDriverAta]) :
    (((ahciDevice.map ahciCandidate).toList ++ [ataCandidate ataDevice]).flatMap
      (matching registry.drivers)) =
      (ahciDevice.map fun device => (gBlockDriverAhci env, ahciCandidate device)).toList ++
        [(gBlockDriverAta, ataCandidate ataDevice)] := by
  rw [hr]
  cases ahciDevice with
  | none => rfl
  | some device => rfl

theorem binds_ata (hd : ataDevice.Valid)
    (h : Binds [(gBlockDriverAta, ataCandidate ataDevice)] s bound s') :
    bound.isSome = true ∧ ataInit (some ataDevice) s.ata = .ok () s'.ata ∧ s'.ahci = s.ahci ∧
      s'.device = ataBlockDevice := by
  obtain ⟨ata, hinit, hprobe⟩ := probe_ata (s := s) hd
  cases h with
  | next hfailed _ =>
    rw [hprobe] at hfailed
    cases hfailed
  | bound hok =>
    rw [hprobe] at hok
    cases hok
    exact ⟨rfl, hinit, rfl, rfl⟩

theorem candidates_bound (hr : registry.drivers = [gBlockDriverAhci env, gBlockDriverAta])
    (hd : ataDevice.Valid) (h : driverCoreProbe registry
      ((ahciDevice.map ahciCandidate).toList ++ [ataCandidate ataDevice]) s = .ok bound s') :
    bound.isSome = true ∧ BoundThrough env ahciDevice ataDevice s s' := by
  have hbinds := driverCoreProbe_binds h
  rw [matching_candidates hr] at hbinds
  cases ahciDevice with
  | none =>
    obtain ⟨hbound, hinit, hahci, hdevice⟩ := binds_ata hd hbinds
    exact ⟨hbound, .ata (.inl ⟨rfl, hahci⟩) hinit hdevice⟩
  | some device =>
    cases hbinds with
    | next hprobe hrest =>
      obtain ⟨ahci, hfailed, rfl⟩ := probe_ahci hprobe
      obtain ⟨hbound, hinit, hahci, hdevice⟩ := binds_ata hd hrest
      exact ⟨hbound, .ata (.inr ⟨device, rfl, hfailed.trans (by rw [hahci])⟩) hinit hdevice⟩
    | bound hprobe =>
      obtain ⟨ahci, hok, rfl⟩ := probe_ahci hprobe
      exact ⟨rfl, .ahci device rfl hok rfl rfl⟩

/-- Where `block_init` has returned, it has failed on a path that is malformed for the ATA drive, or
has bound the disk that the path names. -/
theorem blockInit_bound (hinit : blockInit env info s = .ok ok s') :
    (ok = false → found (blockBootPathToAta (.start info)) = none ∧ s'.device = noBlockDevice) ∧
    (ok = true → ∃ ataResult latch, found (blockBootPathToAta (.start info)) = some ataResult ∧
      BoundThrough env (namedAhci info s.ahci.pci) (ataResult.getD blockDefaultAtaDevice)
        (s.withLatch latch) s') := by
  obtain ⟨r, r', hr, hr', hdrivers⟩ : ∃ r r',
      driverCoreRegister driverCoreReset (gBlockDriverAhci env) = some r ∧
      driverCoreRegister r gBlockDriverAta = some r' ∧
      r'.drivers = [gBlockDriverAhci env, gBlockDriverAta] := register_reset
  obtain ⟨_, s₁, hbind, hrest⟩ := ok_of_bind hinit
  cases hbind
  simp only [hr, hr'] at hrest
  obtain ⟨ahciDevice, s₂, hahci, hrest⟩ := ok_of_bind hrest
  obtain ⟨rfl, latch, rfl⟩ := bootPathToAhci_named hahci
  obtain ⟨result, s₃, hpath, hrest⟩ := ok_of_bind hrest
  obtain ⟨rfl, ⟨ataResult, w, hx, rfl⟩ | ⟨e, w, hx, rfl⟩⟩ := onPath_ok hpath
  · have hvalid : (ataResult.getD blockDefaultAtaDevice).Valid := by
      cases ataResult with
      | none => exact ⟨by decide, by decide⟩
      | some device => exact blockBootPathToAta_valid hx
    obtain ⟨bound, s₄, hprobe, hrest⟩ := ok_of_bind hrest
    obtain ⟨hbound, hthrough⟩ := candidates_bound hdrivers hvalid hprobe
    obtain ⟨pair, rfl⟩ := Option.isSome_iff_exists.mp hbound
    have hfound : found (blockBootPathToAta (.start info)) = some ataResult := by rw [hx]; rfl
    have hdevice : s₄.device = ahciBlockDevice ∨ s₄.device = ataBlockDevice := by
      cases hthrough with
      | ahci _ _ _ _ hdevice => exact .inl hdevice
      | ata _ _ hdevice => exact .inr hdevice
    have hend : Outcome.ok (s₄.device.readSectors.isSome && s₄.device.writeSectors.isSome) s₄
        = .ok ok s' := hrest
    have hok : ok = true := by
      cases hend
      rcases hdevice with hd | hd <;> rw [hd] <;> rfl
    obtain rfl : s₄ = s' := by
      cases hend
      rfl
    refine ⟨fun h => (by cases hok.symm.trans h), fun _ => ⟨ataResult, latch, hfound, ?_⟩⟩
    cases hthrough with
    | ahci device hnamed hinit hata hdevice => exact .ahci device hnamed hinit hata hdevice
    | ata hahci hinit hdevice => exact .ata hahci hinit hdevice
  · cases hrest
    refine ⟨fun _ => ⟨?_, rfl⟩, fun h => by cases h⟩
    rw [hx]
    rfl

/-- `block_init` returns. It fails on a path that is malformed for the ATA drive only, and then no
device is bound. Otherwise it binds the disk that the path names. -/
theorem blockInit_binds (hsize : info.bootDevicePathSize ≤ bootinfoDevicePathCapacity) :
    ∃ ok s', blockInit env info s = .ok ok s' ∧
      (ok = false ↔ found (blockBootPathToAta (.start info)) = none) ∧
      (ok = false → s'.device = noBlockDevice) ∧
      (ok = true → ∃ ataResult latch, found (blockBootPathToAta (.start info)) = some ataResult ∧
        BoundThrough env (namedAhci info s.ahci.pci) (ataResult.getD blockDefaultAtaDevice)
          (s.withLatch latch) s') := by
  obtain ⟨ok, s', hrun, -⟩ := (blockInit_gives hsize s trivial).exists_ok
  obtain ⟨hfails, hbinds⟩ := blockInit_bound hrun
  refine ⟨ok, s', hrun, ⟨fun hok => (hfails hok).1, fun hnone => ?_⟩, fun hok => (hfails hok).2,
    hbinds⟩
  cases ok with
  | false => rfl
  | true =>
    obtain ⟨ataResult, latch, hsome, -⟩ := hbinds rfl
    rw [hnone] at hsome
    cases hsome

end

/-- A path to the disk behind port 0 of the second device of the first bus. -/
def sataInfo : BootInfo := ⟨20, fun i => [1, 1, 6, 0, 0, 1, 3, 0x12, 10, 0, 0, 0, 0, 0, 0, 0, 0x7F,
  0xFF, 4, 0].getD i 0⟩

/-- A machine with such a disk, before and behind `block_init`. -/
def bootMachine : BlockState := ⟨bareMachine, ataStart, noBlockDevice⟩

@[inherit_doc bootMachine]
def bootedMachine : BlockState :=
  (blockInit promptEnv sataInfo bootMachine).finalState bootMachine

theorem bootedMachine_init : blockInit promptEnv sataInfo bootMachine = .ok true bootedMachine :=
  eq_ok_of_result (by decide +kernel)

theorem blockInit_binds_sata : ∃ ok s', blockInit promptEnv sataInfo bootMachine = .ok ok s' ∧
    (ok = false ↔ found (blockBootPathToAta (.start sataInfo)) = none) ∧
    (ok = false → s'.device = noBlockDevice) ∧
    (ok = true → ∃ ataResult latch,
      found (blockBootPathToAta (.start sataInfo)) = some ataResult ∧
      BoundThrough promptEnv (namedAhci sataInfo bareMachine.pci)
        (ataResult.getD blockDefaultAtaDevice) (bootMachine.withLatch latch) s') :=
  blockInit_binds (by decide)

end FunnyOS.Devices
