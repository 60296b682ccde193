import FunnyOS.Lib.Prog

/-!
# The driver core

`src/kernel/driver.c`: drivers are registered, and devices are offered to them. The first driver
that matches a device and can be started on it is bound. A driver that cannot be started may have
changed the state `σ` of the kernel all the same.
-/

namespace FunnyOS.Devices

open Prog

/-- `DRIVER_MAX_REGISTERED`. -/
abbrev driverMaxRegistered : Nat := 16

/-- `DriverBusType`. -/
inductive DriverBusType
  | firmware
  | pci
deriving DecidableEq, Repr

/-- `DriverDeviceClass`. -/
inductive DriverDeviceClass
  | block
deriving DecidableEq, Repr

/-- `DriverDevice`. -/
structure DriverDevice where
  busType : DriverBusType
  classType : DriverDeviceClass
  vendorId : UInt16
  deviceId : UInt16
  classCode : UInt8
  subclass : UInt8
  progIf : UInt8
  reserved0 : UInt8
  payload : Vector UInt32 4
deriving DecidableEq

/-- `DriverOps`. -/
structure DriverOps (σ : Type) where
  name : String
  matchDevice : DriverDevice → Bool
  probe : DriverDevice → Prog σ Unit Bool

/-- `g_registered`, as far as `g_registered_count` goes. -/
structure DriverRegistry (σ : Type) where
  drivers : List (DriverOps σ)
  room : drivers.length ≤ driverMaxRegistered

variable {σ : Type}

/-- `driver_core_reset`. -/
def driverCoreReset : DriverRegistry σ := ⟨[], Nat.zero_le _⟩

/-- `driver_core_register`. -/
def driverCoreRegister (registry : DriverRegistry σ) (driver : DriverOps σ) :
    Option (DriverRegistry σ) :=
  if h : registry.drivers.length ≥ driverMaxRegistered then none
  else some ⟨registry.drivers ++ [driver], by
    rw [List.length_append, List.length_singleton]
    exact Nat.lt_of_not_le h⟩

theorem register_reset {driver driver' : DriverOps σ} :
    ∃ r r', driverCoreRegister driverCoreReset driver = some r ∧
      driverCoreRegister r driver' = some r' ∧ r'.drivers = [driver, driver'] :=
  ⟨_, _, rfl, rfl, rfl⟩

/-- The loop of `driver_core_probe` over the drivers. -/
def probeDrivers (device : DriverDevice) : List (DriverOps σ) → Prog σ Unit (Option (DriverOps σ))
  | [] => pure none
  | driver :: rest =>
    if !driver.matchDevice device then probeDrivers device rest
    else do
      if !(← driver.probe device) then probeDrivers device rest
      else pure (some driver)

/-- The loop over the devices. -/
def probeDevices (drivers : List (DriverOps σ)) :
    List DriverDevice → Prog σ Unit (Option (DriverOps σ × DriverDevice))
  | [] => pure none
  | device :: rest => do
    match ← probeDrivers device drivers with
    | some driver => pure (some (driver, device))
    | none => probeDevices drivers rest

/-- `driver_core_probe`, with what is bound. -/
def driverCoreProbe (registry : DriverRegistry σ) (devices : List DriverDevice) :
    Prog σ Unit (Option (DriverOps σ × DriverDevice)) := probeDevices registry.drivers devices

/-! ## What is bound -/

/-- The drivers that match a device. -/
def matching (drivers : List (DriverOps σ)) (device : DriverDevice) :
    List (DriverOps σ × DriverDevice) :=
  (drivers.filter fun driver => driver.matchDevice device).map fun driver => (driver, device)

/-- The first of some pairs whose probe succeeds, after the probes before it. -/
inductive Binds : List (DriverOps σ × DriverDevice) → σ → Option (DriverOps σ × DriverDevice) →
    σ → Prop
  | nothing (s : σ) : Binds [] s none s
  | next {pair : DriverOps σ × DriverDevice} {rest : List (DriverOps σ × DriverDevice)}
      {s s₁ s' : σ} {bound : Option (DriverOps σ × DriverDevice)}
      (hprobe : pair.1.probe pair.2 s = .ok false s₁) (hrest : Binds rest s₁ bound s') :
      Binds (pair :: rest) s bound s'
  | bound {pair : DriverOps σ × DriverDevice} {rest : List (DriverOps σ × DriverDevice)}
      {s s' : σ} (hprobe : pair.1.probe pair.2 s = .ok true s') :
      Binds (pair :: rest) s (some pair) s'

section

variable {driver : DriverOps σ} {drivers : List (DriverOps σ)} {device : DriverDevice}
  {devices : List DriverDevice} {pairs pairs' : List (DriverOps σ × DriverDevice)} {s s₁ s' : σ}
  {bound : Option (DriverOps σ × DriverDevice)} {found : Option (DriverOps σ)}

theorem matching_cons : matching (driver :: drivers) device =
    if driver.matchDevice device then (driver, device) :: matching drivers device
    else matching drivers device := by
  unfold matching
  rw [List.filter_cons]
  split <;> rfl

/-- Where nothing is bound, what is tried next decides. -/
theorem Binds.append (h : Binds pairs s none s₁) (h' : Binds pairs' s₁ bound s') :
    Binds (pairs ++ pairs') s bound s' := by
  generalize hnone : none = b at h
  induction h with
  | nothing s => exact h'
  | next hprobe _ ih => exact .next hprobe (ih h' hnone)
  | bound => cases hnone

theorem Binds.append_of_some {pair : DriverOps σ × DriverDevice}
    (h : Binds pairs s (some pair) s') :
    Binds (pairs ++ pairs') s (some pair) s' := by
  generalize hsome : some pair = b at h
  induction h with
  | nothing s => cases hsome
  | next hprobe _ ih => exact .next hprobe (ih hsome)
  | bound hprobe => exact .bound hprobe

/-- Both loops go along the drivers that match. -/
theorem probeDrivers_binds (h : probeDrivers device drivers s = .ok found s') :
    Binds (matching drivers device) s (found.map fun driver => (driver, device)) s' := by
  induction drivers generalizing s with
  | nil =>
    cases h
    exact .nothing _
  | cons driver drivers ih =>
    rw [matching_cons]
    unfold probeDrivers at h
    cases hmatch : driver.matchDevice device with
    | false =>
      rw [hmatch] at h
      exact ih h
    | true =>
      rw [hmatch] at h
      obtain ⟨ok, s₁, hprobe, hrest⟩ := ok_of_bind h
      cases ok with
      | false => exact .next hprobe (ih hrest)
      | true =>
        cases hrest
        exact .bound hprobe

theorem probeDevices_binds (h : probeDevices drivers devices s = .ok bound s') :
    Binds (devices.flatMap (matching drivers)) s bound s' := by
  induction devices generalizing s with
  | nil =>
    cases h
    exact .nothing _
  | cons device devices ih =>
    obtain ⟨found, s₁, hfirst, hrest⟩ := ok_of_bind h
    have hbinds := probeDrivers_binds hfirst
    rw [List.flatMap_cons]
    cases found with
    | none => exact hbinds.append (ih hrest)
    | some driver =>
      cases hrest
      exact hbinds.append_of_some

/-- `driver_core_probe` binds the first driver of the first device that it can. -/
theorem driverCoreProbe_binds {registry : DriverRegistry σ}
    (h : driverCoreProbe registry devices s = .ok bound s') :
    Binds (devices.flatMap (matching registry.drivers)) s bound s' := probeDevices_binds h

end

end FunnyOS.Devices
