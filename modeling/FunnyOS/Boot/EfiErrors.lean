import FunnyOS.Lib.Unless
import FunnyOS.Boot.DevicePathWalk
import FunnyOS.Boot.Efi
import FunnyOS.Boot.LoadedKernel

/-!
# The failures that the loader knows

`EFI_ERROR` looks at the highest bit of a status, as the firmware sets it. The routines of the
loader return small numbers of their own as well, and pass on what the firmware has answered. A
start is sound if no test comes to a value that is neither `EFI_SUCCESS` nor has that bit; the
answers of such a start are described here, and what the steps of a run do to its record.
-/

namespace FunnyOS.Boot

open Prog
open Programs (littleEndian)

/-! ## Sound starts -/

/-- A status that the tests take for what it is. -/
def Known (status : EfiStatus) : Prop := status = efiSuccess ∨ efiError status = true

/-- Every failure that is tested is known for one. -/
def FailuresSeen (events : List BootEvent) : Prop :=
  ∀ status, .tested status ∈ events → status ≠ efiSuccess → efiError status = true

/-- The kernel is entered, and the VGA text mode given up, only when the routines before have
returned `EFI_SUCCESS`, and every failure of a routine is known for one. -/
structure StartsSoundly (events : List BootEvent) : Prop where
  loaded : ∀ entry, .entered entry ∈ events →
    .returned .loadKernelElf efiSuccess ∈ events ∧
      .returned .gatherBootDeviceInfo efiSuccess ∈ events ∧
      .returned .gatherBlockInfo efiSuccess ∈ events
  cleared : .vgaCleared ∈ events → .returned .gatherGraphicsInfo efiSuccess ∈ events
  seen : FailuresSeen events

/-! ## The answers of a sound start -/

/-- A pixel format that the kernel can draw in. -/
def ModeInformation.Supported (info : ModeInformation) : Prop :=
  info.pixelFormat = 0 ∨ info.pixelFormat = 1 ∨
    info.pixelFormat = 2 ∧ info.greenMask = 0x0000FF00 ∧
      (info.redMask = 0x000000FF ∧ info.blueMask = 0x00FF0000 ∨
        info.redMask = 0x00FF0000 ∧ info.blueMask = 0x000000FF)

/-- What an output answers about a mode. -/
def GraphicsOutput.offer (gop : GraphicsOutput) (mode : Nat) : Option (Nat × ModeInformation) :=
  ((gop.queryMode mode).2.filter fun _ => !efiError (gop.queryMode mode).1).map (mode, ·)

/-- The modes that an output offers. -/
def GraphicsOutput.offered (gop : GraphicsOutput) (maxMode : Nat) : List (Nat × ModeInformation) :=
  (List.range maxMode).filterMap gop.offer

/-- The mode with the largest picture of those that are small enough, or, where none of them is,
the one with the smallest picture of all; of several ones the first. -/
def BestMode (modes : List (Nat × ModeInformation)) (mode : Nat) : Prop :=
  ∃ info, (mode, info) ∈ modes ∧
    if ∃ other ∈ modes, other.2.preferred = true then
      info.preferred = true ∧ ∀ other ∈ modes, other.2.preferred = true →
        other.2.area < info.area ∨ other.2.area = info.area ∧ mode ≤ other.1
    else ∀ other ∈ modes, info.area < other.2.area ∨ other.2.area = info.area ∧ mode ≤ other.1

/-- A `Mode` that the kernel can be given. -/
def FrameSound (settled : Option GraphicsMode) : Prop :=
  ∃ mode info, settled = some mode ∧ mode.info = some info ∧ unusableFrame mode info = false ∧
    info.Supported

/-- The output has a best mode and either refuses it with an error or settles in it; and it offers
no mode in a format that is not supported. -/
def GraphicsOutput.Sound (gop : GraphicsOutput) (current : GraphicsMode) : Prop :=
  (∀ mode ∈ gop.offered current.maxMode, mode.2.Supported) ∧ gop.offered current.maxMode ≠ [] ∧
    ∀ mode, BestMode (gop.offered current.maxMode) mode →
      if current.mode = mode then FrameSound (some current)
      else efiError (gop.setMode mode).1 = true ∨
        (gop.setMode mode).1 = efiSuccess ∧ FrameSound (gop.setMode mode).2

/-- The outputs that the loader is told of. -/
def GraphicsAnswers.outputs (answers : GraphicsAnswers) :
    List (EfiStatus × Option GraphicsOutput) :=
  answers.consoleOutput ::
    if efiError answers.handleBuffer.1 then [] else answers.handleBuffer.2.getD []

/-- The first output that can be taken is sound; where there is none, the firmware has said so with
an error. -/
def GraphicsAnswers.Sound (answers : GraphicsAnswers) : Prop :=
  match answers.outputs.findSome? usableOutput with
  | none => efiError answers.handleBuffer.1 = true
  | some gop => ∀ current ∈ gop.mode, gop.Sound current

/-- A path that ends in the capacity. -/
def PathFits (memory : Nat → UInt8) (nodes : List (List UInt8)) : Prop :=
  ∃ last, PathNodes memory 0 nodes last ∧
    last + devicePathLength memory last ≤ bootinfoDevicePathCapacity

/-- If the node is that of a hard drive, its partition begins at a 32-bit number. -/
def PartitionSound (node : List UInt8) : Prop :=
  node.getD 0 0 = devicePathTypeMedia → node.getD 1 0 = devicePathSubtypeHarddrive →
    hardDriveDevicePathSize ≤ node.length → littleEndian node 8 8 ≤ 0xFFFFFFFF

/-- The path of the device is refused with an error, or there is one that fits. -/
def PathSound (devicePath : EfiStatus × Option (Nat → UInt8)) : Prop :=
  efiError devicePath.1 = true ∨ ∃ memory nodes, devicePath.2 = some memory ∧
    PathFits memory nodes ∧ ∀ node ∈ nodes, PartitionSound node

/-- The block device is refused with an error, or there is one; that there is none is no failure
where the status is `EFI_SUCCESS`. -/
def BlockSound (blockIo : EfiStatus × Option (Option BlockMedia)) : Prop :=
  Known blockIo.1 ∨ blockIo.2.join.isSome = true

/-- The kernel file is read. -/
def FileAnswers.Read (file : FileAnswers) : Prop :=
  efiError file.openFile = false ∧ efiError file.allocateInfo = false ∧
    (if file.getInfo = efiBufferTooSmall then
      efiError file.allocateInfoAgain = false ∧ efiError file.getInfoAgain = false
    else efiError file.getInfo = false) ∧
    efiError file.allocateData = false ∧ efiError file.read = false

/-- The kernel is read from the device. -/
def BootAnswers.Reads (answers : BootAnswers) (device : DeviceAnswers) : Prop :=
  efiError answers.loadedImage.1 = false ∧ answers.loadedImage.2 = some (some device) ∧
    efiError device.fileSystem = false ∧ efiError device.openVolume = false ∧
    device.kernelFile.Read

/-- The memory with the kernel file. -/
def FileAnswers.placed (file : FileAnswers) (memory : Nat → UInt8) : Nat → UInt8 :=
  file.image.filled file.bytes memory

/-- If a kernel is read, it can be loaded, and where there is room for the boot information, the
outputs, the path of the device and the block device are sound; the block device only needs to be
if the path is not refused. -/
def BootAnswers.Sound (answers : BootAnswers) (memory : Nat → UInt8) : Prop :=
  ∀ device, answers.Reads device →
    device.kernelFile.image.Loads answers.segments (device.kernelFile.placed memory) ∧
      (efiError answers.bootInfoPool = false →
        answers.graphics.Sound ∧ PathSound device.devicePath ∧
          (efiError device.devicePath.1 = false → BlockSound device.blockIo))

/-! ## What a run does to its record -/

/-- A text or a test. -/
def BootEvent.quiet : BootEvent → Bool
  | .put _ => true
  | .tested _ => true
  | _ => false

/-- Between the states nothing has happened but texts and tests, and every failure is known. -/
structure Quiet (s s' : BootState) : Prop where
  events : ∃ new, s'.events = new ++ s.events ∧ ∀ event ∈ new, event.quiet = true
  seen : FailuresSeen s.events → FailuresSeen s'.events

/-- A failure has not been known for one, which the answers `sound` exclude. -/
def Incident (sound : Prop) (s : BootState) : Prop := ¬ FailuresSeen s.events ∧ ¬ sound

variable {sound C : Prop} {s s₁ s' : BootState} {status : EfiStatus} {event : BootEvent}

theorem Quiet.refl : Quiet s s := ⟨⟨[], rfl, fun _ h => absurd h List.not_mem_nil⟩, id⟩

theorem Quiet.trans (h : Quiet s s₁) (h' : Quiet s₁ s') : Quiet s s' := by
  obtain ⟨new, hnew, hquiet⟩ := h.events
  obtain ⟨new', hnew', hquiet'⟩ := h'.events
  refine ⟨⟨new' ++ new, ?_, ?_⟩, fun hseen => h'.seen (h.seen hseen)⟩
  · rw [hnew', hnew, List.append_assoc]
  · exact List.forall_mem_append.mpr ⟨hquiet', hquiet⟩

theorem Quiet.of_events (h : s'.events = s.events) : Quiet s s' :=
  ⟨⟨[], h, fun _ h => absurd h List.not_mem_nil⟩, fun hseen => h ▸ hseen⟩

theorem Quiet.mem_iff (h : Quiet s s') (hevent : event.quiet = false) :
    event ∈ s'.events ↔ event ∈ s.events := by
  obtain ⟨new, hnew, hquiet⟩ := h.events
  rw [hnew, List.mem_append]
  refine ⟨fun hmem => hmem.resolve_left fun hnew => ?_, .inr⟩
  exact absurd ((hquiet event hnew).symm.trans hevent) (by decide)

theorem failuresSeen_cons {events : List BootEvent} : FailuresSeen (event :: events) ↔
    (∀ status, event = .tested status → Known status) ∧ FailuresSeen events := by
  unfold FailuresSeen Known
  constructor
  · intro h
    refine ⟨fun status hstatus => or_iff_not_imp_left.mpr fun hne => ?_, fun status hmem => ?_⟩
    · exact h status (hstatus ▸ List.mem_cons_self) hne
    · exact h status (List.mem_cons_of_mem _ hmem)
  · rintro ⟨hfirst, hrest⟩ status hmem hne
    rcases List.mem_cons.mp hmem with hstatus | hmem
    · exact (hfirst status hstatus.symm).resolve_left hne
    · exact hrest status hmem hne

theorem logEvent_maintains : Maintains (Incident sound) (logEvent event) :=
  Maintains.modify fun _ h => ⟨fun hseen => h.1 (failuresSeen_cons.mp hseen).2, h.2⟩

theorem puts16_maintains {answers : BootAnswers} {text : String} :
    Maintains (Incident sound) (puts16 answers text) :=
  Maintains.ite (fun _ => logEvent_maintains) fun _ => Maintains.pure

theorem setInfo_maintains {f : LoaderInfo → LoaderInfo} :
    Maintains (Incident sound) (setInfo f) := Maintains.modify fun _ h => h

theorem testStatus_maintains : Maintains (Incident sound) (testStatus status) :=
  Maintains.bind logEvent_maintains fun _ => Maintains.pure

theorem statusOf_maintains {x : Loader Unit} (h : Maintains (Incident sound) x) :
    Maintains (Incident sound) (statusOf x) := by
  refine Maintains.bind (Maintains.attempt h) fun r => ?_
  cases r <;> exact Maintains.pure

theorem puts16_ends {answers : BootAnswers} {text : String} :
    Ends (puts16 answers text) s (fun _ s' => Quiet s s' ∧ s'.kernel = s.kernel)
      (fun _ _ => False) := by
  refine Ends.ite (fun _ => Ends.modify ⟨⟨⟨[.put text], rfl, ?_⟩, fun h => ?_⟩, rfl⟩) fun _ =>
    Ends.pure ⟨.refl, rfl⟩
  · exact fun _ h => List.mem_singleton.mp h ▸ rfl
  · refine failuresSeen_cons.mpr ⟨fun status hstatus => ?_, h⟩
    cases hstatus

/-- A test of a status that is known exactly under a condition which sound answers meet. -/
theorem testStatus_unless (hstatus : Known status ↔ C) (hsound : sound → C) :
    Unless (Incident sound) (testStatus status) s
      (fun failed s' => failed = efiError status ∧ C ∧ Quiet s s') (fun _ _ => False) := by
  refine Unless.modify_bind ?_
  by_cases h : C
  · refine Unless.pure ⟨rfl, h, ⟨⟨[.tested status], rfl, ?_⟩, fun hseen => ?_⟩⟩
    · exact fun _ h => List.mem_singleton.mp h ▸ rfl
    · refine failuresSeen_cons.mpr ⟨fun _ htested => ?_, hseen⟩
      obtain rfl := BootEvent.tested.inj htested
      exact hstatus.mpr h
  · refine Unless.of_incident ⟨fun hseen => h ?_, fun hs => h (hsound hs)⟩ Maintains.pure
    exact hstatus.mp ((failuresSeen_cons.mp hseen).1 status rfl)

/-- What a routine returns. -/
theorem statusOf_unless {x : Loader Unit} {P : EfiStatus → BootState → Prop}
    (h : Unless (Incident sound) x s (fun _ s' => P efiSuccess s') P) :
    Unless (Incident sound) (statusOf x) s P (fun _ _ => False) := by
  refine Unless.bind (Unless.attempt
    (P := fun r s' => caught (fun _ => P efiSuccess s') (fun status => P status s') r) h
    (fun _ _ h => h) fun _ _ h => h) (fun r => ?_) (fun _ _ h => h) fun r s' h => ?_
  · cases r <;> exact Maintains.pure
  · cases r <;> exact Unless.pure h

theorem known_success : Known efiSuccess := .inl rfl

theorem efiError_success : efiError efiSuccess = false := rfl

theorem not_known_one : ¬ Known 1 := by
  unfold Known efiError
  decide

theorem not_known_of_refused (h : Refused status) : ¬ Known status := by
  rcases h with rfl | rfl <;> (unfold Known efiError; decide)

theorem Known.success_iff (h : Known status) : efiError status = false ↔ status = efiSuccess := by
  rcases h with rfl | herror
  · exact ⟨fun _ => rfl, fun _ => rfl⟩
  · rw [herror]
    refine ⟨fun h => absurd h (by decide), fun h => ?_⟩
    subst h
    exact absurd herror (by decide)

end FunnyOS.Boot
