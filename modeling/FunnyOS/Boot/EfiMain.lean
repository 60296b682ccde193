import FunnyOS.Boot.GraphicsMode
import FunnyOS.Boot.KernelImageBounds

/-!
# The runs of the loader

What the other routines of the loader return is followed as for the framebuffer, up to the jump to
the kernel: a run starts it soundly exactly if the answers of the firmware are sound.
-/

namespace FunnyOS.Boot

open Prog
open Programs (littleEndian)

variable {sound C : Prop} {s s₁ s' : BootState} {status : EfiStatus}

/-! ## The device path -/

variable {memory : Nat → UInt8} {offset last : Nat} {nodes : List (List UInt8)}

theorem PathNodes.unique {last' : Nat} {nodes' : List (List UInt8)}
    (h : PathNodes memory offset nodes last) (h' : PathNodes memory offset nodes' last') :
    nodes = nodes' ∧ last = last' := by
  induction h generalizing nodes' last' with
  | last hend =>
    cases h' with
    | last _ => exact ⟨rfl, rfl⟩
    | node hlive _ _ => exact absurd (hend.symm.trans hlive) (by decide)
  | node hlive _ _ ih =>
    cases h' with
    | last hend => exact absurd (hend.symm.trans hlive) (by decide)
    | node _ _ hrest =>
      obtain ⟨rfl, rfl⟩ := ih hrest
      exact ⟨rfl, rfl⟩

theorem PathNodes.length_le (h : PathNodes memory offset nodes last) :
    offset + devicePathNodeSize * nodes.length ≤ last := by
  induction h with
  | last _ => exact le_rfl
  | node _ hlength _ ih =>
    rw [List.length_cons, Nat.mul_succ]
    omega

/-- The loop of `copy_boot_device_path` on a path that fits. -/
theorem measureNodes_ends {info : BootInfo} {fuel : Nat} (h : PathNodes memory offset nodes last)
    (hfits : last + devicePathLength memory last ≤ bootinfoDevicePathCapacity)
    (hfuel : nodes.length < fuel) : Ends (loop (measureNode memory) fuel (offset, offset)) info
      (fun cursor _ => cursor = (last, last)) (fun _ _ => False) := by
  induction h generalizing fuel info with
  | @last offset hend =>
    obtain ⟨fuel, rfl⟩ := Nat.exists_eq_add_one_of_ne_zero (Nat.ne_of_gt (Nat.zero_lt_of_lt hfuel))
    have hdone : Ends (measureNode memory (offset, offset)) info
        (fun r _ => r = .done (offset, offset))
        (fun _ _ => False) := Ends.ite (fun _ => Ends.pure rfl) fun hlive => absurd hend hlive
    refine Ends.bind hdone (fun _ _ h => h) ?_
    rintro _ s' rfl
    exact Ends.pure rfl
  | @node offset last nodes hlive hlength hrest ih =>
    obtain ⟨fuel, rfl⟩ := Nat.exists_eq_add_one_of_ne_zero (Nat.ne_of_gt (Nat.zero_lt_of_lt hfuel))
    have hle := hrest.le
    have hnext : Ends (measureNode memory (offset, offset)) info (fun r _ => r = .again
        (offset + devicePathLength memory offset, offset + devicePathLength memory offset))
        (fun _ _ => False) := by
      refine Ends.ite (fun hend => absurd (hend.symm.trans hlive) (by decide)) fun _ => ?_
      refine Ends.ite (fun hshort => absurd hlength (not_le.mpr hshort)) fun _ => ?_
      refine Ends.ite (fun hlong => absurd hlong ?_) fun _ => Ends.pure rfl
      dsimp only
      omega
    refine Ends.bind hnext (fun _ _ h => h) ?_
    rintro _ s' rfl
    rw [List.length_cons] at hfuel
    exact ih hfits (Nat.lt_of_succ_lt_succ hfuel)

/-- `copy_boot_device_path` fails with 1, and exactly where the path does not fit. -/
theorem copyBootDevicePath_ends {info : BootInfo} : Ends (copyBootDevicePath (some memory)) info
    (fun _ _ => ∃ nodes, PathFits memory nodes)
    (fun status _ => status = 1 ∧ ¬ ∃ nodes, PathFits memory nodes) := by
  by_cases hfits : ∃ nodes, PathFits memory nodes
  · obtain ⟨nodes, last, hnodes, hle⟩ := hfits
    have hlength := hnodes.length_le
    have hsize : devicePathNodeSize = 4 := rfl
    have hcapacity : bootinfoDevicePathCapacity = 128 := rfl
    rw [hsize] at hlength
    have hrounds : nodes.length < 33 := by omega
    refine Ends.bind (measureNodes_ends hnodes hle hrounds) (fun _ _ h => h.elim) ?_
    rintro _ s' rfl
    exact Ends.ite (fun hlong => absurd hle (not_le.mpr hlong)) fun _ =>
      Ends.modify ⟨nodes, last, hnodes, hle⟩
  · have hsat : Sat (copyBootDevicePath (some memory)) info _ _ := copyBootDevicePath_sat
    refine Ends.mono (Ends.of_sat hsat fun s' => ?_) ?_ fun status _ h => ⟨h, hfits⟩
    · have hdefined : Defined (copyBootDevicePath (some memory)) := by
        refine Defined.bind (Defined.loop (fun cursor => ?_) _ _) fun cursor =>
          Defined.ite Defined.raise Defined.modify
        exact Defined.ite Defined.pure (Defined.ite Defined.raise (Defined.ite Defined.raise
          Defined.pure))
      exact hdefined info s'
    · rintro _ info' ⟨nodes, last, hcopied⟩
      refine absurd ⟨nodes, last, hcopied.nodes, ?_⟩ hfits
      rw [← hcopied.size]
      exact hcopied.fits

theorem partitionSound_nodeBytes (hlength : devicePathNodeSize ≤ devicePathLength memory offset) :
    PartitionSound (nodeBytes memory offset (devicePathLength memory offset)) ↔
      (isHardDrive memory offset = true → partitionStart memory offset ≤ 0xFFFFFFFF) := by
  have hbyte : ∀ i < devicePathLength memory offset,
      (nodeBytes memory offset (devicePathLength memory offset)).getD i 0
        = memory (offset + i) := by
    intro i hi
    rw [nodeBytes, List.getD_eq_getElem?_getD, List.getElem?_map, List.getElem?_range hi]
    rfl
  have hsize : (nodeBytes memory offset (devicePathLength memory offset)).length
      = devicePathLength memory offset := by
    rw [nodeBytes, List.length_map, List.length_range]
  have hstart : hardDriveDevicePathSize ≤ devicePathLength memory offset →
      littleEndian (nodeBytes memory offset (devicePathLength memory offset)) 8 8
        = partitionStart memory offset := by
    intro hlong
    have hdrive : hardDriveDevicePathSize = 42 := rfl
    unfold partitionStart littleEndian
    refine congrArg (List.foldr _ 0) (List.ext_getElem ?_ fun i hi _ => ?_)
    · rw [List.length_take, List.length_drop, hsize, List.length_take, List.length_drop,
        List.length_map, List.length_range]
      omega
    · simp [nodeBytes, Nat.add_assoc]
  have hnode : devicePathNodeSize = 4 := rfl
  unfold PartitionSound isHardDrive
  rw [hbyte 0 (by omega), hbyte 1 (by omega), hsize, decide_eq_true_iff]
  constructor
  · rintro h ⟨htype, hsubtype, hlong⟩
    rw [← hstart hlong]
    exact h htype hsubtype hlong
  · intro h htype hsubtype hlong
    rw [hstart hlong]
    exact h ⟨htype, hsubtype, hlong⟩

theorem takePartition_ends : Ends (takePartition memory offset) s
    (fun _ s' => s'.events = s.events ∧
      (isHardDrive memory offset = true → partitionStart memory offset ≤ 0xFFFFFFFF))
    (fun status s' => status = 1 ∧ s'.events = s.events ∧
      ¬ (isHardDrive memory offset = true → partitionStart memory offset ≤ 0xFFFFFFFF)) := by
  unfold takePartition
  generalize partitionStart memory offset = start
  generalize 0xFFFFFFFF = limit
  by_cases hdrive : isHardDrive memory offset = true
  · rw [if_pos hdrive]
    by_cases hlarge : start > limit
    · rw [if_pos hlarge]
      refine Ends.raise ⟨rfl, rfl, fun h => absurd (h hdrive) (not_le.mpr hlarge)⟩
    · rw [if_neg hlarge]
      refine Ends.modify ⟨rfl, fun _ => not_lt.mp hlarge⟩
  · rw [if_neg hdrive]
    exact Ends.pure ⟨rfl, fun h => absurd h hdrive⟩

/-- The loop of `gather_boot_device_info` on a path with an end. -/
theorem readPartitions_ends {fuel : Nat} (h : PathNodes memory offset nodes last)
    (hfuel : nodes.length < fuel) : Ends (loop (readPartition memory) fuel offset) s
      (fun _ s' => s'.events = s.events ∧ ∀ node ∈ nodes, PartitionSound node)
      (fun status s' => status = 1 ∧ s'.events = s.events ∧
        ¬ ∀ node ∈ nodes, PartitionSound node) := by
  induction h generalizing fuel s with
  | @last offset hend =>
    obtain ⟨fuel, rfl⟩ := Nat.exists_eq_add_one_of_ne_zero (Nat.ne_of_gt (Nat.zero_lt_of_lt hfuel))
    have hdone : Ends (readPartition memory offset) s
        (fun r s' => r = .done () ∧ s'.events = s.events) (fun _ _ => False) :=
      Ends.ite (fun _ => Ends.pure ⟨rfl, rfl⟩) fun hlive => absurd hend hlive
    refine Ends.bind hdone (fun _ _ h => h.elim) ?_
    rintro _ s' ⟨rfl, hevents⟩
    exact Ends.pure ⟨hevents, fun _ h => absurd h List.not_mem_nil⟩
  | @node offset last nodes hlive hlength hrest ih =>
    obtain ⟨fuel, rfl⟩ := Nat.exists_eq_add_one_of_ne_zero (Nat.ne_of_gt (Nat.zero_lt_of_lt hfuel))
    rw [List.forall_mem_cons, partitionSound_nodeBytes hlength]
    have hnext : Ends (readPartition memory offset) s
        (fun r s' => r = .again (offset + devicePathLength memory offset) ∧
          s'.events = s.events ∧
          (isHardDrive memory offset = true → partitionStart memory offset ≤ 0xFFFFFFFF))
        (fun status s' => status = 1 ∧ s'.events = s.events ∧
          ¬ (isHardDrive memory offset = true → partitionStart memory offset ≤ 0xFFFFFFFF)) := by
      refine Ends.ite (fun hend => absurd (hend.symm.trans hlive) (by decide)) fun _ => ?_
      refine Ends.ite (fun hshort => absurd hlength (not_le.mpr hshort)) fun _ => ?_
      exact Ends.bind takePartition_ends (fun _ _ h => h) fun _ _ h => Ends.pure ⟨rfl, h⟩
    refine Ends.bind hnext (fun status s' h => ⟨h.1, h.2.1, fun hall => h.2.2 hall.1⟩) ?_
    rintro _ s₁ ⟨rfl, hevents, hfirst⟩
    rw [List.length_cons] at hfuel
    refine Ends.mono (ih (Nat.lt_of_succ_lt_succ hfuel)) ?_ ?_
    · rintro _ s' ⟨hevents', hall⟩
      exact ⟨hevents'.trans hevents, hfirst, hall⟩
    · rintro status s' ⟨hstatus, hevents', hnot⟩
      exact ⟨hstatus, hevents'.trans hevents, fun hall => hnot hall.2⟩

theorem readPartition_maintains : Maintains (Incident sound) (readPartition memory offset) := by
  refine Maintains.ite (fun _ => Maintains.pure) fun _ => Maintains.ite (fun _ => Maintains.raise)
    fun _ => Maintains.bind ?_ fun _ => Maintains.pure
  exact Maintains.ite (fun _ => Maintains.ite (fun _ => Maintains.raise) fun _ =>
    setInfo_maintains) fun _ => Maintains.pure

theorem copyPath_maintains : Maintains (Incident sound) (statusOf (onPart (·.info.toBootInfo)
    (fun s path => { s with info := { s.info with toBootInfo := path } })
    (copyBootDevicePath (some memory)))) :=
  statusOf_maintains (Maintains.onPart fun _ _ h => h)

theorem gatherBootDeviceInfo_maintains {rounds : Nat}
    {devicePath : EfiStatus × Option (Nat → UInt8)} :
    Maintains (Incident sound) (gatherBootDeviceInfo rounds devicePath) := by
  refine Maintains.ite (fun _ => Maintains.raise) fun _ => ?_
  cases devicePath.2 with
  | none => exact Maintains.raise
  | some memory =>
    refine Maintains.bind setInfo_maintains fun _ => Maintains.bind copyPath_maintains fun _ => ?_
    refine Maintains.bind testStatus_maintains fun _ => Maintains.ite (fun _ => Maintains.raise)
      fun _ => ?_
    exact Maintains.loop (fun _ => readPartition_maintains) _ _

/-- What `gather_boot_device_info` returns is an error exactly where the path is refused with
one. -/
theorem gatherBootDeviceInfo_unless {rounds : Nat}
    {devicePath : EfiStatus × Option (Nat → UInt8)} (hsound : sound → PathSound devicePath) :
    Unless (Incident sound) (statusOf (gatherBootDeviceInfo rounds devicePath)) s
      (fun status s' => Judged (PathSound devicePath) s status s' ∧
        efiError status = efiError devicePath.1) (fun _ _ => False) := by
  apply statusOf_unless
  obtain ⟨status, path⟩ := devicePath
  refine Unless.ite (fun herror => Unless.raise ⟨⟨.refl, ?_⟩, rfl⟩) fun hok => ?_
  · exact iff_of_true (.inr herror) (.inl herror)
  have hok := Bool.eq_false_iff.mpr hok
  have hiff : PathSound (status, path) ↔ ∃ memory nodes, path = some memory ∧
      PathFits memory nodes ∧ ∀ node ∈ nodes, PartitionSound node :=
    ⟨fun h => h.resolve_left (Bool.eq_false_iff.mp hok), .inr⟩
  have hone : efiError 1 = efiError status := hok.symm
  cases path with
  | none =>
    refine Unless.raise ⟨⟨.refl, iff_of_false not_known_one fun h => ?_⟩, hone⟩
    obtain ⟨memory, nodes, hnone, -⟩ := hiff.mp h
    cases hnone
  | some memory =>
    refine setInfo_bind_unless fun s₁ h₁ => ?_
    have hcopy : Unless (Incident sound) (statusOf (onPart (·.info.toBootInfo)
        (fun s path => { s with info := { s.info with toBootInfo := path } })
        (copyBootDevicePath (some memory)))) s₁
        (fun status s' => s'.events = s₁.events ∧ (Known status ↔ ∃ nodes, PathFits memory nodes) ∧
          efiError status = false) (fun _ _ => False) := by
      refine statusOf_unless (Unless.of_ends (Ends.onPart
        (Ends.mono copyBootDevicePath_ends ?_ ?_)))
      · exact fun _ _ h => ⟨rfl, iff_of_true known_success h, rfl⟩
      · rintro status _ ⟨rfl, h⟩
        exact ⟨rfl, iff_of_false not_known_one h, rfl⟩
    refine Unless.bind hcopy (fun _ => ?_) (fun _ _ h => h.elim) ?_
    · refine Maintains.bind testStatus_maintains fun _ => Maintains.ite (fun _ => Maintains.raise)
        fun _ => ?_
      exact Maintains.loop (fun _ => readPartition_maintains) _ _
    rintro copied s₂ ⟨hevents, hfits, hnoError⟩
    have h₂ : Quiet s s₂ := h₁.trans (.of_events hevents)
    refine Unless.bind (testStatus_unless hfits fun h => ?_) (fun _ => ?_) (fun _ _ h => h.elim) ?_
    · obtain ⟨_, nodes, hmemory, hfits, -⟩ := hiff.mp (hsound h)
      obtain rfl := Option.some.inj hmemory
      exact ⟨nodes, hfits⟩
    · exact Maintains.ite (fun _ => Maintains.raise) fun _ =>
        Maintains.loop (fun _ => readPartition_maintains) _ _
    rintro failed s₃ ⟨rfl, ⟨nodes, hfits⟩, h₃⟩
    have h₃ := h₂.trans h₃
    rw [if_neg (Bool.eq_false_iff.mp hnoError)]
    have hpath : PathSound (status, some memory) ↔ ∀ node ∈ nodes, PartitionSound node := by
      rw [hiff]
      constructor
      · rintro ⟨_, nodes', hmemory, ⟨last', hnodes', -⟩, hall⟩
        obtain rfl := Option.some.inj hmemory
        obtain ⟨last, hnodes, -⟩ := hfits
        obtain ⟨rfl, -⟩ := hnodes.unique hnodes'
        exact hall
      · exact fun h => ⟨memory, nodes, rfl, hfits, h⟩
    rw [hpath]
    obtain ⟨last, hnodes, hle⟩ := hfits
    have hlength := hnodes.length_le
    have hsize : devicePathNodeSize = 4 := rfl
    have hcapacity : bootinfoDevicePathCapacity = 128 := rfl
    have hrounds : pathRounds = 33 := rfl
    rw [hsize] at hlength
    refine Unless.of_ends (Ends.mono (readPartitions_ends hnodes (by omega)) ?_ ?_)
    · rintro _ s' ⟨hevents, hall⟩
      exact ⟨⟨h₃.trans (.of_events hevents), iff_of_true known_success hall⟩, hone⟩
    · rintro _ s' ⟨rfl, hevents, hnot⟩
      exact ⟨⟨h₃.trans (.of_events hevents), iff_of_false not_known_one hnot⟩, hone⟩

/-! ## The block device -/

theorem gatherBlockInfo_unless {blockIo : EfiStatus × Option (Option BlockMedia)} :
    Unless (Incident sound) (statusOf (gatherBlockInfo blockIo)) s
      (Judged (BlockSound blockIo) s) (fun _ _ => False) := by
  apply statusOf_unless
  obtain ⟨status, media⟩ := blockIo
  refine Unless.ite (fun herror => Unless.raise ⟨.refl, ?_⟩) fun _ => ?_
  · exact iff_of_true (.inr herror) (.inl (.inr herror))
  unfold BlockSound
  cases hmedia : media.join with
  | none =>
    refine Unless.raise ⟨.refl, fun h => .inl h, fun h => h.resolve_right fun hsome => ?_⟩
    cases hsome
  | some found =>
    refine Unless.modify ⟨.of_events rfl, iff_of_true known_success (.inr rfl)⟩

theorem gatherBlockInfo_maintains {blockIo : EfiStatus × Option (Option BlockMedia)} :
    Maintains (Incident sound) (gatherBlockInfo blockIo) := by
  refine Maintains.ite (fun _ => Maintains.raise) fun _ => ?_
  cases blockIo.2.join with
  | none => exact Maintains.raise
  | some media => exact setInfo_maintains

/-! ## The kernel file -/

variable {answers : BootAnswers} {device : DeviceAnswers}

/-- A text before what a run goes on with. -/
theorem puts16_bind_ends {α : Type} {text : String} {x : Unit → Loader α}
    {Q : α → BootState → Prop} {E : EfiStatus → BootState → Prop}
    (h : ∀ s', Quiet s s' → s'.kernel = s.kernel → Ends (x ()) s' Q E) :
    Ends (puts16 answers text >>= x) s Q E :=
  Ends.bind puts16_ends (fun _ _ h => h.elim) fun _ s' hs' => h s' hs'.1 hs'.2

/-- A run that fails where something has been refused. -/
theorem refuse_ends {α : Type} {P : Prop} {text : String} {Q : α → BootState → Prop} (h : ¬ P) :
    Ends (do puts16 answers text; raise status : Loader α) s Q (fun _ s' => ¬ P ∧ Quiet s s') :=
  puts16_bind_ends fun _ hquiet _ => Ends.raise ⟨h, hquiet⟩

theorem readInfo_ends {file : FileAnswers} : Ends (readInfo file) s
    (fun status s' => s' = s ∧ (efiError status = false ↔
      if file.getInfo = efiBufferTooSmall then
        efiError file.allocateInfoAgain = false ∧ efiError file.getInfoAgain = false
      else efiError file.getInfo = false))
    (fun _ s' => s' = s ∧ ¬ if file.getInfo = efiBufferTooSmall then
        efiError file.allocateInfoAgain = false ∧ efiError file.getInfoAgain = false
      else efiError file.getInfo = false) := by
  refine Ends.ite (fun hsmall => ?_) fun hbig => ?_
  · rw [if_pos hsmall]
    refine Ends.ite (fun herror => Ends.raise ⟨rfl, fun h => ?_⟩) fun hok => Ends.pure ⟨rfl, ?_⟩
    · exact absurd (herror.symm.trans h.1) (by decide)
    · exact ⟨fun h => ⟨Bool.eq_false_iff.mpr hok, h⟩, fun h => h.2⟩
  · rw [if_neg hbig]
    exact Ends.pure ⟨rfl, Iff.rfl⟩

theorem readFile_ends {file : FileAnswers} : Ends (readFile answers file) s
    (fun image s' => file.Read ∧ image = file.image ∧ Quiet s s' ∧
      s'.kernel = { s.kernel with memory := file.placed s.kernel.memory })
    (fun _ s' => ¬ file.Read ∧ Quiet s s') := by
  refine Ends.ite (fun herror => refuse_ends fun hread => ?_) fun hopen => ?_
  · exact absurd (herror.symm.trans hread.1) (by decide)
  refine Ends.ite (fun herror => Ends.raise ⟨fun hread => ?_, .refl⟩) fun hinfo => ?_
  · exact absurd (herror.symm.trans hread.2.1) (by decide)
  refine Ends.bind readInfo_ends ?_ ?_
  · rintro status _ ⟨rfl, hnot⟩
    exact ⟨fun hread => hnot hread.2.2.1, .refl⟩
  rintro status _ ⟨rfl, hstatus⟩
  refine Ends.ite (fun herror => refuse_ends fun hread => ?_) fun hgot => ?_
  · exact absurd (herror.symm.trans (hstatus.mpr hread.2.2.1)) (by decide)
  refine Ends.ite (fun herror => Ends.raise ⟨fun hread => ?_, .refl⟩) fun hdata => ?_
  · exact absurd (herror.symm.trans hread.2.2.2.1) (by decide)
  refine Ends.ite (fun herror => refuse_ends fun hread => ?_) fun hread => ?_
  · exact absurd (herror.symm.trans hread.2.2.2.2) (by decide)
  · refine Ends.modify_bind (Ends.pure ⟨⟨Bool.eq_false_iff.mpr hopen, Bool.eq_false_iff.mpr hinfo,
      ?_, ?_, ?_⟩, rfl, .of_events rfl, rfl⟩)
    · exact hstatus.mp (Bool.eq_false_iff.mpr hgot)
    · exact Bool.eq_false_iff.mpr hdata
    · exact Bool.eq_false_iff.mpr hread

theorem readKernel_ends : Ends (readKernel answers) s
    (fun r s' => answers.Reads r.1 ∧ r.2 = r.1.kernelFile.image ∧ Quiet s s' ∧
      s'.kernel = { s.kernel with memory := r.1.kernelFile.placed s.kernel.memory })
    (fun _ s' => (∀ device, ¬ answers.Reads device) ∧ Quiet s s') := by
  refine puts16_bind_ends fun s₁ h₁ k₁ => ?_
  refine Ends.ite (fun herror => Ends.raise ⟨fun device hreads => ?_, h₁⟩) fun himage => ?_
  · exact absurd (herror.symm.trans hreads.1) (by decide)
  refine puts16_bind_ends fun s₂ h₂ k₂ => ?_
  have h₂ := h₁.trans h₂
  cases hdevice : answers.loadedImage.2.join with
  | none =>
    refine Ends.raise ⟨fun device hreads => ?_, h₂⟩
    rw [hreads.2.1] at hdevice
    cases hdevice
  | some device =>
    have hloaded : answers.loadedImage.2 = some (some device) := Option.join_eq_some_iff.mp hdevice
    have honly : ∀ {device'}, answers.Reads device' → device' = device := fun hreads =>
      Option.some.inj (Option.some.inj (hreads.2.1.symm.trans hloaded))
    refine Ends.ite (fun herror => Ends.raise ⟨fun device' hreads => ?_, h₂⟩) fun hsystem => ?_
    · obtain rfl := honly hreads
      exact absurd (herror.symm.trans hreads.2.2.1) (by decide)
    refine puts16_bind_ends fun s₃ h₃ k₃ => ?_
    have h₃ := h₂.trans h₃
    refine Ends.ite (fun herror => Ends.raise ⟨fun device' hreads => ?_, h₃⟩) fun hvolume => ?_
    · obtain rfl := honly hreads
      exact absurd (herror.symm.trans hreads.2.2.2.1) (by decide)
    refine puts16_bind_ends fun s₄ h₄ k₄ => ?_
    have h₄ := h₃.trans h₄
    have hkernel : s₄.kernel = s.kernel := by rw [k₄, k₃, k₂, k₁]
    refine Ends.bind (F := fun _ _ => False) (Ends.attempt (P := fun r s' => caught
      (fun image => device.kernelFile.Read ∧ image = device.kernelFile.image ∧ Quiet s₄ s' ∧
        s'.kernel = { s₄.kernel with memory := device.kernelFile.placed s₄.kernel.memory })
      (fun _ => ¬ device.kernelFile.Read ∧ Quiet s₄ s') r)
      readFile_ends (fun _ _ h => h) fun _ _ h => h) (fun _ _ h => h.elim) ?_
    rintro (status | image) s₅ h₅
    · refine puts16_bind_ends fun s₆ h₆ _ => Ends.raise ⟨fun device' hreads => ?_, ?_⟩
      · obtain rfl := honly hreads
        exact h₅.1 hreads.2.2.2.2
      · exact (h₄.trans h₅.2).trans h₆
    · obtain ⟨hread, rfl, h₅, k₅⟩ := h₅
      refine puts16_bind_ends fun s₆ h₆ k₆ => Ends.pure ⟨?_, rfl, (h₄.trans h₅).trans h₆, ?_⟩
      · exact ⟨Bool.eq_false_iff.mpr himage, hloaded, Bool.eq_false_iff.mpr hsystem,
          Bool.eq_false_iff.mpr hvolume, hread⟩
      · rw [k₆, k₅, hkernel]

/-! ## The call of the loader -/

theorem callLoadKernelElf_ends {image : KernelImage} (hgranted : s.kernel.granted = []) :
    Ends (callLoadKernelElf answers image) s
      (fun r s' => s'.events = .returned .loadKernelElf r.1 :: s.events ∧
        (Known r.1 ↔ image.Loads answers.segments s.kernel.memory) ∧ efiError r.1 = false)
      (fun _ _ => False) := by
  refine Ends.bind (F := fun _ _ => False) (Ends.attempt
    (P := fun r s' => s'.events = s.events ∧
      caught (fun _ => image.Loads answers.segments s.kernel.memory)
        (fun status => ¬ image.Loads answers.segments s.kernel.memory ∧ Refused status) r)
    (Ends.onPart (Ends.mono (loadKernelElf_ends hgranted) (fun _ _ h => ⟨rfl, h.1⟩)
      fun _ _ h => ⟨rfl, h.1, h.2.2⟩)) (fun _ _ h => h) fun _ _ h => h) (fun _ _ h => h.elim) ?_
  rintro (status | entry) s' ⟨hevents, hloads⟩
  · refine Ends.modify_bind (Ends.pure ⟨congrArg _ hevents, ?_, ?_⟩)
    · exact iff_of_false (not_known_of_refused hloads.2) hloads.1
    · rcases hloads.2 with rfl | rfl <;> rfl
  · exact Ends.modify_bind (Ends.pure ⟨congrArg _ hevents, iff_of_true known_success hloads,
      efiError_success⟩)

theorem callLoadKernelElf_maintains {image : KernelImage} :
    Maintains (Incident sound) (callLoadKernelElf answers image) := by
  refine Maintains.bind (Maintains.attempt (Maintains.onPart fun _ _ h => h)) fun r => ?_
  cases r <;> exact Maintains.bind logEvent_maintains fun _ => Maintains.pure

/-! ## The start of the kernel -/

/-- A run that is still going on. -/
structure Running (s : BootState) : Prop where
  notEntered : ∀ entry, .entered entry ∉ s.events
  cleared : .vgaCleared ∈ s.events → .returned .gatherGraphicsInfo efiSuccess ∈ s.events
  seen : FailuresSeen s.events

theorem Running.starts (h : Running s) : StartsSoundly s.events :=
  ⟨fun entry hentered => absurd hentered (h.notEntered entry), h.cleared, h.seen⟩

theorem Running.quiet (h : Running s) (hquiet : Quiet s s') : Running s' := by
  refine ⟨fun entry hentered => h.notEntered entry ((hquiet.mem_iff rfl).mp hentered),
    fun hcleared => ?_, hquiet.seen h.seen⟩
  exact (hquiet.mem_iff rfl).mpr (h.cleared ((hquiet.mem_iff rfl).mp hcleared))

theorem Running.returned {routine : BootRoutine} (h : Running s)
    (hevents : s'.events = .returned routine status :: s.events) : Running s' := by
  constructor
  · intro entry hentered
    rw [hevents] at hentered
    exact h.notEntered entry ((List.mem_cons.mp hentered).resolve_left (by simp))
  · intro hcleared
    rw [hevents] at hcleared ⊢
    exact List.mem_cons_of_mem _ (h.cleared ((List.mem_cons.mp hcleared).resolve_left (by simp)))
  · rw [hevents]
    refine failuresSeen_cons.mpr ⟨fun _ htested => ?_, h.seen⟩
    cases htested

theorem callRoutine_maintains {routine : BootRoutine} {x : Loader EfiStatus}
    (h : Maintains (Incident sound) x) : Maintains (Incident sound) (callRoutine routine x) :=
  Maintains.bind h fun _ => Maintains.bind logEvent_maintains fun _ => Maintains.pure

/-- The call of a routine whose status is known exactly under a condition which sound answers meet,
and the test of what it has returned. -/
theorem callRoutine_unless {routine : BootRoutine} {x : Loader EfiStatus} {α : Type}
    {f : EfiStatus → Bool → Loader α} {P : EfiStatus → Prop} {Q : α → BootState → Prop}
    {E : EfiStatus → BootState → Prop} (hrun : Running s)
    (hx : Unless (Incident sound) x s (fun status s' => Judged C s status s' ∧ P status)
      fun _ _ => False)
    (hsound : sound → C) (hf : ∀ status failed, Maintains (Incident sound) (f status failed))
    (h : ∀ status s', C → Known status → P status → Running s' →
      .returned routine status ∈ s'.events →
      (∀ other, .returned other efiSuccess ∈ s.events →
        .returned other efiSuccess ∈ s'.events) →
      Unless (Incident sound) (f status (efiError status)) s' Q E) :
    Unless (Incident sound) (do
      let status ← callRoutine routine x
      let failed ← testStatus status
      f status failed) s Q E := by
  have hcall : Unless (Incident sound) (callRoutine routine x) s (fun status s' =>
      (Known status ↔ C) ∧ P status ∧ Running s' ∧ .returned routine status ∈ s'.events ∧
        ∀ other, .returned other efiSuccess ∈ s.events →
          .returned other efiSuccess ∈ s'.events) (fun _ _ => False) := by
    refine Unless.bind hx (fun _ => Maintains.bind logEvent_maintains fun _ => Maintains.pure)
      (fun _ _ h => h) ?_
    rintro status s₁ ⟨⟨hquiet, hknown⟩, hP⟩
    refine Unless.modify_bind (Unless.pure ⟨hknown, hP, (hrun.quiet hquiet).returned rfl,
      List.mem_cons_self, fun other hother => ?_⟩)
    exact List.mem_cons_of_mem _ ((hquiet.mem_iff rfl).mpr hother)
  refine Unless.bind hcall (fun _ => Maintains.bind testStatus_maintains fun _ => hf _ _)
    (fun _ _ h => h.elim) ?_
  rintro status s₁ ⟨hknown, hP, hrun₁, hreturned, hothers⟩
  refine Unless.bind (testStatus_unless hknown hsound) (fun _ => hf _ _) (fun _ _ h => h.elim) ?_
  rintro failed s₂ ⟨rfl, hmet, hquiet⟩
  refine h status s₂ hmet (hknown.mpr hmet) hP (hrun₁.quiet hquiet)
    ((hquiet.mem_iff rfl).mpr hreturned) fun other hother => ?_
  exact (hquiet.mem_iff rfl).mpr (hothers other hother)

theorem exitBootServicesWithMap_maintains {exits : Nat → ExitAnswers} {left : Nat} :
    Maintains (Incident sound) (exitBootServicesWithMap exits left status) := by
  induction left generalizing status with
  | zero => exact Maintains.pure
  | succ left ih =>
    refine Maintains.ite (fun _ => Maintains.pure) fun _ => Maintains.ite (fun _ => Maintains.pure)
      fun _ => Maintains.bind setInfo_maintains fun _ => ?_
    exact Maintains.ite (fun _ => Maintains.pure) fun _ => ih

theorem exitBootServicesWithMap_ends {exits : Nat → ExitAnswers} {left : Nat} :
    Ends (exitBootServicesWithMap exits left status) s (fun _ s' => s'.events = s.events)
      (fun _ _ => False) := by
  induction left generalizing status s with
  | zero => exact Ends.pure rfl
  | succ left ih =>
    refine Ends.ite (fun _ => Ends.pure rfl) fun _ => Ends.ite (fun _ => Ends.pure rfl)
      fun _ => Ends.modify_bind (Ends.ite (fun _ => Ends.pure rfl) fun _ => ?_)
    exact Ends.mono ih (fun _ _ h => h) fun _ _ h => h

theorem storeConsole_ends : Ends (storeConsole answers) s (fun _ s' => Quiet s s')
    (fun _ _ => False) := by
  unfold storeConsole
  generalize queryConsole answers = answer
  obtain ⟨status, columns, rows⟩ := answer
  exact Ends.ite (fun _ => Ends.pure .refl) fun _ => Ends.modify (.of_events rfl)

theorem storeConsole_maintains : Maintains (Incident sound) (storeConsole answers) := by
  unfold storeConsole
  generalize queryConsole answers = answer
  obtain ⟨status, columns, rows⟩ := answer
  exact Maintains.ite (fun _ => Maintains.pure) fun _ => setInfo_maintains

theorem takeGraphics_maintains {graphics : GraphicsAnswers} :
    Maintains (Incident sound) (takeGraphics graphics) := by
  refine Maintains.bind (callRoutine_maintains (statusOf_maintains gatherGraphicsInfo_maintains))
    fun _ => Maintains.bind testStatus_maintains fun _ => Maintains.ite (fun _ => Maintains.pure)
      fun _ => ?_
  exact Maintains.bind setInfo_maintains fun _ => logEvent_maintains

theorem takeGraphics_unless {graphics : GraphicsAnswers} (hrun : Running s)
    (hloaded : .returned .loadKernelElf efiSuccess ∈ s.events) (hsound : sound → graphics.Sound) :
    Unless (Incident sound) (takeGraphics graphics) s
      (fun _ s' => graphics.Sound ∧ Running s' ∧
        .returned .loadKernelElf efiSuccess ∈ s'.events) (fun _ _ => False) := by
  refine callRoutine_unless (C := graphics.Sound) (P := fun _ => True) hrun
    (Unless.mono (gatherGraphicsInfo_unless hsound) (fun _ _ h => ⟨h, trivial⟩) fun _ _ h => h)
    hsound (fun _ _ => Maintains.ite (fun _ => Maintains.pure) fun _ =>
      Maintains.bind setInfo_maintains fun _ => logEvent_maintains) ?_
  intro status s₁ hmet hknown _ hrun₁ hreturned hothers
  refine Unless.ite (fun _ => Unless.pure ⟨hmet, hrun₁, hothers _ hloaded⟩) fun hok => ?_
  obtain rfl := hknown.success_iff.mp (Bool.eq_false_iff.mpr hok)
  refine Unless.modify_bind (Unless.modify ⟨hmet, ⟨fun entry hentered => ?_, fun _ => ?_, ?_⟩, ?_⟩)
  · exact hrun₁.notEntered entry ((List.mem_cons.mp hentered).resolve_left (by simp))
  · exact List.mem_cons_of_mem _ hreturned
  · refine failuresSeen_cons.mpr ⟨fun _ htested => ?_, hrun₁.seen⟩
    cases htested
  · exact List.mem_cons_of_mem _ (hothers _ hloaded)

theorem gatherAcpiInfo_ends {configuration : Option (List ConfigurationTable)} :
    Ends (gatherAcpiInfo configuration) s (fun _ s' => Quiet s s') (fun _ s' => Quiet s s') := by
  unfold gatherAcpiInfo
  split
  · exact Ends.raise .refl
  · split
    · exact Ends.modify (.of_events rfl)
    · split
      · exact Ends.modify (.of_events rfl)
      · exact Ends.raise .refl

/-- The kernel is entered only here. -/
theorem enterKernel_ends {entry : Nat} (hrun : Running s)
    (hloaded : .returned .loadKernelElf efiSuccess ∈ s.events)
    (hdevice : .returned .gatherBootDeviceInfo efiSuccess ∈ s.events)
    (hblock : .returned .gatherBlockInfo efiSuccess ∈ s.events) :
    Ends (enterKernel answers entry) s (fun _ s' => StartsSoundly s'.events)
      (fun _ s' => StartsSoundly s'.events) := by
  have hacpi : Ends (statusOf (gatherAcpiInfo answers.configuration)) s
      (fun _ s' => Quiet s s') (fun _ _ => False) := by
    refine Ends.bind (Ends.attempt (P := fun _ s' => Quiet s s') gatherAcpiInfo_ends
      (fun _ _ h => h) fun _ _ h => h) (fun _ _ h => h) fun r s₁ h => ?_
    cases r <;> exact Ends.pure h
  refine Ends.bind hacpi (fun _ _ h => h.elim) fun _ s₁ h₁ => ?_
  refine puts16_bind_ends fun s₂ h₂ _ => ?_
  refine Ends.bind exitBootServicesWithMap_ends (fun _ _ h => h.elim) fun status s₃ h₃ => ?_
  have hquiet : Quiet s s₃ := (h₁.trans h₂).trans (.of_events h₃)
  have hrun₃ := hrun.quiet hquiet
  refine Ends.ite (fun _ => Ends.raise hrun₃.starts) fun _ => Ends.modify_bind (Ends.pure ?_)
  refine ⟨fun _ _ => ⟨?_, ?_, ?_⟩, fun hcleared => ?_, ?_⟩
  · exact List.mem_cons_of_mem _ ((hquiet.mem_iff rfl).mpr hloaded)
  · exact List.mem_cons_of_mem _ ((hquiet.mem_iff rfl).mpr hdevice)
  · exact List.mem_cons_of_mem _ ((hquiet.mem_iff rfl).mpr hblock)
  · refine List.mem_cons_of_mem _ (hrun₃.cleared ?_)
    exact (List.mem_cons.mp hcleared).resolve_left (by simp)
  · refine failuresSeen_cons.mpr ⟨fun _ htested => ?_, hrun₃.seen⟩
    cases htested

theorem enterKernel_maintains {entry : Nat} :
    Maintains (Incident sound) (enterKernel answers entry) := by
  refine Maintains.bind (statusOf_maintains ?_) fun _ => Maintains.bind puts16_maintains fun _ =>
    Maintains.bind exitBootServicesWithMap_maintains fun _ =>
      Maintains.ite (fun _ => Maintains.raise) fun _ =>
        Maintains.bind logEvent_maintains fun _ => Maintains.pure
  unfold gatherAcpiInfo
  split
  · exact Maintains.raise
  · split
    · exact setInfo_maintains
    · split
      · exact setInfo_maintains
      · exact Maintains.raise

/-- From the boot information on, a run is sound if the answers are that it then gets. -/
theorem startKernel_unless {rounds entry : Nat} (hrun : Running s)
    (hloaded : .returned .loadKernelElf efiSuccess ∈ s.events)
    (hsound : sound ↔ answers.graphics.Sound ∧ PathSound device.devicePath ∧
      (efiError device.devicePath.1 = false → BlockSound device.blockIo)) :
    Unless (Incident sound) (startKernel answers rounds device entry) s
      (fun _ s' => sound ∧ StartsSoundly s'.events)
      (fun _ s' => sound ∧ StartsSoundly s'.events) := by
  have hblockEnd : ∀ (status : EfiStatus) (failed : Bool), Maintains (Incident sound)
      (if failed then raise status else enterKernel answers entry) := fun status failed =>
    Maintains.ite (fun _ => Maintains.raise) fun _ => enterKernel_maintains
  have hdeviceEnd : ∀ (status : EfiStatus) (failed : Bool), Maintains (Incident sound)
      (if failed then raise status
        else do
          let status ← callRoutine .gatherBlockInfo (statusOf (gatherBlockInfo device.blockIo))
          if ← testStatus status then raise status
          else enterKernel answers entry : Loader EfiStatus) := fun status failed => by
    refine Maintains.ite (fun _ => Maintains.raise) fun _ => ?_
    refine Maintains.bind (callRoutine_maintains (statusOf_maintains gatherBlockInfo_maintains))
      fun _ => Maintains.bind testStatus_maintains fun _ => hblockEnd _ _
  have hdeviceCall : Maintains (Incident sound) (callRoutine .gatherBootDeviceInfo
      (statusOf (gatherBootDeviceInfo rounds device.devicePath))) :=
    callRoutine_maintains (statusOf_maintains gatherBootDeviceInfo_maintains)
  refine setInfo_bind_unless fun s₁ h₁ => ?_
  refine Unless.bind (Unless.of_ends storeConsole_ends) (fun _ => ?_) (fun _ _ h => h.elim) ?_
  · exact Maintains.bind takeGraphics_maintains fun _ => Maintains.bind hdeviceCall fun _ =>
      Maintains.bind testStatus_maintains fun _ => hdeviceEnd _ _
  rintro _ s₂ h₂
  have h₂ := h₁.trans h₂
  refine Unless.bind (takeGraphics_unless (hrun.quiet h₂) ((h₂.mem_iff rfl).mpr hloaded)
    fun h => (hsound.mp h).1) (fun _ => ?_) (fun _ _ h => h.elim) ?_
  · exact Maintains.bind hdeviceCall fun _ => Maintains.bind testStatus_maintains fun _ =>
      hdeviceEnd _ _
  rintro _ s₃ ⟨hgraphics, hrun₃, hloaded₃⟩
  refine callRoutine_unless hrun₃ (gatherBootDeviceInfo_unless fun h => (hsound.mp h).2.1)
    (fun h => (hsound.mp h).2.1) hdeviceEnd ?_
  intro status s₄ hpath hknown herrors hrun₄ hreturned hothers
  refine Unless.ite (fun herror => Unless.raise ⟨hsound.mpr ⟨hgraphics, hpath, fun hok => ?_⟩,
    hrun₄.starts⟩) fun hok => ?_
  · exact absurd (herror.symm.trans (herrors.trans hok)) (by decide)
  have hok := Bool.eq_false_iff.mpr hok
  obtain rfl := hknown.success_iff.mp hok
  have hblockSound : sound → BlockSound device.blockIo := fun h =>
    (hsound.mp h).2.2 (herrors.symm.trans hok)
  refine callRoutine_unless (C := BlockSound device.blockIo) (P := fun _ => True) hrun₄
    (Unless.mono gatherBlockInfo_unless (fun _ _ h => ⟨h, trivial⟩) fun _ _ h => h) hblockSound
    hblockEnd ?_
  intro status s₅ hblock hknown₅ _ hrun₅ hreturned₅ hothers₅
  have hall : sound := hsound.mpr ⟨hgraphics, hpath, fun _ => hblock⟩
  refine Unless.ite (fun _ => Unless.raise ⟨hall, hrun₅.starts⟩) fun hok₅ => ?_
  obtain rfl := hknown₅.success_iff.mp (Bool.eq_false_iff.mpr hok₅)
  refine Unless.of_ends (Ends.mono (enterKernel_ends hrun₅ (hothers₅ _ (hothers _ hloaded₃))
    (hothers₅ _ hreturned) hreturned₅) ?_ ?_)
  · exact fun _ _ h => ⟨hall, h⟩
  · exact fun _ _ h => ⟨hall, h⟩

theorem startKernel_maintains {rounds entry : Nat} :
    Maintains (Incident sound) (startKernel answers rounds device entry) := by
  refine Maintains.bind setInfo_maintains fun _ => Maintains.bind storeConsole_maintains fun _ =>
    Maintains.bind takeGraphics_maintains fun _ => Maintains.bind
      (callRoutine_maintains (statusOf_maintains gatherBootDeviceInfo_maintains)) fun _ => ?_
  refine Maintains.bind testStatus_maintains fun _ => Maintains.ite (fun _ => Maintains.raise)
    fun _ => Maintains.bind (callRoutine_maintains (statusOf_maintains gatherBlockInfo_maintains))
      fun _ => ?_
  exact Maintains.bind testStatus_maintains fun _ => Maintains.ite (fun _ => Maintains.raise)
    fun _ => enterKernel_maintains

/-! ## The whole run -/

/-- The loader has been started by the firmware. -/
def BootState.start (memory : Nat → UInt8) (info : LoaderInfo) : BootState :=
  ⟨.start memory, info, []⟩

theorem running_start {memory : Nat → UInt8} {info : LoaderInfo} :
    Running (.start memory info) :=
  ⟨fun _ h => absurd h List.not_mem_nil, fun h => absurd h List.not_mem_nil,
    fun _ h => absurd h List.not_mem_nil⟩

theorem efiMain_unless {rounds : Nat} (hrun : Running s) (hgranted : s.kernel.granted = []) :
    Unless (Incident (answers.Sound s.kernel.memory)) (efiMain answers rounds) s
      (fun _ s' => answers.Sound s.kernel.memory ∧ StartsSoundly s'.events)
      (fun _ s' => answers.Sound s.kernel.memory ∧ StartsSoundly s'.events) := by
  have hend : ∀ (device : DeviceAnswers) (status : EfiStatus) (entry : Nat) (failed : Bool),
      Maintains (Incident (answers.Sound s.kernel.memory))
        (if failed then refuseKernel answers status
        else do
          puts16 answers "loaded kernel\r\n"
          if efiError answers.bootInfoPool then raise answers.bootInfoPool
          else do
            puts16 answers "allocated bootinfo\r\n"
            startKernel answers rounds device entry : Loader EfiStatus) := by
    intro device status entry failed
    refine Maintains.ite (fun _ => Maintains.bind puts16_maintains fun _ => Maintains.raise)
      fun _ => Maintains.bind puts16_maintains fun _ => ?_
    exact Maintains.ite (fun _ => Maintains.raise) fun _ =>
      Maintains.bind puts16_maintains fun _ => startKernel_maintains
  refine Unless.bind (Unless.of_ends readKernel_ends) ?_ ?_ ?_
  · rintro ⟨device, image⟩
    refine Maintains.bind callLoadKernelElf_maintains fun ⟨status, entry⟩ => ?_
    exact Maintains.bind testStatus_maintains fun _ => hend _ _ _ _
  · rintro status s₁ ⟨hnone, hquiet⟩
    exact ⟨fun device hreads => absurd hreads (hnone device), (hrun.quiet hquiet).starts⟩
  rintro ⟨device, image⟩ s₁ ⟨hreads, himage, h₁, k₁⟩
  have hsame : ∀ {device'}, answers.Reads device' → device' = device := fun hreads' =>
    Option.some.inj (Option.some.inj (hreads'.2.1.symm.trans hreads.2.1))
  dsimp only at himage hreads
  subst himage
  have hgranted₁ : s₁.kernel.granted = [] := by rw [k₁]; exact hgranted
  have hmemory : s₁.kernel.memory = device.kernelFile.placed s.kernel.memory := by rw [k₁]
  refine Unless.bind (Unless.of_ends (callLoadKernelElf_ends hgranted₁)) ?_
    (fun _ _ h => h.elim) ?_
  · rintro ⟨status, entry⟩
    exact Maintains.bind testStatus_maintains fun _ => hend _ _ _ _
  rintro ⟨status, entry⟩ s₂ ⟨hevents, hloads, hok⟩
  rw [hmemory] at hloads
  have hrun₂ := (hrun.quiet h₁).returned hevents
  refine Unless.bind (testStatus_unless hloads fun h => (h device hreads).1) (fun _ => hend _ _ _ _)
    (fun _ _ h => h.elim) ?_
  rintro failed s₃ ⟨rfl, hmet, h₃⟩
  rw [if_neg (Bool.eq_false_iff.mp hok)]
  obtain rfl := (hloads.mpr hmet).success_iff.mp hok
  have hloaded : .returned .loadKernelElf efiSuccess ∈ s₃.events := by
    rw [h₃.mem_iff rfl, hevents]
    exact List.mem_cons_self
  refine Unless.bind (Unless.of_ends puts16_ends) ?_ (fun _ _ h => h.elim) ?_
  · exact fun _ => Maintains.ite (fun _ => Maintains.raise) fun _ =>
      Maintains.bind puts16_maintains fun _ => startKernel_maintains
  rintro _ s₄ ⟨h₄, -⟩
  have hrun₄ := (hrun₂.quiet h₃).quiet h₄
  refine Unless.ite (fun hpool => Unless.raise ⟨fun device' hreads' => ?_, hrun₄.starts⟩)
    fun hpool => ?_
  · obtain rfl := hsame hreads'
    exact ⟨hmet, fun h => absurd (hpool.symm.trans h) (by decide)⟩
  have hpool := Bool.eq_false_iff.mpr hpool
  refine Unless.bind (Unless.of_ends puts16_ends) (fun _ => startKernel_maintains)
    (fun _ _ h => h.elim) ?_
  rintro _ s₅ ⟨h₅, -⟩
  refine startKernel_unless (hrun₄.quiet h₅) ?_ ⟨fun h => (h device hreads).2 hpool, fun h => ?_⟩
  · exact (h₅.mem_iff rfl).mpr ((h₄.mem_iff rfl).mpr hloaded)
  · intro device' hreads'
    obtain rfl := hsame hreads'
    exact ⟨hmet, fun _ => h⟩

/-- Every failure is known for one, and the kernel is entered and the VGA text mode given up only
after a success, exactly if the answers are sound. -/
theorem startsSoundly_iff (answers : BootAnswers) (rounds : Nat) (memory : Nat → UInt8)
    (info : LoaderInfo) :
    StartsSoundly (efiMain answers rounds (.start memory info)).state.events ↔
      answers.Sound memory := by
  rcases (efiMain_unless running_start rfl).state with ⟨hsound, hstarts⟩ | ⟨hunseen, hunsound⟩
  · exact iff_of_true hstarts hsound
  · exact iff_of_false (fun hstarts => hunseen hstarts.seen) hunsound

/-- A status that the firmware fails with. -/
abbrev notFound : EfiStatus := 2 ^ 63 + 14

/-- A machine without graphics, whose boot volume has the given kernel. -/
def plainAnswers (bytes : List UInt8) (h : bytes.length < 2 ^ 63) : BootAnswers where
  console := none
  loadedImage := (efiSuccess, some (some
    { fileSystem := efiSuccess
      openVolume := efiSuccess
      kernelFile := ⟨efiSuccess, efiSuccess, efiSuccess, efiSuccess, efiSuccess, efiSuccess,
        efiSuccess, imageOf bytes h, fun i => bytes.getD i 0⟩
      devicePath := (efiSuccess, some fun i => [0x7F, 0xFF, 4, 0].getD i 0)
      blockIo := (efiSuccess, some (some ⟨512, 131071⟩)) }))
  segments := lowMemory
  bootInfoPool := efiSuccess
  graphics := ⟨(notFound, none), (notFound, none)⟩
  configuration := none
  exits := fun _ => ⟨(efiSuccess, ⟨0, 0, 48, 1⟩), efiSuccess⟩

/-- An empty kernel file is refused with 1, and the kernel is entered at 0 all the same. -/
theorem not_startsSoundly : ¬ ∀ (answers : BootAnswers) (rounds : Nat) (memory : Nat → UInt8)
    (info : LoaderInfo),
    StartsSoundly (efiMain answers rounds (.start memory info)).state.events := by
  intro h
  have hsound := h (plainAnswers [] (by decide)) 0 (fun _ => 0) .zeros
  have hreturned := (hsound.loaded 0 (by decide +kernel)).1
  revert hreturned
  decide +kernel

example : (efiMain (plainAnswers (segmentFile 0 0x200000 0 16) (by decide)) 0
    (.start (fun _ => 0) .zeros)).state.events.head? = some (.entered 0x200000) := by decide +kernel

end FunnyOS.Boot
