import FunnyOS.Programs.ActiveRoot
import FunnyOS.Programs.LoadedProcess
import FunnyOS.Programs.Syscalls

/-!
# Runs of processes

`process_run_foreground` from the kernel without a process to the kernel without a process, with
whatever the program does in between, and the kernel over any number of such runs.
-/

namespace FunnyOS.Programs

open Prog Devices
open Memory (FreePageRange Kernel Idle Hosting Invariant Balance translate pagingCurrentRoot)

/-! ## Loading -/

section

variable {s s' : ForegroundState} {start : Kernel} {others : List FreePageRange} {bytes : List UInt8}
  {call : ForegroundCall} {program : ProgramFile} {space : ProcessAddressSpace} {text : String}
  {P : Prop} {active : Bool}

/-! ### The loader and the address space -/

/-- The steps of the loader that leave the address space as it is. -/
def KeepsSpace (space : ProcessAddressSpace) (s : LoadState) : Prop :=
  s.process.addressSpace = space

theorem refuse_space {α : Type} : Maintains (KeepsSpace space) (refuse text : Loader α) :=
  fun _ hs => hs

theorem readFile_space {offset count : Nat} :
    Maintains (KeepsSpace space) (readFile offset count) := by
  intro s hs
  unfold readFile
  split
  · exact hs
  · exact hs

theorem store_space {address count : Nat} {value : Nat → UInt8} :
    Maintains (KeepsSpace space) (store address count value) := by
  intro s hs
  simp only [store]
  split
  · exact hs
  · exact hs

theorem readHeader_space : Maintains (KeepsSpace space) readHeader :=
  readFile_space.bind fun _ => .pure

theorem copySegment_space {fileSize : Nat} {segment : Elf64ProgramHeader} :
    Maintains (KeepsSpace space) (copySegment fileSize segment) :=
  .ite (fun _ => .pure) fun _ => .ite (fun _ => refuse_space) fun _ =>
    store_space.bind fun _ => readFile_space.bind fun _ => store_space

theorem copySegments_space {fileSize : Nat} {header : Elf64Header} {indices : List Nat} :
    Maintains (KeepsSpace space) (copySegments fileSize header indices) := by
  induction indices with
  | nil => exact .pure
  | cons index rest ih =>
    have hread : Maintains (KeepsSpace space) (readProgramHeader header index) :=
      readFile_space.bind fun _ => .pure
    exact hread.bind fun _ => copySegment_space.bind fun _ => ih

theorem processCopyImageSegments_space {fileSize : Nat} :
    Maintains (KeepsSpace space) (processCopyImageSegments fileSize) :=
  readHeader_space.bind fun _ => Maintains.get.bind fun _ => store_space.bind fun _ =>
    copySegments_space.bind fun _ => .modify fun _ hs => hs

theorem storeContext_space {member : ContextMember} {offset count : Nat} {value : Nat → UInt8} :
    Maintains (fun s : ArgState => s.addressSpace = space) (storeContext member offset count value) := by
  intro s hs
  simp only [storeContext]
  split
  · exact hs
  · exact hs

theorem stageArg_space {addresses : RuntimeAddresses} {index : Nat} :
    Maintains (fun s : ArgState => s.addressSpace = space) (stageArg addresses index) :=
  Maintains.get.bind fun _ => .ite (fun _ => .fault) fun _ => .ite (fun _ => .raise) fun _ =>
    .ite (fun _ => .raise) fun _ => storeContext_space

theorem stageArgs_space {addresses : RuntimeAddresses} {indices : List Nat} :
    Maintains (fun s : ArgState => s.addressSpace = space) (stageArgs addresses indices) := by
  induction indices with
  | nil => exact .pure
  | cons index rest ih => exact stageArg_space.bind fun _ => ih

theorem stageInfo_space :
    Maintains (fun s : ArgState => s.addressSpace = space) stageInfo :=
  Maintains.get.bind fun _ => storeContext_space.bind fun _ => storeContext_space.bind fun _ =>
    storeContext_space.bind fun _ => storeContext_space.bind fun _ =>
      storeContext_space.bind fun _ => .modify fun _ hs => hs

theorem processStageUserContext_space {addresses : RuntimeAddresses} :
    Maintains (fun s : ArgState => s.addressSpace = space) (processStageUserContext addresses) :=
  Maintains.get.bind fun _ => .ite (fun _ => .raise) fun _ =>
    storeContext_space.bind fun _ => storeContext_space.bind fun _ =>
      storeContext_space.bind fun _ => stageArgs_space.bind fun _ => stageInfo_space

/-! ### The file -/

/-- What the callers of `process_run_foreground` see to: the working directory fits the buffer for
it, and no piece that the file system hands over is so long that the sum wraps with which
`process_file_chunk_copy` checks it. -/
structure ForegroundCall.Fits (call : ForegroundCall) : Prop where
  cwd : ∀ cwd, call.cwd = some cwd → cwd.chars.length < pathCapacity
  pieces : ∀ file, call.file = some file →
    ∀ data ∈ file.pieces, processMaxFileSize + data.length < 2 ^ 32

/-- The bytes that the callback has put into the file buffer are a file. -/
theorem readPieces_ends {readOk : Bool} {pieces : List (List UInt8)}
    (hP : P → ∀ data ∈ pieces, processMaxFileSize + data.length < 2 ^ 32)
    (hs : s.process = processResetFields bytes) (hbytes : bytes.length ≤ processMaxFileSize) :
    EndsWhen P (readPieces readOk pieces) s
      (fun _ s' => ∃ file : List UInt8, file.length ≤ processMaxFileSize ∧
        s' = { s with process := processResetFields file })
      (fun _ _ => False) := by
  induction pieces generalizing s bytes with
  | nil => exact EndsWhen.pure ⟨bytes, hbytes, by rw [← hs]⟩
  | cons data rest ih =>
    have hcopy : EndsWhen P (processFileChunkCopy data) s
        (fun taken s' => ∃ file : List UInt8, file.length ≤ processMaxFileSize ∧
          s' = { s with process := processResetFields file })
        (fun _ _ => False) := by
      unfold EndsWhen
      simp only [processFileChunkCopy]
      split_ifs with hlarge hfit
      · exact ⟨bytes, hbytes, by rw [← hs]⟩
      · intro hholds
        have hsum := hP hholds data List.mem_cons_self
        rw [hs] at hlarge hfit
        change ¬ (bytes.length + data.length) % 2 ^ 32 > processMaxFileSize at hlarge
        change bytes.length + data.length > processMaxFileSize at hfit
        rw [Nat.mod_eq_of_lt (by omega)] at hlarge
        exact hlarge hfit
      · rw [hs] at hfit ⊢
        refine ⟨bytes ++ data, ?_, rfl⟩
        rw [List.length_append]
        exact not_lt.mp hfit
    refine EndsWhen.bind hcopy (fun _ _ h => h) fun taken s₁ h₁ => ?_
    obtain ⟨file, hfile, rfl⟩ := h₁
    have hrest := fun hholds data hdata => hP hholds data (List.mem_cons_of_mem _ hdata)
    exact EndsWhen.ite (fun _ => ih hrest rfl hfile) fun _ => EndsWhen.pure ⟨file, hfile, rfl⟩

theorem readProgramFile_ends
    (hP : P → ∀ data ∈ program.pieces, processMaxFileSize + data.length < 2 ^ 32)
    (hs : s.process = processResetFields []) :
    EndsWhen P (readProgramFile program) s
      (fun size s' => ∃ file : List UInt8, size = file.length ∧ file.length ≤ processMaxFileSize ∧
        s' = { s with process := processResetFields file })
      (fun _ s' => ∃ file console,
        s' = { s with process := processResetFields file, console := console }) := by
  have hrefuse : ∀ (file : List UInt8) text, EndsWhen P (loading (refuse text) : Foreground Nat)
      { s with process := processResetFields file }
      (fun size s' => ∃ file : List UInt8, size = file.length ∧ file.length ≤ processMaxFileSize ∧
        s' = { s with process := processResetFields file })
      (fun _ s' => ∃ file console,
        s' = { s with process := processResetFields file, console := console }) :=
    fun file text => ⟨file, _, rfl⟩
  have hself : s = { s with process := processResetFields [] } := by rw [← hs]
  unfold readProgramFile
  cases program.stat with
  | none => exact EndsWhen.raise ⟨[], s.console, hself⟩
  | some node =>
    refine EndsWhen.get_bind (EndsWhen.ite (fun _ => ?_) fun _ => EndsWhen.ite (fun _ => ?_)
      fun _ => ?_)
    · rw [hself]
      exact hrefuse [] _
    · rw [hself]
      exact hrefuse [] _
    refine EndsWhen.bind (readPieces_ends hP hs (Nat.zero_le _)) (fun _ _ h => h.elim)
      fun ok s₁ h₁ => ?_
    obtain ⟨file, hfile, rfl⟩ := h₁
    refine EndsWhen.ite (fun _ => hrefuse file _) fun _ => EndsWhen.get_bind ?_
    exact EndsWhen.ite (fun _ => hrefuse file _) fun _ => EndsWhen.pure ⟨file, rfl, hfile, rfl⟩

/-! ### The whole -/

theorem KeptSince.relaid (h : KeptSince start others s) (hnone : s.pages.imageBacking = 0)
    (hkernel : s'.kernel = s.kernel) (hpages : s'.pages = s.pages)
    (hspace : Relaid s.process.addressSpace s'.process.addressSpace) : KeptSince start others s' := by
  obtain ⟨base, capacity, pageCount, hspace⟩ := hspace
  unfold KeptSince ForegroundState.blocks at *
  rw [hkernel, hpages, hspace, hnone, blockAt_zero]
  rw [hnone, blockAt_zero] at h
  exact h

/-- The step between the two layouts. -/
theorem configure_ends (h : KeptSince start others s) (hs : s.process = processResetFields bytes)
    (hbytes : bytes.length ≤ processMaxFileSize) (hnone : s.pages.imageBacking = 0) :
    Ends (loading (processConfigureImageLayout call.kernelImageEnd bytes.length)) s
      (fun _ s' => KeptSince start others s' ∧ Placed s'.process.addressSpace ∧
        s'.process.addressSpace.imageCapacity % pageSize = 0 ∧ ImageOk bytes s'.process ∧
        s'.process.image.fileBuffer = bytes ∧ s'.pages = s.pages ∧ s'.runtime = s.runtime)
      (fun _ s' => KeptSince start others s') := by
  have hspace : s.process.addressSpace = (processResetFields []).addressSpace := by
    rw [hs]
    rfl
  refine Ends.onPart (Ends.mono ((processConfigureImageLayout_ends hs hbytes).and_sat
    (processConfigureImageLayout_placed hspace)) (fun _ t ht => ?_) fun _ t ht => ?_)
  · obtain ⟨⟨hbuffer, -, hok⟩, hplaced, hwhole, hrelaid⟩ := ht
    exact ⟨h.relaid hnone rfl rfl hrelaid, hplaced, hwhole, hok, hbuffer, rfl, rfl⟩
  · exact h.relaid hnone rfl rfl ht.2

/-- The user context is staged, and nothing else changes. -/
theorem stage_ends (hplaced : Placed s.process.addressSpace)
    (hargv : ArgvInside call.addresses ⟨s.process.addressSpace, s.runtime, s.memory⟩) :
    Ends (staging (processStageUserContext call.addresses)) s
      (fun _ s' => Beside s s' ∧ s'.process = s.process ∧ s'.active = s.active)
      (fun _ _ => False) := by
  have hsize : userContextSize ≤ s.process.addressSpace.stackSize := by
    rw [hplaced.stackSize]
    decide
  have hbase : s.process.addressSpace.stackBase + userContextSize ≤ 2 ^ 64 := by
    rw [hplaced.stackBase]
    decide
  have hends := processStageUserContext_ends hargv hsize hbase
  have hstage := hends.and_sat (hends.sat.maintains processStageUserContext_space rfl)
  refine Ends.onPart (Ends.mono hstage (fun _ t ht => ?_) fun _ _ ht => ht.1)
  have hspace : t.addressSpace = s.process.addressSpace := ht.2.2
  refine ⟨⟨⟨s.kernel.cr3, rfl⟩, rfl, hspace⟩, ?_, rfl⟩
  rw [hspace]

/-- The segments are copied, and nothing else changes. -/
theorem copy_ends (hbytes : bytes.length ≤ processMaxFileSize)
    (hbuffer : s.process.image.fileBuffer = bytes) (hok : ImageOk bytes s.process) :
    Ends (loading (processCopyImageSegments bytes.length)) s
      (fun _ s' => Beside s s' ∧ s'.active = s.active) (fun _ _ => False) := by
  obtain ⟨t, hrun, -⟩ := processCopyImageSegments_run (s := ⟨s.process, s.memory, s.console⟩)
    hbuffer hbytes hok
  have hkeeps : Maintains (KeepsSpace s.process.addressSpace)
      (processCopyImageSegments bytes.length) := processCopyImageSegments_space
  have hspace := hkeeps ⟨s.process, s.memory, s.console⟩ rfl
  rw [hrun] at hspace
  refine Ends.onPart ?_
  unfold Ends
  rw [hrun]
  exact ⟨⟨⟨s.kernel.cr3, rfl⟩, rfl, hspace⟩, rfl⟩

/-- `process_load_binary`, with the root that is active before and behind it. -/
theorem processLoadBinary_ends
    (hP : P → ∀ data ∈ program.pieces, processMaxFileSize + data.length < 2 ^ 32)
    (h : KeptSince start others s) (hat : OnRoot active (pagingCurrentRoot start) s)
    (hs : s.process = processResetFields []) (hroot : s.pages.pageTableRoot = 0)
    (himage : s.pages.imageBacking = 0) (hstack : s.pages.stackBacking = 0)
    (hargv : ArgvInside call.addresses ⟨s.process.addressSpace, s.runtime, s.memory⟩) :
    EndsWhen P (processLoadBinary call program) s
      (fun _ s' => (KeptSince start others s' ∧ Mapped s' ∧ Secluded s') ∧
        OnRoot active (pagingCurrentRoot start) s')
      (fun _ s' => KeptSince start others s' ∧ OnRoot active (pagingCurrentRoot start) s') := by
  have hreset : ∀ file, (processResetFields file).addressSpace = s.process.addressSpace := by
    intro file
    rw [hs]
    rfl
  unfold processLoadBinary
  refine EndsWhen.bind (readProgramFile_ends hP hs) (fun _ s₁ h₁ => ?_) fun size s₁ h₁ => ?_
  · obtain ⟨file, console, rfl⟩ := h₁
    exact ⟨h.beside ⟨⟨s.kernel.cr3, rfl⟩, rfl, hreset file⟩, hat.same rfl rfl⟩
  obtain ⟨file, rfl, hfile, rfl⟩ := h₁
  have hkept : KeptSince start others { s with process := processResetFields file } :=
    h.beside ⟨⟨s.kernel.cr3, rfl⟩, rfl, hreset file⟩
  have hlayout : Ends (loading (processConfigureImageLayout call.kernelImageEnd file.length)) _ _ _ :=
    configure_ends hkept rfl hfile himage
  have hconfigure := EndsWhen.of_ends (P := P) hlayout
  refine EndsWhen.bind (hconfigure.maintains loading_onRoot (hat.same rfl rfl)) (fun _ _ h => h)
    fun _ s₂ h₂ => ?_
  obtain ⟨⟨hkept₂, hplaced, hwhole, hok, hbuffer, hpages, hruntime⟩, hat₂⟩ := h₂
  have hprepare := EndsWhen.of_ends (P := P) (processPrepareAddressSpace_ends hkept₂ (hpages ▸ hroot)
    (hpages ▸ himage) (hpages ▸ hstack) hplaced hwhole)
  refine EndsWhen.bind (EndsWhen.orElse (hprepare.maintains processPrepareAddressSpace_onRoot hat₂)
    fun _ s' hs' => ?_) (fun _ _ h => h) fun _ s₃ h₃ => ?_
  · exact .of_ends (refuse_ends ⟨hs'.1.beside ⟨⟨s'.kernel.cr3, rfl⟩, rfl, rfl⟩, hs'.2.same rfl rfl⟩)
  obtain ⟨⟨hkept₃, hmapped, hsecluded, hprocess, hruntime₃⟩, hat₃⟩ := h₃
  rw [← hprocess] at hplaced hok hbuffer
  have hactivated : Beside s₃ { s₃ with
      kernel := Memory.pagingActivateRoot s₃.kernel s₃.pages.pageTableRoot } :=
    pagingActivateRoot_beside
  refine EndsWhen.get_bind (EndsWhen.modify_bind ?_)
  have hargv₃ : ArgvInside call.addresses ⟨s₃.process.addressSpace, s₃.runtime, s₃.memory⟩ := by
    rw [hruntime₃, hruntime]
    exact hargv
  refine EndsWhen.bind (.of_ends (Ends.orElse (F := fun _ _ => False) (stage_ends hplaced hargv₃)
    fun _ _ h => h.elim)) (fun _ _ h => h) fun _ s₄ h₄ => ?_
  obtain ⟨hbeside₄, hprocess₄, hactive₄⟩ := h₄
  rw [← show s₄.process = s₃.process from hprocess₄] at hbuffer hok
  refine EndsWhen.bind (.of_ends (Ends.orElse (F := fun _ _ => False)
    (copy_ends hfile hbuffer hok) fun _ _ h => h.elim)) (fun _ _ h => h) fun _ s₅ h₅ => ?_
  have hall := (hactivated.trans hbeside₄).trans h₅.1
  have hactive : s₅.active = active := (h₅.2.trans hactive₄).trans hat₃.active
  exact EndsWhen.modify ⟨⟨hkept₃.beside (hall.trans pagingActivateRoot_beside),
    hmapped.beside (hall.trans pagingActivateRoot_beside),
    hsecluded.beside (hall.trans pagingActivateRoot_beside)⟩,
    pagingActivateRoot_restored hactive hat₃.root⟩

/-! ## From the kernel without a process to the kernel without one -/

theorem tokenize_argvInside (call : ForegroundCall) (command : CString)
    (hs : s.process = processResetFields []) :
    Ends (staging (processTokenizeArgs call.addresses (some command) call.argumentLine)) s
      (fun _ s' => s'.kernel = s.kernel ∧ s'.pages = s.pages ∧ s'.process = s.process ∧
        ArgvInside call.addresses ⟨s'.process.addressSpace, s'.runtime, s'.memory⟩)
      (fun _ s' => s'.kernel = s.kernel) := by
  by_cases hcommand : command.chars = []
  · have hfails : Ends (processTokenizeArgs call.addresses (some command) call.argumentLine)
        ⟨s.process.addressSpace, s.runtime, s.memory⟩ (fun _ _ => False) (fun _ _ => True) := by
      unfold processTokenizeArgs
      refine Ends.modify_bind ?_
      dsimp only
      rw [if_pos hcommand]
      exact Ends.raise trivial
    exact Ends.onPart (Ends.mono hfails (fun _ _ h => h.elim) fun _ _ _ => rfl)
  · refine Ends.onPart (Ends.mono (processTokenizeArgs_ends call.addresses _ call.argumentLine
      hcommand) (fun _ t ht => ?_) fun _ _ _ => rfl)
    obtain ⟨rfl, hfits⟩ := ht
    refine ⟨rfl, rfl, rfl, ArgState.tokenized_argvInside (s := ⟨s.process.addressSpace, s.runtime,
      s.memory⟩) hfits ⟨rfl, rfl, rfl, ?_, ?_⟩⟩
    · change s.process.addressSpace.stackBase = processAbiStackBase
      rw [hs]
      rfl
    · change s.process.addressSpace.stackSize = processAbiStackSize
      rw [hs]
      rfl

theorem kept_of_idle (h : Idle s.kernel others) (hpages : s.pages = ⟨0, 0, 0, 0⟩) :
    KeptSince s.kernel others s := by
  unfold KeptSince ForegroundState.blocks
  rw [hpages]
  exact ⟨⟨fun _ => h, fun hne => absurd rfl hne⟩, .refl s.kernel⟩

theorem copyCwd_ends {cwd : CString} (hP : P → cwd.chars.length < pathCapacity) :
    EndsWhen P (copyCwd cwd) s
      (fun _ s' => ∃ bytes, s' = { s with runtime := { s.runtime with cwd := bytes } })
      (fun _ _ => False) := by
  unfold EndsWhen
  simp only [copyCwd]
  split_ifs with hfits
  · exact ⟨_, rfl⟩
  · exact fun hholds => hfits (hP hholds)

/-- The kernel has no process, all that it had in the state `start` is free again, and the root is
active that was. -/
structure Returned (start : Kernel) (others : List FreePageRange) (active : Bool)
    (s : ForegroundState) : Prop where
  idle : Idle s.kernel others
  balance : Balance start s.kernel []
  onRoot : OnRoot active (pagingCurrentRoot start) s

theorem processReleaseAddressSpace_returned (h : KeptSince start others s)
    (hat : OnRoot active (pagingCurrentRoot start) s) :
    Returned start others active (processReleaseAddressSpace s) := by
  obtain ⟨hidle, hbalance⟩ := processReleaseAddressSpace_idle h
  exact ⟨hidle, hbalance, processReleaseAddressSpace_onRoot hat⟩

/-- A process that is entered, behind `process_run_foreground` up to there: it is mapped and active,
and has not asked to end. -/
structure Entered (start : Kernel) (others : List FreePageRange) (kernelRoot : Nat)
    (s : ForegroundState) : Prop where
  kept : KeptSince start others s
  mapped : Mapped s
  secluded : Secluded s
  active : s.active = true
  unfinished : s.exitRequested = false
  root : pagingCurrentRoot start ≠ 0 → kernelRoot = pagingCurrentRoot start

/-- `process_run_foreground` up to the point where it enters the program: a process that is mapped,
or none. -/
theorem processStart_ends (h : Idle s.kernel others) : EndsWhen call.Fits (processStart call) s
    (fun kernelRoot s' => Entered s.kernel others kernelRoot s')
    (fun _ s' => Returned s.kernel others s.active s') := by
  have hat : OnRoot s.active (pagingCurrentRoot s.kernel) s := ⟨rfl, fun _ => rfl⟩
  have hnone : Returned s.kernel others s.active s := ⟨h, .refl s.kernel, hat⟩
  unfold processStart
  rcases hfile : call.file with _ | file
  · exact EndsWhen.raise hnone
  rcases call.command with _ | command
  · exact EndsWhen.raise hnone
  rcases hcwd : call.cwd with _ | cwd
  · exact EndsWhen.raise hnone
  refine EndsWhen.modify_bind ?_
  have htokenize := EndsWhen.of_ends (P := call.Fits)
    (tokenize_argvInside call command (s := processInit s) rfl)
  refine EndsWhen.bind (EndsWhen.orElse (htokenize.maintains staging_onRoot (hat.same rfl rfl))
    fun _ s₁ h₁ => ?_) (fun _ _ h => h) fun _ s₁ h₁ => ?_
  · obtain ⟨hkernel, hat₁⟩ := h₁
    have hkernel : s₁.kernel = s.kernel := hkernel
    refine .of_ends (refuse_ends ⟨?_, ?_, hat₁.same rfl rfl⟩)
    · change Idle s₁.kernel others
      rw [hkernel]
      exact h
    · change Balance s.kernel s₁.kernel []
      rw [hkernel]
      exact .refl s.kernel
  obtain ⟨⟨hkernel, hpages, hprocess, hargv⟩, hat₁⟩ := h₁
  have hidle : Idle s₁.kernel others := by
    rw [hkernel]
    exact h
  have hload : EndsWhen call.Fits (do backFile; copyCwd cwd; processLoadBinary call file) s₁
      (fun _ s' => (KeptSince s.kernel others s' ∧ Mapped s' ∧ Secluded s') ∧
        OnRoot s.active (pagingCurrentRoot s.kernel) s')
      (fun _ s' => KeptSince s.kernel others s' ∧
        OnRoot s.active (pagingCurrentRoot s.kernel) s') := by
    have hkept := kept_of_idle hidle hpages
    rw [hkernel] at hkept
    have hnone : s₁.pages.fileBuffer = 0 := by
      rw [hpages]
      rfl
    have hback := EndsWhen.of_ends (P := call.Fits) (backFile_ends hkept hnone)
    refine EndsWhen.bind (hback.maintains allocBacking_onRoot hat₁) (fun _ _ h => h)
      fun _ s₂ h₂ => ?_
    obtain ⟨⟨⟨kernel, base, -, rfl, -⟩, hkept₂, -⟩, hat₂⟩ := h₂
    refine EndsWhen.bind (copyCwd_ends fun hfits => hfits.cwd cwd hcwd) (fun _ _ h => h.elim)
      fun _ s₃ h₃ => ?_
    obtain ⟨cwdBytes, rfl⟩ := h₃
    refine processLoadBinary_ends (fun hfits => hfits.pieces file hfile)
      (hkept₂.beside ⟨⟨_, rfl⟩, rfl, rfl⟩) (hat₂.same rfl rfl) hprocess ?_ ?_ ?_ hargv
    · exact congrArg ProcessPages.pageTableRoot hpages
    · exact congrArg ProcessPages.imageBacking hpages
    · exact congrArg ProcessPages.stackBacking hpages
  refine EndsWhen.bind (EndsWhen.orElse hload fun _ s' hs' => EndsWhen.modify_bind
    (EndsWhen.raise (processReleaseAddressSpace_returned hs'.1 hs'.2))) (fun _ _ h => h)
    fun _ s₂ h₂ => ?_
  obtain ⟨⟨hkept, hmapped, hsecluded⟩, hat₂⟩ := h₂
  have hbeside : Beside s₂ { s₂ with
      exitRequested := false, exitStatus := 0, process.state := .running, active := true } :=
    ⟨⟨s₂.kernel.cr3, rfl⟩, rfl, rfl⟩
  refine EndsWhen.modify_bind (EndsWhen.get_bind (EndsWhen.modify_bind (EndsWhen.pure
    ⟨?_, ?_, ?_, rfl, rfl, hat₂.root⟩)))
  · exact hkept.beside (hbeside.trans pagingActivateRoot_beside)
  · exact hmapped.beside (hbeside.trans pagingActivateRoot_beside)
  · exact hsecluded.beside (hbeside.trans pagingActivateRoot_beside)

/-- `process_run_foreground` behind that point, whatever the program has come back with. -/
theorem processFinish_ends {kernelRoot : Nat} {invokeResult : UInt64}
    (h : KeptSince start others s)
    (hroot : pagingCurrentRoot start ≠ 0 → kernelRoot = pagingCurrentRoot start) :
    Ends (processFinish kernelRoot invokeResult) s
      (fun _ s' => Returned start others false s' ∧ s.exitRequested = true ∧ s.exitStatus = 0)
      (fun _ s' => Returned start others false s') := by
  have hbeside : Beside s { s with
      kernel := Memory.pagingActivateRoot s.kernel kernelRoot, active := false } := by
    obtain ⟨hkernel, -, -⟩ : Beside s { s with
        kernel := Memory.pagingActivateRoot s.kernel kernelRoot } := pagingActivateRoot_beside
    exact ⟨hkernel, rfl, rfl⟩
  have hat : OnRoot false (pagingCurrentRoot start) { s with
      kernel := Memory.pagingActivateRoot s.kernel kernelRoot, active := false } :=
    pagingActivateRoot_restored (s := { s with active := false }) rfl hroot
  have hreleased := fun s' (hs' : Beside _ s') (hat' : OnRoot false (pagingCurrentRoot start) s') =>
    processReleaseAddressSpace_returned ((h.beside hbeside).beside hs') hat'
  unfold processFinish
  refine Ends.modify_bind (Ends.modify_bind (Ends.get_bind (Ends.ite (fun _ => ?_) fun hinvoked =>
    Ends.ite (fun _ => ?_) fun hstatus => ?_)))
  · exact hreleased _ ⟨⟨_, rfl⟩, rfl, rfl⟩ (hat.same rfl rfl)
  · exact hreleased _ ⟨⟨_, rfl⟩, rfl, rfl⟩ (hat.same rfl rfl)
  · refine Ends.modify ⟨hreleased _ .refl hat, ?_, not_not.1 hstatus⟩
    simpa using (not_or.1 hinvoked).2

end

/-! ## While the program runs -/

/-- What happens between entering the program and coming back from it. -/
inductive ProgramAct
  | store
  | syscall (events : List KeyEvent) (frame : TrapFrame)
  | fault

/-- One of these. By itself the program changes what its memory holds, and with it what its pages
hold if they are read as tables. -/
inductive ProgramStep : ForegroundState → ProgramAct → ForegroundState → Prop
  | store (s : ForegroundState) (memory : Nat → UInt8) (tables : Nat → Fin 512 → Memory.Entry)
      (h : ∀ t, (∀ b ∈ s.blocks, t ∉ b.addresses) → tables t = s.kernel.tables t) :
      ProgramStep s .store { s with memory := memory, kernel.tables := tables }
  | syscall (s : ForegroundState) (events : List KeyEvent) (frame : TrapFrame) :
      ProgramStep s (.syscall events frame) (processHandleSyscall events frame s).state
  | fault (s : ForegroundState) : ProgramStep s .fault (processHandleFault s)

/-- The process is active, and its image and its stack are mapped. -/
structure Running (others : List FreePageRange) (s : ForegroundState) : Prop where
  kept : Kept others s
  mapped : Mapped s
  active : s.active = true

section

variable {s s' : ForegroundState} {start : Kernel} {others : List FreePageRange}
  {buffer capacity : Nat} {events : List KeyEvent} {I : ForegroundState → Prop}

theorem Entered.running {kernelRoot : Nat} (h : Entered start others kernelRoot s) :
    Running others s :=
  ⟨h.kept.kept, h.mapped, h.active⟩

theorem Running.beside (h : Running others s) (hs : Beside s s') (hactive : s'.active = s.active) :
    Running others s' :=
  ⟨h.kept.beside hs, h.mapped.beside hs, hactive.trans h.active⟩

/-- What is not about the memory of a process or its console. -/
def Indifferent (I : ForegroundState → Prop) : Prop :=
  ∀ s memory accesses output, I s →
    I { s with memory := memory, accesses := accesses, output := output }

theorem loadUser_maintains {address : Nat} (hI : Indifferent I) :
    Maintains I (loadUser address) :=
  fun s hs => hI s _ _ _ hs

theorem storeUser_maintains (hI : Indifferent I) (address : Nat) (value : UInt8) :
    Maintains I (storeUser address value) :=
  fun s hs => hI s _ _ _ hs

theorem callConsole_maintains (hI : Indifferent I) (call : ConsoleCall) :
    Maintains I (callConsole call) :=
  fun s hs => hI s _ _ _ hs

theorem consoleWriteFrom_maintains {text i count : Nat} (hI : Indifferent I) :
    Maintains I (consoleWriteFrom text i count) := by
  induction count generalizing i with
  | zero => exact .pure
  | succ count ih =>
    exact (loadUser_maintains hI).bind fun _ => (callConsole_maintains hI _).bind fun _ => ih

theorem readLineFrom_maintains {len : Nat} (hI : Indifferent I) :
    Maintains I (readLineFrom buffer capacity events len) := by
  have hstore := storeUser_maintains hI
  have hcall := callConsole_maintains hI
  induction events generalizing len with
  | nil => exact fun _ hs => hs
  | cons event rest ih =>
    unfold readLineFrom
    cases event.char with
    | none => exact ih
    | some c =>
      refine .ite (fun _ => .ite (fun _ => ?_) fun _ => ih) fun _ => .ite (fun _ => ?_) fun _ =>
        .ite (fun _ => ih) fun _ => ?_
      · exact (hstore _ _).bind fun _ => (hcall _).bind fun _ => ih
      · exact (hstore _ _).bind fun _ => (hcall _).bind fun _ => .pure
      · exact (hstore _ _).bind fun _ => (hstore _ _).bind fun _ => (hcall _).bind fun _ => ih

theorem processHandleSyscall_maintains {frame : TrapFrame} (hI : Indifferent I)
    (hexit : frame.rax.toUInt32 = programSyscallExit →
      Maintains I (processFinishExit frame.rdi.toUInt32)) :
    Maintains I (processHandleSyscall events frame) := by
  have hread : Maintains I (keyboardReadLine events frame.rdi.toNat frame.rsi.toNat) :=
    .ite (fun _ => .pure) fun _ => readLineFrom_maintains hI
  refine Maintains.get.bind fun s => .ite (fun _ => .pure) fun _ => .ite (fun hcall => ?_) fun _ =>
    .ite (fun _ => ?_) fun _ => .ite (fun _ => ?_) fun _ => .pure
  · exact (hexit hcall).bind fun _ => .pure
  · exact .ite (fun _ => .pure) fun _ => (consoleWriteFrom_maintains hI).bind fun _ => .pure
  · exact .ite (fun _ => .pure) fun _ => .ite (fun _ => .pure) fun _ => hread.bind fun _ => .pure

/-- What is not about the process but for its pages and whether it is active, the program changes
only by what its pages hold. -/
theorem ProgramStep.maintains {act : ProgramAct} (h : ProgramStep s act s')
    (hI : ∀ s s', Beside s s' → s'.active = s.active → I s → I s')
    (hstore : ∀ tables : Nat → Fin 512 → Memory.Entry,
      (∀ t, (∀ b ∈ s.blocks, t ∉ b.addresses) → tables t = s.kernel.tables t) →
      I s → I { s with kernel.tables := tables }) (hs : I s) : I s' := by
  cases h with
  | store memory tables htables =>
    exact hI { s with kernel.tables := tables } _ ⟨⟨s.kernel.cr3, rfl⟩, rfl, rfl⟩ rfl
      (hstore tables htables hs)
  | syscall events frame =>
    refine processHandleSyscall_maintains (fun s _ _ _ hs => ?_) (fun _ s hs => ?_) s hs
    · exact hI s _ ⟨⟨s.kernel.cr3, rfl⟩, rfl, rfl⟩ rfl hs
    · exact hI s _ ⟨⟨s.kernel.cr3, rfl⟩, rfl, rfl⟩ rfl hs
  | fault =>
    unfold processHandleFault
    split
    · exact hI s _ ⟨⟨s.kernel.cr3, rfl⟩, rfl, rfl⟩ rfl hs
    · exact hs

theorem ProgramStep.running {act : ProgramAct} (h : ProgramStep s act s') (hs : Running others s) :
    Running others s' := by
  refine h.maintains (fun s s' hb hactive hs => hs.beside hb hactive) (fun tables htables hs => ?_) hs
  -- the tables that are read are blocks of nobody
  have hsame : ∀ t, (∀ b ∈ s.blocks ++ others, t ∉ b.addresses) → tables t = s.kernel.tables t :=
    fun t ht => htables t fun b hb => ht b (List.mem_append_left others hb)
  have hhosting := hs.kept.hosting hs.mapped.root
  constructor
  · exact hs.kept.of_same (fun _ hinv => hinv) rfl hsame
  · exact hs.mapped.of_same rfl rfl fun a => hhosting.translate_eq hsame
  · exact hs.active

theorem ProgramStep.keptSince {act : ProgramAct} (h : ProgramStep s act s')
    (hs : KeptSince start others s) (hroot : s.pages.pageTableRoot ≠ 0) :
    KeptSince start others s' := by
  refine h.maintains (fun s s' hb _ hs => hs.beside hb) (fun tables htables hs => ?_) hs
  have hsame : ∀ t, (∀ b ∈ s.blocks ++ others, t ∉ b.addresses) → tables t = s.kernel.tables t :=
    fun t ht => htables t fun b hb => ht b (List.mem_append_left others hb)
  constructor
  · exact hs.kept.of_same (fun _ hinv => hinv) rfl hsame
  · exact hs.balance.store (hs.inOrder.hosting hroot) hsame

theorem ProgramStep.secluded {act : ProgramAct} (h : ProgramStep s act s') (hkept : Kept others s)
    (hroot : s.pages.pageTableRoot ≠ 0) (hs : Secluded s) : Secluded s' := by
  refine h.maintains (fun s s' hb _ hs => hs.beside hb) (fun tables htables hs => ?_) hs
  have hsame : ∀ t, (∀ b ∈ s.blocks ++ others, t ∉ b.addresses) → tables t = s.kernel.tables t :=
    fun t ht => htables t fun b hb => ht b (List.mem_append_left others hb)
  exact hs.of_same rfl rfl fun a => (hkept.hosting hroot).translate_eq hsame

theorem secluded_of_run {acts : List ProgramAct} (h : Runs ProgramStep s acts s')
    (hs : Running others s) (hsecluded : Secluded s) : Secluded s' :=
  (h.invariant (I := fun s => Running others s ∧ Secluded s)
    (fun _ _ _ hs h => ⟨h.running hs.1, h.secluded hs.1.kept hs.1.mapped.root hs.2⟩)
    ⟨hs, hsecluded⟩).2

theorem running_of_run {acts : List ProgramAct} (h : Runs ProgramStep s acts s')
    (hs : Running others s) (hkept : KeptSince start others s) :
    Running others s' ∧ KeptSince start others s' :=
  h.invariant (I := fun s => Running others s ∧ KeptSince start others s)
    (fun _ _ _ hs h => ⟨h.running hs.1, h.keptSince hs.2 hs.1.mapped.root⟩) ⟨hs, hkept⟩

end

/-! ## One process after the other -/

/-- What happens to the kernel's pages and tables: calls of `memory.c` and `paging.c`, and
processes. -/
inductive SystemCall
  | boot (call : Memory.BootCall)
  | run (call : ForegroundCall)

/-- One of these, as far as it comes to its end. A process that is refused has not been entered. -/
inductive SystemStep : Kernel × List FreePageRange → SystemCall → Kernel × List FreePageRange → Prop
  | boot {x y : Kernel × List FreePageRange} (call : Memory.BootCall)
      (h : Memory.BootStep x call y) : SystemStep x (.boot call) y
  | refused (blocks : List FreePageRange) (call : ForegroundCall) (s s' : ForegroundState)
      (h : processStart call s = .error () s') :
      SystemStep (s.kernel, blocks) (.run call) (s'.kernel, blocks)
  | ran (blocks : List FreePageRange) (call : ForegroundCall) (s s₁ s₂ : ForegroundState)
      (kernelRoot : Nat) (acts : List ProgramAct) (invokeResult : UInt64)
      (hstart : processStart call s = .ok kernelRoot s₁) (hrun : Runs ProgramStep s₁ acts s₂) :
      SystemStep (s.kernel, blocks) (.run call)
        ((processFinish kernelRoot invokeResult s₂).state.kernel, blocks)

theorem SystemStep.idle {x y : Kernel × List FreePageRange} {call : SystemCall}
    (h : SystemStep x call y) (hx : Idle x.1 x.2) : Idle y.1 y.2 := by
  cases h with
  | boot call h => exact hx.boot h
  | refused blocks call s s' h => exact ((processStart_ends hx).sat.of_error h).idle
  | ran blocks call s s₁ s₂ kernelRoot acts invokeResult hstart hrun =>
    have hentered := (processStart_ends hx).sat.of_ok hstart
    have hkept := (running_of_run hrun hentered.running hentered.kept).2
    exact ((processFinish_ends hkept hentered.root).mono (fun _ _ h => h.1.idle)
      fun _ _ h => h.idle).state

/-- The kernel between processes, after whatever has followed a successful `memory_init`. `blocks`
are the blocks of pages that others than `paging.c` have. -/
def Between (s : Kernel) (blocks : List FreePageRange) : Prop :=
  ∃ image info s₀ m₀ tables cr3 calls,
    Memory.DisjointConventional info.memoryMap.entries ∧
    Memory.memoryInit image (some info) s₀ = (true, m₀) ∧
    Runs SystemStep (Kernel.initial m₀ tables cr3, []) calls (s, blocks)

theorem Between.idle {s : Kernel} {blocks : List FreePageRange} (h : Between s blocks) :
    Idle s blocks := by
  obtain ⟨image, info, s₀, m₀, tables, cr3, calls, hmap, hinit, hrun⟩ := h
  have hstart := Idle.initial (Memory.memoryInit_initialised hmap hinit).invariant tables cr3
  exact hrun.invariant (I := fun x => Idle x.1 x.2) (fun _ _ _ hx h => h.idle hx) hstart

/-- A process that the loader has prepared and that is active, after whatever it has done. -/
def ActiveProcess (m : ForegroundState) : Prop :=
  ∃ blocks m₀ call kernelRoot m₁ acts,
    Between m₀.kernel blocks ∧ processStart call m₀ = .ok kernelRoot m₁ ∧
    Runs ProgramStep m₁ acts m

theorem ActiveProcess.running {m : ForegroundState} (h : ActiveProcess m) :
    ∃ others, Running others m := by
  obtain ⟨blocks, m₀, call, kernelRoot, m₁, acts, hbetween, hstart, hrun⟩ := h
  have hentered := (processStart_ends hbetween.idle).sat.of_ok hstart
  exact ⟨blocks, (running_of_run hrun hentered.running hentered.kept).1⟩

end FunnyOS.Programs
