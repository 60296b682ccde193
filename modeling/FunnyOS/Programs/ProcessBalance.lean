import FunnyOS.Programs.UserMemory

/-!
# What a process leaves behind

A whole run of `process_run_foreground`: the loader, the program with whatever it does, and what
follows it. Wherever the run ends, the pages that it has taken are free again, the root is active
that was and no process is active, and its answer is true only for a program that has asked to exit
with status 0.
-/

namespace FunnyOS.Programs

open Prog
open Memory (FreePageRange RoomFound freeAddresses pagingCurrentRoot)

variable {s s' s₁ s₂ : ForegroundState} {blocks : List FreePageRange} {call : ForegroundCall}
  {act : ProgramAct} {acts : List ProgramAct} {ok : Bool}

/-! ## How the program ends -/

/-- The program asks to exit with status 0. -/
def ProgramAct.ExitsWell : ProgramAct → Prop
  | .syscall _ frame => frame.rax.toUInt32 = programSyscallExit ∧ frame.rdi.toUInt32 = 0
  | _ => False

/-- No exit with status 0 has been noted. -/
def Unfinished (s : ForegroundState) : Prop := ¬ (s.exitRequested = true ∧ s.exitStatus = 0)

theorem ProgramStep.unfinished (h : ProgramStep s act s') (hact : ¬ act.ExitsWell)
    (hs : Unfinished s) : Unfinished s' := by
  cases h with
  | store memory tables htables => exact hs
  | syscall events frame =>
    refine processHandleSyscall_maintains (fun _ _ _ _ hs => hs) (fun hexit s hs => ?_) s hs
    intro hnoted
    exact hact ⟨hexit, hnoted.2⟩
  | fault =>
    unfold processHandleFault
    split
    · exact fun hnoted => absurd hnoted.2 (show ¬ (0xFFFFFFFF : UInt32) = 0 by decide)
    · exact hs

/-- A program that is noted to have exited with status 0 has asked for it. -/
theorem exitsWell_of_run (h : Runs ProgramStep s acts s') (hs : Unfinished s)
    (hend : ¬ Unfinished s') : ∃ act ∈ acts, act.ExitsWell := by
  induction h with
  | nil s => exact absurd hs hend
  | cons first rest ih =>
    rename_i act _
    by_cases hact : act.ExitsWell
    · exact ⟨act, List.mem_cons_self, hact⟩
    · obtain ⟨later, hmem, hexits⟩ := ih (first.unfinished hact hs) hend
      exact ⟨later, List.mem_cons_of_mem _ hmem, hexits⟩

/-! ## The whole run -/

/-- A run of `process_run_foreground`, with what the program does in it and the answer. -/
inductive ForegroundRun (call : ForegroundCall) (s : ForegroundState) :
    List ProgramAct → Bool → ForegroundState → Prop
  | refused (s' : ForegroundState) (h : processStart call s = .error () s') :
      ForegroundRun call s [] false s'
  | ran (s₁ s₂ : ForegroundState) (kernelRoot : Nat) (acts : List ProgramAct)
      (invokeResult : UInt64) (hstart : processStart call s = .ok kernelRoot s₁)
      (hrun : Runs ProgramStep s₁ acts s₂) :
      ForegroundRun call s acts (processFinish kernelRoot invokeResult s₂).isOk
        (processFinish kernelRoot invokeResult s₂).state

/-- The kernel where the shell reads a line: no process is active, and some root is. -/
structure AtPrompt (blocks : List FreePageRange) (s : ForegroundState) : Prop where
  between : Between s.kernel blocks
  active : s.active = false
  root : pagingCurrentRoot s.kernel ≠ 0

/-- The free pages are those of `s`, as long as no block that was freed since has found the table of
free ranges full; the root of `s` is active, and no process. -/
structure Restored (s s' : ForegroundState) : Prop where
  free : ∃ events, s'.kernel.events = s.kernel.events ++ events ∧
    (RoomFound events →
      freeAddresses s'.kernel.pages.freeRanges = freeAddresses s.kernel.pages.freeRanges)
  root : pagingCurrentRoot s'.kernel = pagingCurrentRoot s.kernel
  active : s'.active = false

theorem Returned.restored (h : Returned s.kernel blocks false s')
    (hroot : pagingCurrentRoot s.kernel ≠ 0) : Restored s s' := by
  obtain ⟨events, hevents, -⟩ := h.balance
  exact ⟨⟨events, hevents, h.balance.free_eq hevents⟩, h.onRoot.root hroot, h.onRoot.active⟩

/-- What `process_run_foreground` does behind the program. -/
theorem AtPrompt.finish {kernelRoot : Nat} (h : AtPrompt blocks s)
    (hstart : processStart call s = .ok kernelRoot s₁) (hrun : Runs ProgramStep s₁ acts s₂)
    (invokeResult : UInt64) : Ends (processFinish kernelRoot invokeResult) s₂
      (fun _ s' => Returned s.kernel blocks false s' ∧ ∃ act ∈ acts, act.ExitsWell)
      (fun _ s' => Returned s.kernel blocks false s') := by
  have hentered := (processStart_ends h.between.idle).sat.of_ok hstart
  have hkept := (running_of_run hrun hentered.running hentered.kept).2
  refine (processFinish_ends hkept hentered.root).mono (fun _ s' hs' => ⟨hs'.1, ?_⟩) fun _ _ h => h
  refine exitsWell_of_run hrun (fun hnoted => ?_) fun hnot => hnot hs'.2
  exact absurd (hentered.unfinished.symm.trans hnoted.1) (by decide)

theorem ForegroundRun.returned (h : ForegroundRun call s acts ok s') (hs : AtPrompt blocks s) :
    Returned s.kernel blocks false s' ∧ (ok = true → ∃ act ∈ acts, act.ExitsWell) := by
  cases h with
  | refused s' h =>
    have hreturned := (processStart_ends hs.between.idle).sat.of_error h
    rw [hs.active] at hreturned
    exact ⟨hreturned, fun hfalse => absurd hfalse (by decide)⟩
  | ran s₁ s₂ kernelRoot acts invokeResult hstart hrun =>
    have hfinish := hs.finish hstart hrun invokeResult
    refine ⟨(hfinish.mono (fun _ _ h => h.1) fun _ _ h => h).state, fun hok => ?_⟩
    obtain ⟨_, s', hdone⟩ := exists_ok_of_isOk hok
    exact (hfinish.of_ok hdone).2

/-- Behind a run the shell is where it was before. -/
theorem AtPrompt.run (h : AtPrompt blocks s) (hrun : ForegroundRun call s acts ok s') :
    AtPrompt blocks s' := by
  have hrestored := (hrun.returned h).1.restored h.root
  obtain ⟨image, info, m, m₀, tables, cr3, calls, hmap, hinit, hbefore⟩ := h.between
  have hstep : SystemStep (s.kernel, blocks) (.run call) (s'.kernel, blocks) := by
    cases hrun with
    | refused s' h => exact .refused blocks call s s' h
    | ran s₁ s₂ kernelRoot acts invokeResult hstart hrun =>
      exact .ran blocks call s s₁ s₂ kernelRoot acts invokeResult hstart hrun
  refine ⟨⟨image, info, m, m₀, tables, cr3, _, hmap, hinit,
    hbefore.trans (.cons hstep (.nil _))⟩, hrestored.active, ?_⟩
  rw [hrestored.root]
  exact h.root

/-- `process_run_foreground` at the prompt, whatever the file system says of the program and
whatever the program does: where its callers see to what they should it comes to its end up to the
program, and behind it always; it leaves the kernel as it was; and where its answer is true the
program has asked to exit with status 0. -/
theorem processRunForeground_restores (h : AtPrompt blocks s) (call : ForegroundCall) :
    (call.Fits → (processStart call s).result.isSome = true) ∧
    (∀ kernelRoot s₁ acts s₂ invokeResult, processStart call s = .ok kernelRoot s₁ →
      Runs ProgramStep s₁ acts s₂ →
      (processFinish kernelRoot invokeResult s₂).result.isSome = true) ∧
    ∀ acts ok s', ForegroundRun call s acts ok s' →
      Restored s s' ∧ (ok = true → ∃ act ∈ acts, act.ExitsWell) := by
  refine ⟨fun hcall => ((processStart_ends h.between.idle).ends hcall).result_isSome, ?_, ?_⟩
  · intro kernelRoot s₁ acts s₂ invokeResult hstart hrun
    exact (h.finish hstart hrun invokeResult).result_isSome
  · intro acts ok s' hrun
    obtain ⟨hreturned, hanswer⟩ := hrun.returned h
    exact ⟨hreturned.restored h.root, hanswer⟩

/-- The kernel of the samples at the prompt. -/
theorem sampleBefore_atPrompt : AtPrompt [] sampleBefore :=
  ⟨sampleKernel_between, rfl, by decide +kernel⟩

theorem sampleCall_fits : sampleCall.Fits := by
  constructor
  · intro cwd hcwd
    obtain rfl := Option.some.inj hcwd
    decide
  · intro file hfile
    obtain rfl := Option.some.inj hfile
    decide +kernel

/-- `exit(0)`. -/
def sampleExit : ProgramAct := .syscall [] ⟨0, 0, 0⟩

/-- A program that exits with status 0 as soon as it is entered. -/
theorem processRunForeground_restores_exit :
    (processStart sampleCall sampleBefore).result.isSome = true ∧
    ∃ s', ForegroundRun sampleCall sampleBefore [sampleExit] true s' ∧ Restored sampleBefore s' := by
  obtain ⟨kernelRoot, m, hstart⟩ := exists_ok_of_isOk
    (show (processStart sampleCall sampleBefore).isOk = true by decide +kernel)
  have hentered := (processStart_ends sampleBefore_atPrompt.between.idle).sat.of_ok hstart
  have hexit := ProgramStep.syscall m [] ⟨0, 0, 0⟩
  rw [processHandleSyscall_exit hentered.active rfl] at hexit
  have hrun := ForegroundRun.ran m _ kernelRoot [sampleExit] 1 hstart (.cons hexit (.nil _))
  obtain ⟨hends, -, hrestores⟩ := processRunForeground_restores sampleBefore_atPrompt sampleCall
  exact ⟨hends sampleCall_fits, _, hrun, (hrestores _ _ _ hrun).1⟩

end FunnyOS.Programs
