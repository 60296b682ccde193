import FunnyOS.Fat32.Layout
import FunnyOS.Fat32.Operations
import FunnyOS.Kernel.PathText
import FunnyOS.Kernel.Shell

/-!
# What a line of the shell does

Every line leads to at most one call of an operation that changes the volume, and only
`shell_command_cd` changes `g_cwd`. The paths that the shell hands to the file system are canonical.
-/

namespace FunnyOS.Shell

open Prog Paths
open Devices (KeyEvent typedLine newline backspace)
open Fat32 (CStr Operation CanonicalPath)

/-! ## What a line asks for -/

/-- The path that `path_normalize` gives. -/
def normalized (cwd input : CString) : Option CString :=
  match pathNormalize (some cwd) (some input) pathCapacity ⟨fun _ => 0, 0, fun _ => 0, 0⟩ with
  | .ok _ p => some (stringIn ((List.range pathCapacity).map p.out))
  | _ => none

/-- The file operation of a command with an argument that is not empty. -/
def ShellCommand.operation (cwd : CString) (argument : CStr) : ShellCommand → Option Operation
  | .mkdir => (normalized cwd (stringIn argument)).map fun path => .makeDir path.chars
  | .write => (shellSplitWriteArgs argument).bind fun args =>
      (normalized cwd (stringIn args.1)).map fun path => .writeFile path.chars args.2 false
  | .append => (shellSplitWriteArgs argument).bind fun args =>
      (normalized cwd (stringIn args.1)).map fun path => .writeFile path.chars args.2 true
  | .rm => (normalized cwd (stringIn argument)).map fun path => .remove path.chars
  | .mv => (shellSplitTwoArgs argument).bind fun args =>
      (normalized cwd (stringIn args.1)).bind fun oldPath =>
        (normalized cwd (stringIn args.2)).map fun newPath => .rename oldPath.chars newPath.chars
  | _ => none

/-- The file operation that a line leads to. -/
def lineOperation (cwd line : CString) : Option Operation :=
  (shellFindCommand (splitLine line.chars).1).bind fun command =>
    ((splitLine line.chars).2.filter (· ≠ [])).bind fun argument => command.operation cwd argument

section

variable {μ α β : Type} {env : Fat32.Env} {machine : Machine μ} {s s₁ s' : ShellState μ}
  {cwd input line path : CString} {argument : Option CStr} {command : CStr} {x : ShellProg μ α}
  {f : α → ShellProg μ β}

/-! ## Steps that change neither the volume nor the current directory -/

/-- The same volume and the same current directory. -/
structure Same (g : Fat32.Geometry) (s s' : ShellState μ) : Prop where
  cwd : s'.cwd = s.cwd
  volume : s'.fs.volume g = s.fs.volume g

theorem Same.refl {g : Fat32.Geometry} : Same g s s := ⟨rfl, rfl⟩

theorem Same.trans {g : Fat32.Geometry} (h : Same g s s₁) (h' : Same g s₁ s') : Same g s s' :=
  ⟨h'.cwd.trans h.cwd, h'.volume.trans h.volume⟩

/-- Where the step returns, it has changed neither. -/
def Leaves (env : Fat32.Env) (x : ShellProg μ α) : Prop :=
  ∀ s a s', x s = .ok a s' → Same env.geometry s s'

theorem Leaves.pure {a : α} : Leaves env (Pure.pure a : ShellProg μ α) := by
  intro s a s' h
  cases h
  exact .refl

theorem Leaves.raise {e : ShellStop} : Leaves env (raise e : ShellProg μ α) := by
  intro s a s' h
  cases h

theorem Leaves.get : Leaves env (get : ShellProg μ (ShellState μ)) := by
  intro s a s' h
  cases h
  exact .refl

theorem Leaves.bind (hx : Leaves env x) (hf : ∀ a, Leaves env (f a)) : Leaves env (x >>= f) := by
  intro s b s' h
  obtain ⟨a, s₁, h₁, h₂⟩ := ok_of_bind h
  exact (hx s a s₁ h₁).trans (hf a s₁ b s' h₂)

theorem Leaves.ite {c : Prop} [Decidable c] {y : ShellProg μ α} (hx : Leaves env x)
    (hy : Leaves env y) : Leaves env (if c then x else y) := by
  split
  · exact hx
  · exact hy

theorem consoleWrite_leaves {text : CStr} : Leaves env (consoleWrite text : ShellProg μ Unit) := by
  intro s a s' h
  cases h
  exact ⟨rfl, rfl⟩

theorem consoleWriteLine_leaves {text : CStr} :
    Leaves env (consoleWriteLine text : ShellProg μ Unit) := consoleWrite_leaves

theorem onMachine_leaves {step : μ → α × μ} : Leaves env (onMachine step) := by
  intro s a s' h
  cases h
  exact ⟨rfl, rfl⟩

/-- A call of the driver that has returned. -/
theorem callFat32_ok {call : Fat32.Driver α} {r : Except FsResult α}
    (h : callFat32 call s = .ok r s') : ∃ fs, s' = { s with fs := fs } ∧
      ((∃ a, r = .ok a ∧ call s.fs = .ok a fs) ∨
        ∃ e, r = .error (mapResult e) ∧ call s.fs = .error e fs) := by
  unfold callFat32 at h
  cases hc : call s.fs with
  | ok a fs =>
    rw [hc] at h
    cases h
    exact ⟨fs, rfl, .inl ⟨a, rfl, rfl⟩⟩
  | error e fs =>
    rw [hc] at h
    cases h
    exact ⟨fs, rfl, .inr ⟨e, rfl, rfl⟩⟩
  | fault fs =>
    rw [hc] at h
    cases h
  | timeout fs =>
    rw [hc] at h
    cases h

/-- Reading a cluster leaves the volume. -/
theorem readCluster_keepsVolume {v : Fat32.Volume} (c : Nat) :
    Maintains (fun s : Fat32.State => s.volume env.geometry = v) (Fat32.readCluster env c) := by
  unfold Fat32.readCluster
  refine .ite (fun _ => .pure) fun _ => .ite (fun _ => ?_) fun _ => .pure
  refine .bind (fun s hs => ?_) fun r => ?_
  · unfold Fat32.blockReadSectors
    simp only
    split <;> exact hs
  · cases r with
    | none => exact .pure
    | some bytes => exact .bind (.modify fun _ hs => hs) fun _ => .pure

/-- A call that keeps what the reading of clusters keeps. -/
theorem callFat32_leaves {call : Fat32.Driver α}
    (h : ∀ v, Maintains (fun s : Fat32.State => s.volume env.geometry = v) call) :
    Leaves env (callFat32 call : ShellProg μ (Except FsResult α)) := by
  intro s r s' hcall
  obtain ⟨fs, rfl, ⟨a, -, hc⟩ | ⟨e, -, hc⟩⟩ := callFat32_ok hcall
  all_goals
    have hv := h _ s.fs rfl
    rw [hc] at hv
    exact ⟨rfl, hv⟩

theorem fsStat_leaves {path : CStr} : Leaves (μ := μ) env (fsStat env path) :=
  .bind (callFat32_leaves fun _ => Fat32.fat32Stat_maintains readCluster_keepsVolume)
    fun _ => .pure

theorem fsListDir_leaves {κ : Type} {path : CStr} {callback : κ → FsNodeInfo → κ × Bool}
    {context : κ} : Leaves (μ := μ) env (fsListDir env path callback context) :=
  callFat32_leaves fun _ => Fat32.fat32ListDir_maintains readCluster_keepsVolume

theorem fsReadFile_leaves {κ : Type} {path : CStr} {callback : κ → List UInt8 → κ × Bool}
    {context : κ} : Leaves (μ := μ) env (fsReadFile env path callback context) :=
  callFat32_leaves fun _ => Fat32.fat32ReadFile_maintains readCluster_keepsVolume

/-- The normalisation of a path that has returned. -/
theorem normalizePath_ok {r : Option CString} (h : normalizePath cwd input s = .ok r s') :
    s = s' ∧ r = normalized cwd input := by
  unfold normalizePath at h
  unfold normalized
  split at h
  all_goals cases h
  all_goals
    next hp =>
      rw [hp]
      exact ⟨rfl, rfl⟩

theorem normalizePath_leaves : Leaves (μ := μ) env (normalizePath cwd input) := by
  intro s r s' h
  rw [← (normalizePath_ok h).1]
  exact .refl

/-- A path that has been resolved, or a message. -/
theorem resolvePathOrPrint_ok (env : Fat32.Env) {r : Option CString}
    (h : resolvePathOrPrint input s = .ok r s') :
    r = normalized s.cwd input ∧ (r = none ∧ Same env.geometry s s' ∨ s' = s) := by
  obtain ⟨p, s₁, hnorm, h⟩ := ok_of_bind (x := normalizePath s.cwd input) h
  obtain ⟨rfl, rfl⟩ := normalizePath_ok hnorm
  cases hp : normalized s.cwd input with
  | some p =>
    rw [hp] at h
    cases h
    exact ⟨rfl, .inr rfl⟩
  | none =>
    rw [hp] at h
    obtain ⟨u, s₂, hwrite, h⟩ := ok_of_bind h
    cases h
    exact ⟨rfl, .inl ⟨rfl, consoleWriteLine_leaves _ _ _ hwrite⟩⟩

theorem resolvePathOrPrint_leaves : Leaves (μ := μ) env (resolvePathOrPrint input) := by
  intro s r s' h
  rcases (resolvePathOrPrint_ok env h).2 with ⟨-, hsame⟩ | rfl
  · exact hsame
  · exact .refl

theorem shellPrintFsResult_leaves {r : Except FsResult α} {treat : Bool} :
    Leaves (μ := μ) env (shellPrintFsResult r treat) := by
  unfold shellPrintFsResult
  split
  · exact .pure
  · split
    · exact .pure
    · exact consoleWriteLine_leaves

/-! ### Programs -/

theorem buildLookupPath_leaves : Leaves (μ := μ) env (buildLookupPath cwd command) :=
  .ite normalizePath_leaves (.ite .pure normalizePath_leaves)

theorem readProgram_leaves {path : CStr} : Leaves env (readProgram env machine path) := by
  refine .bind fsStat_leaves fun answer => ?_
  split
  · exact .pure
  · refine .ite (.bind consoleWriteLine_leaves fun _ => .pure) ?_
    refine .ite (.bind consoleWriteLine_leaves fun _ => .pure) ?_
    refine .bind fsReadFile_leaves fun answer => ?_
    split
    · exact .bind consoleWriteLine_leaves fun _ => .pure
    · exact .ite (.bind consoleWriteLine_leaves fun _ => .pure) .pure

theorem processRunForeground_leaves {path : CStr} :
    Leaves env (processRunForeground env machine path command argument cwd) := by
  refine .bind onMachine_leaves fun started => ?_
  split
  · exact .bind consoleWriteLine_leaves fun _ => .pure
  · refine .bind readProgram_leaves fun file => ?_
    split
    · exact .bind onMachine_leaves fun _ => .pure
    · exact .bind onMachine_leaves fun _ => .bind consoleWrite_leaves fun _ => .pure

theorem findProgram_leaves : Leaves (μ := μ) env (findProgram env cwd command) := by
  refine .bind buildLookupPath_leaves fun path => ?_
  split
  · exact .pure
  · refine .bind fsStat_leaves fun answer => ?_
    split <;> exact .pure

theorem dispatchTo_leaves :
    Leaves env (dispatchTo env machine path command argument cwd) :=
  .bind processRunForeground_leaves fun _ => .ite .pure .pure

theorem dispatchPath_leaves : Leaves env (dispatchPath env machine command argument cwd) := by
  refine .bind normalizePath_leaves fun path => ?_
  split
  · exact .bind consoleWriteLine_leaves fun _ => .pure
  · refine .bind dispatchTo_leaves fun result => ?_
    split
    · refine .bind fsStat_leaves fun answer => ?_
      split
      · exact .pure
      · exact .bind consoleWriteLine_leaves fun _ => .pure
    · exact .pure

theorem programDispatch_leaves :
    Leaves env (programDispatch env machine command argument cwd) := by
  refine .ite .pure (.ite dispatchPath_leaves ?_)
  refine .bind findProgram_leaves fun found => ?_
  split
  · exact dispatchTo_leaves
  · refine .bind findProgram_leaves fun found => ?_
    split
    · exact dispatchTo_leaves
    · exact .pure

/-! ### Commands -/

theorem withPath_leaves {run : CString → ShellProg μ Unit} (h : ∀ path, Leaves env (run path)) :
    Leaves env (withPath command run) := by
  refine .bind resolvePathOrPrint_leaves fun path => ?_
  split
  · exact h _
  · exact .pure

theorem withArgument_leaves {usage : String} {run : CStr → ShellProg μ Unit}
    (h : ∀ argument, Leaves env (run argument)) :
    Leaves env (withArgument usage argument run) := by
  unfold withArgument
  split
  · exact consoleWriteLine_leaves
  · exact .ite consoleWriteLine_leaves (h _)

theorem withDirectory_leaves {run : CString → ShellProg μ Unit}
    (h : ∀ path, Leaves env (run path)) : Leaves env (withDirectory env path run) := by
  refine .ite (h _) (.bind fsStat_leaves fun answer => ?_)
  split
  · exact consoleWriteLine_leaves
  · exact .ite consoleWriteLine_leaves (h _)

theorem printDirectory_leaves : Leaves (μ := μ) env (printDirectory env path) := by
  refine .bind fsListDir_leaves fun answer => ?_
  split
  · exact consoleWrite_leaves
  · exact shellPrintFsResult_leaves

theorem shellCommandLs_leaves : Leaves (μ := μ) env (shellCommandLs env argument) := by
  refine .bind .get fun s => ?_
  split
  · exact withDirectory_leaves fun _ => printDirectory_leaves
  · exact withPath_leaves fun _ => withDirectory_leaves fun _ => printDirectory_leaves

theorem shellCommandCat_leaves : Leaves (μ := μ) env (shellCommandCat env argument) := by
  refine withArgument_leaves fun input => withPath_leaves fun path => ?_
  refine .bind fsStat_leaves fun answer => ?_
  split
  · exact consoleWriteLine_leaves
  · refine .ite consoleWriteLine_leaves (.bind fsReadFile_leaves fun answer => ?_)
    split
    · exact consoleWriteLine_leaves
    · exact .bind consoleWrite_leaves fun _ => .ite consoleWrite_leaves .pure

theorem shellCommandBlockinfo_leaves : Leaves env (shellCommandBlockinfo machine) := by
  refine .bind consoleWrite_leaves fun _ => ?_
  split <;> exact consoleWriteLine_leaves

theorem shellCommandLspci_leaves : Leaves env (shellCommandLspci machine) := by
  unfold shellCommandLspci
  split
  · exact consoleWriteLine_leaves
  · exact consoleWriteLine_leaves
  · exact consoleWrite_leaves

theorem shellCommandFault_leaves : Leaves (μ := μ) env (shellCommandFault argument) :=
  withArgument_leaves fun _ => .ite .raise (.ite .raise consoleWriteLine_leaves)

/-! ## What a line does -/

/-- What a line that may lead to the operation `op` does to the file system and to the current
directory. -/
inductive LineEffect (env : Fat32.Env) (cwd : CString) (fs : Fat32.State) (cwd' : CString)
    (fs' : Fat32.State) (op : Option Operation) : Prop
  | leaves (same : cwd' = cwd) (volume : fs'.volume env.geometry = fs.volume env.geometry)
  | calls {operation : Operation} {after : Fat32.State} (asked : op = some operation)
      (same : cwd' = cwd) (called : Fat32.After env fs operation after)
      (volume : fs'.volume env.geometry = after.volume env.geometry)
  | enters {argument : CStr} (short : argument.length < shellLineCapacity)
      (path : normalized cwd (stringIn argument) = some cwd')
      (fits : cwd'.chars.length < pathCapacity)
      (volume : fs'.volume env.geometry = fs.volume env.geometry)
      (dir : cwd'.chars = [slash] ∨ ∃ node after,
        Fat32.fat32Stat env cwd'.chars fs = .ok node after ∧ node.isDir = true)

variable {op : Option Operation} {run : CString → ShellProg μ Unit} {usage : String} {u : Unit}

theorem LineEffect.of_same (h : Same env.geometry s s') :
    LineEffect env s.cwd s.fs s'.cwd s'.fs op := .leaves h.cwd h.volume

/-- What is written behind a line changes nothing. -/
theorem LineEffect.behind (h : LineEffect env s.cwd s.fs s₁.cwd s₁.fs op)
    (hsame : Same env.geometry s₁ s') : LineEffect env s.cwd s.fs s'.cwd s'.fs op := by
  have hcwd := hsame.cwd
  have hv := hsame.volume
  cases h with
  | leaves same volume => exact .leaves (hcwd.trans same) (hv.trans volume)
  | calls asked same called volume => exact .calls asked (hcwd.trans same) called (hv.trans volume)
  | enters short path fits volume dir =>
    rw [hcwd]
    exact .enters short path fits (hv.trans volume) dir

/-- A path has been normalised for the rest of the command, or there is a message only. -/
theorem withPath_ok (env : Fat32.Env) (h : withPath command run s = .ok u s') :
    Same env.geometry s s' ∨
      ∃ path, normalized s.cwd (stringIn command) = some path ∧ run path s = .ok u s' := by
  obtain ⟨r, s₁, hr, h⟩ := ok_of_bind h
  obtain ⟨heq, ⟨rfl, hsame⟩ | rfl⟩ := resolvePathOrPrint_ok env hr
  · cases h
    exact .inl hsame
  · cases r with
    | none =>
      cases h
      exact .inl .refl
    | some path => exact .inr ⟨path, heq.symm, h⟩

/-- A command that needs an argument has one, or there is a message only. -/
theorem withArgument_ok (env : Fat32.Env) {next : CStr → ShellProg μ Unit}
    (h : withArgument usage argument next s = .ok u s') :
    Same env.geometry s s' ∨
      ∃ given, argument.filter (· ≠ []) = some given ∧ argument = some given ∧
        next given s = .ok u s' := by
  unfold withArgument at h
  cases argument with
  | none => exact .inl (consoleWriteLine_leaves _ _ _ h)
  | some given =>
    dsimp only at h
    split at h
    · exact .inl (consoleWriteLine_leaves _ _ _ h)
    · next hne => exact .inr ⟨given, by simp [Option.filter, hne], rfl, h⟩

/-- An operation has been called and its result printed. -/
theorem callAndPrint_effect {o : Operation} {treat : Bool}
    (h : (callFat32 (o.call env) >>= fun r => shellPrintFsResult r treat) s = .ok u s') :
    LineEffect env s.cwd s.fs s'.cwd s'.fs (some o) := by
  obtain ⟨r, s₁, hcall, h⟩ := ok_of_bind h
  have hprint : Same env.geometry s₁ s' := shellPrintFsResult_leaves _ _ _ h
  obtain ⟨fs, rfl, ⟨a, -, hc⟩ | ⟨e, -, hc⟩⟩ := callFat32_ok hcall
  · exact .calls rfl hprint.cwd (.inl hc) hprint.volume
  · exact .calls rfl hprint.cwd (.inr ⟨e, hc⟩) hprint.volume

theorem shellCommandMkdir_effect (h : shellCommandMkdir env argument s = .ok u s') :
    LineEffect env s.cwd s.fs s'.cwd s'.fs
      ((argument.filter (· ≠ [])).bind fun a => ShellCommand.mkdir.operation s.cwd a) := by
  obtain hsame | ⟨given, hgiven, -, h⟩ := withArgument_ok env h
  · exact .of_same hsame
  obtain hsame | ⟨path, hpath, h⟩ := withPath_ok env h
  · exact .of_same hsame
  rw [hgiven, Option.bind_some, ShellCommand.operation, hpath]
  exact callAndPrint_effect (o := .makeDir path.chars) h

theorem shellCommandRm_effect (h : shellCommandRm env argument s = .ok u s') :
    LineEffect env s.cwd s.fs s'.cwd s'.fs
      ((argument.filter (· ≠ [])).bind fun a => ShellCommand.rm.operation s.cwd a) := by
  obtain hsame | ⟨given, hgiven, -, h⟩ := withArgument_ok env h
  · exact .of_same hsame
  obtain hsame | ⟨path, hpath, h⟩ := withPath_ok env h
  · exact .of_same hsame
  rw [hgiven, Option.bind_some, ShellCommand.operation, hpath]
  exact callAndPrint_effect (o := .remove path.chars) h

/-- The argument is copied as it is. -/
theorem copyArgument_ok {given copied : CStr} (h : copyArgument given s = .ok copied s') :
    copied = given ∧ s = s' := by
  unfold copyArgument at h
  split at h
  · cases h
    exact ⟨rfl, rfl⟩
  · cases h

theorem shellCommandWriteInternal_effect {append : Bool}
    (h : shellCommandWriteInternal env usage argument append s = .ok u s') :
    LineEffect env s.cwd s.fs s'.cwd s'.fs
      ((argument.filter (· ≠ [])).bind fun a => (shellSplitWriteArgs a).bind fun args =>
        (normalized s.cwd (stringIn args.1)).map fun path =>
          .writeFile path.chars args.2 append) := by
  unfold shellCommandWriteInternal at h
  cases argument with
  | none => exact .of_same (consoleWriteLine_leaves _ _ _ h)
  | some given =>
    obtain ⟨copied, s₁, hcopy, h⟩ := ok_of_bind h
    obtain ⟨rfl, rfl⟩ := copyArgument_ok hcopy
    cases hargs : shellSplitWriteArgs copied with
    | none =>
      rw [hargs] at h
      exact .of_same (consoleWriteLine_leaves _ _ _ h)
    | some args =>
      rw [hargs] at h
      obtain hsame | ⟨path, hpath, h⟩ := withPath_ok env h
      · exact .of_same hsame
      have hne : copied ≠ [] := by
        rintro rfl
        cases hargs
      have hfilter : Option.filter (· ≠ []) (some copied) = some copied := by
        simp [Option.filter, hne]
      rw [hfilter, Option.bind_some, hargs, Option.bind_some, hpath]
      exact callAndPrint_effect (o := .writeFile path.chars args.2 append) h

theorem shellCommandMv_effect (h : shellCommandMv env argument s = .ok u s') :
    LineEffect env s.cwd s.fs s'.cwd s'.fs
      ((argument.filter (· ≠ [])).bind fun a => ShellCommand.mv.operation s.cwd a) := by
  unfold shellCommandMv at h
  cases argument with
  | none => exact .of_same (consoleWriteLine_leaves _ _ _ h)
  | some given =>
    obtain ⟨copied, s₁, hcopy, h⟩ := ok_of_bind h
    obtain ⟨rfl, rfl⟩ := copyArgument_ok hcopy
    cases hargs : shellSplitTwoArgs copied with
    | none =>
      rw [hargs] at h
      exact .of_same (consoleWriteLine_leaves _ _ _ h)
    | some args =>
      rw [hargs] at h
      obtain hsame | ⟨oldPath, hold, h⟩ := withPath_ok env h
      · exact .of_same hsame
      obtain hsame | ⟨newPath, hnew, h⟩ := withPath_ok env h
      · exact .of_same hsame
      have hne : copied ≠ [] := by
        rintro rfl
        cases hargs
      have hfilter : Option.filter (· ≠ []) (some copied) = some copied := by
        simp [Option.filter, hne]
      rw [hfilter, Option.bind_some, ShellCommand.operation, hargs, Option.bind_some, hold,
        Option.bind_some, hnew]
      exact callAndPrint_effect (o := .rename oldPath.chars newPath.chars) h

/-- `cd` enters a directory or prints a message. -/
theorem shellCommandCd_effect (hshort : ∀ given, argument = some given →
    given.length < shellLineCapacity) (h : shellCommandCd env argument s = .ok u s') :
    LineEffect env s.cwd s.fs s'.cwd s'.fs op := by
  obtain hsame | ⟨given, -, hgiven, h⟩ := withArgument_ok env h
  · exact .of_same hsame
  obtain hsame | ⟨path, hpath, h⟩ := withPath_ok env h
  · exact .of_same hsame
  have henter : ∀ t : ShellState μ, t.cwd = s.cwd →
      t.fs.volume env.geometry = s.fs.volume env.geometry →
      (path.chars = [slash] ∨ ∃ node after,
        Fat32.fat32Stat env path.chars s.fs = .ok node after ∧ node.isDir = true) →
      setCwd path t = .ok u s' → LineEffect env s.cwd s.fs s'.cwd s'.fs op := by
    intro t hcwd hv hdir hset
    unfold setCwd at hset
    split at hset
    · next hfits =>
        cases hset
        exact .enters (hshort given hgiven) hpath hfits hv hdir
    · cases hset
  unfold withDirectory at h
  split at h
  · next hroot => exact henter s rfl rfl (.inl hroot) h
  · obtain ⟨answer, s₁, hstat, h⟩ := ok_of_bind h
    have hsame := fsStat_leaves _ _ _ hstat
    obtain ⟨raw, s₂, hcall, hpure⟩ := ok_of_bind hstat
    cases hpure
    obtain ⟨fs, rfl, ⟨node, rfl, hc⟩ | ⟨e, rfl, -⟩⟩ := callFat32_ok hcall
    · simp only [Except.map] at h
      split at h
      · exact .of_same (hsame.trans (consoleWriteLine_leaves _ _ _ h))
      · next hdir =>
          refine henter { s with fs := fs } rfl hsame.volume (.inr ⟨node, fs, hc, ?_⟩) h
          by_contra hfile
          exact hdir (by simp [copyNodeInfo, hfile])
    · exact .of_same (hsame.trans (consoleWriteLine_leaves _ _ _ h))

/-- A command leads to the operation that its argument asks for, or to none. -/
theorem ShellCommand.handler_effect {shellCommand : ShellCommand}
    (hshort : ∀ given, argument = some given → given.length < shellLineCapacity)
    (h : shellCommand.handler env machine argument s = .ok u s') :
    LineEffect env s.cwd s.fs s'.cwd s'.fs
      ((argument.filter (· ≠ [])).bind fun a => shellCommand.operation s.cwd a) := by
  cases shellCommand with
  | help => exact .of_same (consoleWriteLine_leaves _ _ _ h)
  | ls => exact .of_same (shellCommandLs_leaves _ _ _ h)
  | cd => exact shellCommandCd_effect hshort h
  | pwd => exact .of_same (Leaves.bind .get (fun _ => consoleWriteLine_leaves) _ _ _ h)
  | cat => exact .of_same (shellCommandCat_leaves _ _ _ h)
  | clear =>
    cases h
    exact .of_same ⟨rfl, rfl⟩
  | mkdir => exact shellCommandMkdir_effect h
  | write => exact shellCommandWriteInternal_effect h
  | append => exact shellCommandWriteInternal_effect h
  | rm => exact shellCommandRm_effect h
  | mv => exact shellCommandMv_effect h
  | memstat => exact .of_same (Leaves.bind .get (fun _ => consoleWrite_leaves) _ _ _ h)
  | blockinfo => exact .of_same (shellCommandBlockinfo_leaves _ _ _ h)
  | lspci => exact .of_same (shellCommandLspci_leaves _ _ _ h)
  | panic => cases h
  | fault => exact .of_same (shellCommandFault_leaves _ _ _ h)

/-- The argument is not longer than the line. -/
theorem splitLine_length {text given : CStr} (h : (splitLine text).2 = some given) :
    given.length ≤ text.length := by
  simp only [splitLine] at h
  split at h
  · cases h
  · cases h
    exact ((List.dropWhile_sublist _).trans
      ((List.dropWhile_sublist _).trans (List.dropWhile_sublist _))).length_le

theorem shellExecute_effect (hshort : line.chars.length < shellLineCapacity)
    (h : shellExecute env machine line s = .ok u s') :
    LineEffect env s.cwd s.fs s'.cwd s'.fs (lineOperation s.cwd line) := by
  unfold lineOperation
  unfold shellExecute at h
  split at h
  · cases h
    exact .leaves rfl rfl
  · cases hfound : shellFindCommand (splitLine line.chars).1 with
    | some shellCommand =>
      rw [hfound] at h
      exact ShellCommand.handler_effect
        (fun given hgiven => lt_of_le_of_lt (splitLine_length hgiven) hshort) h
    | none =>
      rw [hfound] at h
      refine .of_same (Leaves.bind .get (fun t => ?_) s u s' h)
      refine .bind programDispatch_leaves fun result => ?_
      split
      · exact consoleWriteLine_leaves
      · exact .pure

/-- The text in front of a line. -/
def prompt (cwd : CString) : CStr := literal "FunnyOS:" ++ cwd.chars ++ literal "> "

/-- The editor gives the line that has been typed and leaves it on the console, whatever has been
taken back on the way. -/
theorem readLineFrom_typed {capacity : Nat} {events : List KeyEvent} {buffer typed text : CStr}
    (h : typedLine capacity events buffer = some typed) (hconsole : s.console = text ++ buffer) :
    readLineFrom capacity events buffer s
      = .ok typed { s with console := text ++ typed ++ [newline] } := by
  induction events generalizing buffer s with
  | nil => cases h
  | cons event rest ih =>
    rw [typedLine] at h
    rw [readLineFrom]
    cases hchar : event.char with
    | none =>
      rw [hchar] at h
      exact ih h hconsole
    | some c =>
      rw [hchar] at h
      dsimp only at h ⊢
      by_cases hback : c = backspace
      · rw [if_pos hback] at h ⊢
        by_cases hempty : buffer = []
        · rw [hempty] at h hconsole ⊢
          exact ih h hconsole
        · rw [if_pos (mt List.length_eq_zero_iff.mp hempty)]
          refine ih (s := { s with console := s.console.dropLast }) h ?_
          rw [hconsole, List.dropLast_append_of_ne_nil hempty]
      rw [if_neg hback] at h ⊢
      by_cases hnewline : c = newline
      · rw [if_pos hnewline] at h ⊢
        obtain rfl := Option.some.inj h
        rw [← hconsole]
        rfl
      rw [if_neg hnewline] at h ⊢
      by_cases hroom : buffer.length + 1 < capacity
      · rw [if_pos hroom] at h
        rw [if_neg (by omega)]
        refine ih (s := { s with console := s.console ++ [c] }) h ?_
        rw [hconsole, List.append_assoc]
      · rw [if_neg hroom] at h
        rw [if_pos (by omega)]
        exact ih h hconsole

/-- A round of the shell executes the line that has been typed, behind the prompt and the line. -/
theorem shellRound_typed {events : List KeyEvent}
    (h : typedLine shellLineCapacity events [] = some line.chars) :
    shellRound env machine events s = (shellExecute env machine line >>= fun _ =>
      consoleWrite [newline]) { s with
        console := s.console ++ prompt s.cwd ++ line.chars ++ [newline] } := by
  have hprompt : shellPrintPrompt s = .ok () { s with console := s.console ++ prompt s.cwd } := rfl
  have hread : keyboardReadLine events shellLineCapacity
      { s with console := s.console ++ prompt s.cwd } = .ok line.chars { s with
        console := s.console ++ prompt s.cwd ++ line.chars ++ [newline] } :=
    readLineFrom_typed (s := { s with console := s.console ++ prompt s.cwd }) h
      (List.append_nil _).symm
  have hline : stringIn line.chars = line := by
    obtain ⟨chars, noNul⟩ := line
    unfold stringIn
    congr 1
    exact List.takeWhile_eq_self_iff.mpr fun c hc => by simpa using noNul c hc
  unfold shellRound
  rw [bind_of_ok hprompt, bind_of_ok hread, hline]

/-- A round of the shell has the effect of the line. -/
theorem shellRound_effect {events : List KeyEvent}
    (hline : typedLine shellLineCapacity events [] = some line.chars)
    (h : shellRound env machine events s = .ok u s') :
    LineEffect env s.cwd s.fs s'.cwd s'.fs (lineOperation s.cwd line) := by
  rw [shellRound_typed hline] at h
  obtain ⟨u₁, s₁, hexecute, h⟩ := ok_of_bind h
  have heff := shellExecute_effect (Devices.length_typedLine hline (by decide)) hexecute
  exact LineEffect.behind (s := s) heff (consoleWrite_leaves _ _ _ h)

/-! ## Normalised paths -/

/-- A string that ends in the buffer. -/
theorem stringIn_range {out : Nat → UInt8} {text : List UInt8} {n : Nat}
    (h : StringAt out 0 text) (hn : text.length < n) :
    (stringIn ((List.range n).map out)).chars = text := by
  obtain ⟨k, rfl⟩ := Nat.exists_eq_add_of_lt hn
  have htext : (List.range text.length).map out = text := by
    refine List.ext_getElem (by simp) fun i hi hi' => ?_
    have hchar := h.char i hi'
    rw [Nat.zero_add] at hchar
    rw [List.getElem_map, List.getElem_range, hchar]
  have hend : out text.length = 0 := by
    rw [← h.nul, Nat.zero_add]
  rw [stringIn, Nat.add_assoc, List.range_add, List.map_append, htext, Nat.add_comm k 1,
    List.range_add]
  simp only [List.range_one, List.map_append, List.map_cons, List.map_nil, Nat.add_zero, hend]
  rw [List.takeWhile_append_of_pos (fun c hc => by simpa using h.noNul c hc)]
  simp

/-- The paths that the shell works with are canonical and fit. -/
theorem normalized_canonical (hcwd : cwd.chars.length < pathCapacity)
    (hinput : input.chars.length < shellLineCapacity) (h : normalized cwd input = some path) :
    CanonicalPath path.chars ∧ path.chars.length < pathCapacity := by
  have hcount : Countable pathCapacity (pathComponents cwd.chars input.chars) := by
    intro c hc
    have hword : ∀ text : List UInt8, text.length < 128 → c ∈ words (· == slash) text →
        c.length + pathCapacity ≤ 2 ^ 32 := by
      intro text htext hmem
      have hlen := length_of_mem_words hmem
      rw [pathCapacity]
      omega
    unfold pathComponents at hc
    split at hc
    · exact hword _ hinput hc
    · exact (List.mem_append.mp hc).elim (hword _ hcwd) (hword _ hinput)
  have hends : Ends (pathNormalize (some cwd) (some input) pathCapacity)
      ⟨fun _ => 0, 0, fun _ => 0, 0⟩ _ _ := pathNormalize_ends (by decide) (le_refl _) hcount
  unfold Ends at hends
  unfold normalized at h
  split at h
  · next p hp =>
      rw [hp] at hends
      obtain ⟨-, hholds, hnul⟩ := hends
      have hstring := hholds.stringAt hnul normalText_noNul
      obtain rfl := Option.some.inj h
      have hfits : PathFits pathCapacity _ := hholds.fits
      rw [stringIn_range hstring hfits]
      exact ⟨⟨_, rfl, hholds.canonical⟩, hfits⟩
  · cases h

/-- The arguments of a line with a text are not longer than the line. -/
theorem shellSplitWriteArgs_length {given : CStr} {args : CStr × CStr}
    (h : shellSplitWriteArgs given = some args) :
    args.1.length ≤ given.length ∧ args.2.length ≤ given.length := by
  simp only [shellSplitWriteArgs] at h
  split at h
  · cases h
  · cases h
    exact ⟨((List.takeWhile_sublist _).trans (List.dropWhile_sublist _)).length_le,
      ((List.dropWhile_sublist _).trans
        ((List.dropWhile_sublist _).trans (List.dropWhile_sublist _))).length_le⟩

theorem shellSplitTwoArgs_length {given : CStr} {args : CStr × CStr}
    (h : shellSplitTwoArgs given = some args) :
    args.1.length ≤ given.length ∧ args.2.length ≤ given.length := by
  simp only [shellSplitTwoArgs] at h
  split at h
  · cases h
  · cases h
    exact ⟨((List.takeWhile_sublist _).trans (List.dropWhile_sublist _)).length_le,
      ((List.takeWhile_sublist _).trans ((List.dropWhile_sublist _).trans
        ((List.dropWhile_sublist _).trans (List.dropWhile_sublist _)))).length_le⟩

/-- The arguments of a short line are normalised to canonical paths. -/
theorem normalized_argument {given : CStr} (hcwd : cwd.chars.length < pathCapacity)
    (hshort : given.length < shellLineCapacity) (h : normalized cwd (stringIn given) = some path) :
    CanonicalPath path.chars :=
  (normalized_canonical hcwd
    (lt_of_le_of_lt (List.takeWhile_sublist _).length_le hshort) h).1

/-- The calls that a line leads to have canonical paths and little data. -/
theorem lineOperation_admissible {o : Operation} (hcwd : cwd.chars.length < pathCapacity)
    (hshort : line.chars.length < shellLineCapacity) (h : lineOperation cwd line = some o) :
    o.Admissible := by
  obtain ⟨shellCommand, -, h⟩ := Option.bind_eq_some_iff.mp h
  obtain ⟨given, hgiven, h⟩ := Option.bind_eq_some_iff.mp h
  have hlen := lt_of_le_of_lt (splitLine_length (Option.filter_eq_some_iff.mp hgiven).1) hshort
  have hwrite : ∀ append, ((shellSplitWriteArgs given).bind fun args =>
      (normalized cwd (stringIn args.1)).map fun path =>
        Operation.writeFile path.chars args.2 append) = some o → o.Admissible := by
    intro append h
    obtain ⟨args, hargs, h⟩ := Option.bind_eq_some_iff.mp h
    obtain ⟨path, hpath, rfl⟩ := Option.map_eq_some_iff.mp h
    obtain ⟨h₁, h₂⟩ := shellSplitWriteArgs_length hargs
    rw [shellLineCapacity] at hlen
    exact ⟨normalized_argument hcwd (lt_of_le_of_lt h₁ hlen) hpath, by omega⟩
  cases shellCommand with
  | mkdir =>
    obtain ⟨path, hpath, rfl⟩ := Option.map_eq_some_iff.mp h
    exact normalized_argument hcwd hlen hpath
  | rm =>
    obtain ⟨path, hpath, rfl⟩ := Option.map_eq_some_iff.mp h
    exact normalized_argument hcwd hlen hpath
  | write => exact hwrite false h
  | append => exact hwrite true h
  | mv =>
    obtain ⟨args, hargs, h⟩ := Option.bind_eq_some_iff.mp h
    obtain ⟨oldPath, hold, h⟩ := Option.bind_eq_some_iff.mp h
    obtain ⟨newPath, hnew, rfl⟩ := Option.map_eq_some_iff.mp h
    obtain ⟨h₁, h₂⟩ := shellSplitTwoArgs_length hargs
    exact ⟨normalized_argument hcwd (lt_of_le_of_lt h₁ hlen) hold,
      normalized_argument hcwd (lt_of_le_of_lt h₂ hlen) hnew⟩
  | _ => cases h

end

end FunnyOS.Shell
