import FunnyOS.Fat32.KeptPaths
import FunnyOS.Kernel.ShellLines

/-!
# The current directory of the shell

`g_cwd` is the path of a directory that has been checked when it was set. It leads to that directory
as long as no line takes away what stands on the path.
-/

namespace FunnyOS.Shell

open Prog Paths
open Devices (KeyEvent typedLine)
open Fat32 (CStr Fat32NodeInfo Canonical CanonicalPath splitComponents resolve isDir)

section

variable {μ : Type} {env : Fat32.Env} {machine : Machine μ} {s s' : ShellState μ}
  {line path : CString}

/-! ## Runs -/

/-- `g_cwd` is a canonical path that fits its buffer, and the root or what `fs_stat` calls a
directory. -/
structure CwdOk (env : Fat32.Env) (s : ShellState μ) : Prop where
  canonical : CanonicalPath s.cwd.chars
  fits : s.cwd.chars.length < pathCapacity
  dir : s.cwd.chars = [slash] ∨
    ∃ node s', fsStat env s.cwd.chars s = .ok (.ok node) s' ∧ node.type = .dir

/-- The line does not take away the current directory or one above it. -/
def SparesCwd (env : Fat32.Env) (s : ShellState μ) (line : CString) : Prop :=
  ∀ o path, lineOperation s.cwd line = some o → o.takesAway = some path →
    (o.call env s.fs).isOk = true → ¬ splitComponents path <+: splitComponents s.cwd.chars

/-- A round of the shell, in which the line is typed in some way, returns. -/
def RoundStep (env : Fat32.Env) (machine : Machine μ) (s : ShellState μ) (line : CString)
    (s' : ShellState μ) : Prop :=
  ∃ events, typedLine shellLineCapacity events [] = some line.chars ∧
    shellRound env machine events s = .ok () s'

/-- The same, with a line that spares the current directory. -/
def SparingStep (env : Fat32.Env) (machine : Machine μ) (s : ShellState μ) (line : CString)
    (s' : ShellState μ) : Prop := RoundStep env machine s line s' ∧ SparesCwd env s line

/-- The current directory resolves to a directory. -/
structure CwdAt (g : Fat32.Geometry) (v : Fat32.Volume) (cwd : CString) (cs : List CStr)
    (r : Option Fat32.DirectoryEntry) : Prop where
  canonical : Canonical cwd.chars cs
  fits : cwd.chars.length < pathCapacity
  resolved : resolve g v cs = .ok r
  dir : isDir r = true

variable {D : Nat → Prop} {own : Fat32.Owner → List Nat} {cs : List CStr}
  {r : Option Fat32.DirectoryEntry} {lines : List CString}

/-- What `fat32_stat` says of a directory, it resolves to. -/
theorem resolve_of_stat {fs after : Fat32.State} {node : Fat32NodeInfo}
    (hfuel : env.geometry.totalClusters < env.fuel) (hrel : ¬ env.Faulty)
    (hs : Fat32.Sound (Fat32.Tidy Fat32.SlotTidy) env.geometry (fs.volume env.geometry) D own)
    (hpath : Canonical path.chars cs)
    (hstat : Fat32.fat32Stat env path.chars fs = .ok node after) (hdir : node.isDir = true) :
    ∃ r, resolve env.geometry (fs.volume env.geometry) cs = .ok r ∧ isDir r = true := by
  have hresult : (Fat32.fat32Stat env path.chars fs).result = _ :=
    Fat32.fat32Stat_result hfuel hrel hs
  rw [hstat, Fat32.statAt, hpath.splitComponents_eq] at hresult
  rcases hr : resolve env.geometry (fs.volume env.geometry) cs with e | r
  · rw [hr] at hresult
    cases hresult
  · refine ⟨r, rfl, ?_⟩
    rw [hr] at hresult
    cases r with
    | none => rfl
    | some e =>
      dsimp only at hresult
      split at hresult
      · cases hresult
      · cases hresult
        exact hdir

theorem fsStat_ok {given : CStr} {after : Fat32.State} {node : Fat32NodeInfo}
    (h : Fat32.fat32Stat env given s.fs = .ok node after) :
    fsStat env given s = .ok (.ok (copyNodeInfo node)) { s with fs := after } := by
  have hcall : callFat32 (Fat32.fat32Stat env given) s = .ok (.ok node) { s with fs := after } := by
    unfold callFat32
    rw [h]
  unfold fsStat
  rw [bind_of_ok hcall]
  rfl

/-- What `fs_stat` says of the current directory. -/
theorem CwdAt.cwdOk (hfuel : env.geometry.totalClusters < env.fuel) (hrel : ¬ env.Faulty)
    (hs : Fat32.Sound (Fat32.Tidy Fat32.SlotTidy) env.geometry (s.fs.volume env.geometry) D own)
    (h : CwdAt env.geometry (s.fs.volume env.geometry) s.cwd cs r) : CwdOk env s := by
  refine ⟨⟨cs, h.canonical⟩, h.fits, ?_⟩
  rcases List.eq_nil_or_concat cs with rfl | ⟨a, name, rfl⟩
  · exact .inl h.canonical.text
  · rw [List.concat_eq_append] at h
    obtain ⟨r₁, it, -, -, hvalid, -, rfl⟩ := Fat32.resolve_snoc_ok h.resolved
    have hresult : (Fat32.fat32Stat env s.cwd.chars s.fs).result = _ :=
      Fat32.fat32Stat_result hfuel hrel hs
    have hlast : ¬ (Fat32.lastComponentText s.cwd.chars s.cwd.chars).length
        ≥ Fat32.nameCapacity := by
      rw [h.canonical.lastComponentText_eq]
      exact not_le.mpr (Fat32.validateLongName_length hvalid).2
    rw [Fat32.statAt, h.canonical.splitComponents_eq, h.resolved] at hresult
    simp only [if_neg hlast] at hresult
    refine .inr ⟨_, _, fsStat_ok (Prog.eq_ok_of_result (d := s.fs) hresult), ?_⟩
    have hdir := h.dir
    simp only [isDir, Option.all_some] at hdir
    simp [copyNodeInfo, Fat32.decodeNodeInfo, hdir]

/-- A round that spares the current directory keeps what there is to say of it. -/
theorem CwdAt.step (hfuel : env.geometry.totalClusters < env.fuel) (hrel : ¬ env.Faulty)
    (hk : Fat32.Kept (Fat32.Tidy Fat32.SlotTidy) env.geometry (s.fs.volume env.geometry) D own)
    (h : CwdAt env.geometry (s.fs.volume env.geometry) s.cwd cs r)
    (hstep : SparingStep env machine s line s') :
    ∃ D' own' cs' r', Fat32.Kept (Fat32.Tidy Fat32.SlotTidy) env.geometry (s'.fs.volume env.geometry) D' own' ∧
      CwdAt env.geometry (s'.fs.volume env.geometry) s'.cwd cs' r' := by
  obtain ⟨⟨events, hline, hround⟩, hspare⟩ := hstep
  have hshort := Devices.length_typedLine hline (by decide)
  cases shellRound_effect hline hround with
  | leaves same volume =>
    rw [same, volume]
    exact ⟨D, own, cs, r, hk, h⟩
  | @calls o after asked same called volume =>
    have hop : Fat32.AdmissibleStep env s.fs o after :=
      ⟨lineOperation_admissible h.fits hshort asked, called⟩
    obtain ⟨D', own', -, hk'⟩ := hk.step hfuel hrel hop
    have hresolved := hk.resolve_dir hfuel hrel hop
      (fun c hc => (h.canonical.components c hc).upper) h.resolved h.dir fun path htakes hok => by
        rw [← h.canonical.splitComponents_eq]
        exact hspare o path asked htakes hok
    rw [same, volume]
    exact ⟨D', own', cs, r, hk', h.canonical, h.fits, hresolved, h.dir⟩
  | enters short path fits volume dir =>
    obtain ⟨cs', hcs'⟩ := normalized_argument h.fits short path
    rw [volume]
    rcases dir with hroot | ⟨node, after, hstat, hdir⟩
    · have hnil : cs' = [] := by
        rw [← hcs'.splitComponents_eq, hroot]
        rfl
      rw [hnil] at hcs'
      exact ⟨D, own, [], none, hk, hcs', fits, rfl, rfl⟩
    · obtain ⟨r', hr', hd'⟩ := resolve_of_stat hfuel hrel hk.sound hcs' hstat hdir
      exact ⟨D, own, cs', r', hk, hcs', fits, hr', hd'⟩

/-- On a well-formed volume whose directories are in shape, after any lines that do not take away
the current directory or one above it, `g_cwd` is a canonical path that fits its buffer and leads to
a directory. -/
theorem cwdOk_of_run (hfuel : env.geometry.totalClusters < env.fuel) (hrel : ¬ env.Faulty)
    (hwf : Fat32.WellFormed env.geometry (s.fs.volume env.geometry))
    (hshape : Fat32.Shaped env.geometry (s.fs.volume env.geometry)
      (Fat32.Reachable env.geometry (s.fs.volume env.geometry)))
    (hcwd : s.cwd.chars = [slash]) (hrun : Runs (SparingStep env machine) s lines s') :
    CwdOk env s' := by
  have hstart : CwdAt env.geometry (s.fs.volume env.geometry) s.cwd [] none :=
    ⟨⟨hcwd, fun c hc => absurd hc List.not_mem_nil⟩, by rw [hcwd]; decide, rfl, rfl⟩
  obtain ⟨D, own, cs, r, hk, h⟩ := hrun.invariant
    (I := fun s => ∃ D own cs r,
      Fat32.Kept (Fat32.Tidy Fat32.SlotTidy) env.geometry (s.fs.volume env.geometry) D own ∧
        CwdAt env.geometry (s.fs.volume env.geometry) s.cwd cs r) (by
      rintro s line s' ⟨D, own, cs, r, hk, h⟩ hstep
      exact h.step hfuel hrel hk hstep)
    ⟨_, _, _, _, ⟨hwf.sound, hshape⟩, hstart⟩
  exact h.cwdOk hfuel hrel hk.sound

end

/-! ## Runs on small volumes -/

section

open Fat32 (smallGeometry smallEnv smallState endOfChain letterEntry attrArchive attrDirectory)

variable {env : Fat32.Env} {s : ShellState Unit} {lines : List CString}

/-- The test for lines that spare the current directory. -/
def spareTest (env : Fat32.Env) (s : ShellState Unit) (line : CString) : Bool :=
  (lineOperation s.cwd line).all fun o => o.takesAway.all fun path =>
    !(o.call env s.fs).isOk || !decide (splitComponents path <+: splitComponents s.cwd.chars)

theorem sparesCwd_of_test {line : CString} (h : spareTest env s line = true) :
    SparesCwd env s line := by
  intro o path hline htakes hok hpre
  unfold spareTest at h
  rw [hline, Option.all_some, htakes, Option.all_some, hok] at h
  simp [hpre] at h

/-- A kernel without devices, whose programs do nothing. -/
def idleMachine : Machine Unit where
  memoryDumpStats := fun _ => []
  blockBackendKind := .none
  pciDevices := none
  fileCapacity := 0
  startProcess := fun _ _ _ _ => (.ok (), ())
  runProcess := fun _ _ => ((true, []), ())
  releaseProcess := id

/-- The shell when it starts. -/
def shellAt (fs : Fat32.State) : ShellState Unit := ⟨fs, rootPath, [], ()⟩

/-- The characters of some lines. -/
def typed (lines : List String) : List CString := lines.map fun text => stringIn (literal text)

/-- A line as the serial line delivers it. -/
def keysOf (line : CString) : List KeyEvent := line.chars.map .serial ++ [.serial 0x0D]

/-- The shell after a line. -/
def afterLine (env : Fat32.Env) (s : ShellState Unit) (line : CString) : ShellState Unit :=
  (shellRound env idleMachine (keysOf line) s).finalState s

/-- The shell after some lines. -/
def afterLines (env : Fat32.Env) (lines : List CString) (s : ShellState Unit) : ShellState Unit :=
  lines.foldl (afterLine env) s

/-- All lines fit their buffer and return. -/
def roundsOk (env : Fat32.Env) : List CString → ShellState Unit → Bool
  | [], _ => true
  | line :: lines, s =>
      decide (typedLine shellLineCapacity (keysOf line) [] = some line.chars) &&
      (shellRound env idleMachine (keysOf line) s).isOk && roundsOk env lines (afterLine env s line)

/-- All lines spare the current directory. -/
def allSpare (env : Fat32.Env) : List CString → ShellState Unit → Bool
  | [], _ => true
  | line :: lines, s => spareTest env s line && allSpare env lines (afterLine env s line)

theorem runs_afterLines (h : roundsOk env lines s = true) :
    Runs (RoundStep env idleMachine) s lines (afterLines env lines s) := by
  induction lines generalizing s with
  | nil => exact .nil s
  | cons line lines ih =>
    simp only [roundsOk, Bool.and_eq_true, decide_eq_true_eq] at h
    exact .cons ⟨_, h.1.1, Prog.eq_ok_of_isOk h.1.2⟩ (ih h.2)

theorem sparing_afterLines (h : roundsOk env lines s = true) (h' : allSpare env lines s = true) :
    Runs (SparingStep env idleMachine) s lines (afterLines env lines s) := by
  induction lines generalizing s with
  | nil => exact .nil s
  | cons line lines ih =>
    simp only [roundsOk, allSpare, Bool.and_eq_true, decide_eq_true_eq] at h h'
    exact .cons ⟨⟨_, h.1.1, Prog.eq_ok_of_isOk h.1.2⟩, sparesCwd_of_test h'.1⟩ (ih h.2 h'.2)

/-- The test for the current directory. -/
def cwdTest (env : Fat32.Env) (s : ShellState Unit) : Bool :=
  s.cwd.chars = [slash] || match fsStat env s.cwd.chars s with
    | .ok (.ok node) _ => node.type = .dir
    | _ => false

theorem CwdOk.test (h : CwdOk env s) : cwdTest env s = true := by
  unfold cwdTest
  rcases h.dir with hroot | ⟨node, s', hstat, hdir⟩
  · simp [hroot]
  · rw [hstat]
    simp [hdir]

/-- A directory is made and entered, and a file written in it. -/
def enterLines : List CString := typed ["mkdir a", "cd a", "write f hello"]

theorem cwdOk_of_run_enter :
    CwdOk smallEnv (afterLines smallEnv enterLines (shellAt Fat32.emptyState)) :=
  cwdOk_of_run (s := shellAt Fat32.emptyState) (by decide) Fat32.smallEnv_reliable
    (Fat32.sound_of_check Fat32.emptyState_check.1).2
    (Fat32.regular_of_check Fat32.emptyState_check.1 Fat32.emptyState_check.2).shaped rfl
    (sparing_afterLines (by decide +kernel) (by decide +kernel))

/-- The small volume with two more clusters. -/
def wideGeometry : Fat32.Geometry := { smallGeometry with
  totalClusters := 8
  totalSectors := 8
  totalSectors_lt := by decide
  nonData_lt := by decide
  totalClusters_eq := by decide
  totalClusters_le := by decide
  rootCluster_lt := by decide }

@[inherit_doc wideGeometry]
def wideEnv : Fat32.Env := ⟨wideGeometry, fun _ => false, 9⟩

/-- The current directory is removed. -/
def removeLines : List CString := typed ["mkdir a", "cd a", "rm ."]

/-- The directory `/D`, whose slot 1 is the file `B`, is moved into `/P` beside the current
directory, and the file is written to. -/
def moveLines : List CString := typed ["mkdir p/q", "cd p/q", "mv /d /p/d", "write /p/d/b x"]

/-- The name of the current directory is left to another entry in front of it. -/
def renameLines : List CString := typed ["mv oo bbbbbbbbbbbbbbbbbbbbbbbbbbb",
  "mkdir bbbbbbbbbbbbbbbbbbbbbbbbbbb", "cd bbbbbbbbbbbbbbbbbbbbbbbbbbb", "write /f"]

/-- `rm` removes the current directory, of which only the text is known. And where the volume is not
in shape, lines that spare it can make it unreachable too. -/
theorem not_cwdOk_of_run :
    (Fat32.WellFormed smallGeometry (Fat32.emptyState.volume smallGeometry) ∧
      Runs (RoundStep smallEnv idleMachine) (shellAt Fat32.emptyState) removeLines
        (afterLines smallEnv removeLines (shellAt Fat32.emptyState)) ∧
      ¬ CwdOk smallEnv (afterLines smallEnv removeLines (shellAt Fat32.emptyState))) ∧
    (Fat32.WellFormed wideGeometry (Fat32.dotlessState.volume wideGeometry) ∧
      Runs (SparingStep wideEnv idleMachine) (shellAt Fat32.dotlessState) moveLines
        (afterLines wideEnv moveLines (shellAt Fat32.dotlessState)) ∧
      ¬ CwdOk wideEnv (afterLines wideEnv moveLines (shellAt Fat32.dotlessState))) ∧
    (Fat32.WellFormed smallGeometry (Fat32.looseState.volume smallGeometry) ∧
      Runs (SparingStep smallEnv idleMachine) (shellAt Fat32.looseState) renameLines
        (afterLines smallEnv renameLines (shellAt Fat32.looseState)) ∧
      ¬ CwdOk smallEnv (afterLines smallEnv renameLines (shellAt Fat32.looseState))) := by
  have hwide : Fat32.checkVolume wideGeometry (Fat32.dotlessState.volume wideGeometry) [2, 3, 4]
      = true := by
    decide +kernel
  have hloose : Fat32.checkVolume smallGeometry (Fat32.looseState.volume smallGeometry) [2]
      = true := by
    decide +kernel
  refine ⟨⟨(Fat32.sound_of_check Fat32.emptyState_check.1).2, runs_afterLines (by decide +kernel),
    fun h => ?_⟩, ⟨(Fat32.sound_of_check hwide).2,
    sparing_afterLines (by decide +kernel) (by decide +kernel), fun h => ?_⟩,
    (Fat32.sound_of_check hloose).2, sparing_afterLines (by decide +kernel) (by decide +kernel),
    fun h => ?_⟩
  all_goals
    have htest := h.test
    revert htest
    decide +kernel

end

end FunnyOS.Shell
