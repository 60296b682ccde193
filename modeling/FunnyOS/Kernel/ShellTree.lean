import FunnyOS.Fat32.TreeRuns
import FunnyOS.Kernel.CurrentDirectory

/-!
# Sessions on the file tree

A user of the shell sees a current directory and a file tree. A session is a run of this simpler
machine, and what `cat` prints is what the tree has, so a text that was written is printed again
after whatever other lines that leave the file alone.
-/

namespace FunnyOS.Shell

open Prog Paths
open Devices (KeyEvent typedLine newline)
open Fat32 (CStr Operation Canonical CanonicalComponent splitComponents fileTree TreeKept Writes)

/-- What a user sees of the machine. -/
structure View where
  cwd : CString
  tree : FileTree CStr (Option (List UInt8))

/-- What the user sees in a state. -/
def view {μ : Type} (env : Fat32.Env) (s : ShellState μ) : View :=
  ⟨s.cwd, fileTree env.geometry (s.fs.volume env.geometry)⟩

/-- The operation of the line is called and succeeds. -/
def performed {μ : Type} (env : Fat32.Env) (s : ShellState μ) (line : CString) : Bool :=
  (lineOperation s.cwd line).any fun o => (o.call env s.fs).isOk

/-- What a line does to what the user sees: what its operation requests, if that succeeds, and else
nothing, or it enters a directory. -/
inductive View.Step : View → CString × Bool → View → Prop
  | nothing {v : View} {line : CString} : View.Step v (line, false) v
  | operation {v : View} {line : CString} {o : Operation}
      {tree : FileTree CStr (Option (List UInt8))} (asked : lineOperation v.cwd line = some o)
      (done : FileTree.Step Writes v.tree o.request tree) :
      View.Step v (line, true) { v with tree := tree }
  | enter {v : View} {line cwd : CString} {argument : CStr}
      (path : normalized v.cwd (stringIn argument) = some cwd)
      (dir : v.tree (splitComponents cwd.chars) = some .dir) :
      View.Step v (line, false) { v with cwd := cwd }

/-- A round of the shell with a line, and whether the operation of the line is performed. -/
def ObservedStep {μ : Type} (env : Fat32.Env) (machine : Machine μ) (s : ShellState μ)
    (line : CString × Bool) (s' : ShellState μ) : Prop :=
  RoundStep env machine s line.1 s' ∧ line.2 = performed env s line.1

/-- What `shell_command_cat` prints of a file. -/
def catText (bytes : List UInt8) : CStr :=
  bytes ++ if bytes.getLast? ≠ some 0x0A then [0x0A] else []

/-- A round with a line that does not perform anything that concerns the path. -/
def SparingPath {μ : Type} (env : Fat32.Env) (machine : Machine μ) (cs : List CStr)
    (s : ShellState μ) (line : CString) (s' : ShellState μ) : Prop :=
  RoundStep env machine s line s' ∧ (performed env s line = true →
    ∀ o, lineOperation s.cwd line = some o → ¬ o.request.Touches cs)

section

variable {μ : Type} {env : Fat32.Env} {machine : Machine μ} {s s₁ s₂ s₃ s' : ShellState μ}
  {line path : CString} {lines before after : List CString} {cs : List CStr} {bytes : List UInt8}
  {input : CStr} {o : Operation}

/-! ## The operation of a line is called -/

theorem resolvePathOrPrint_of_normalized {given : CString}
    (h : normalized s.cwd given = some path) :
    resolvePathOrPrint given s = .ok (some path) s := by
  have hnormal : normalizePath s.cwd given s = .ok (some path) s := by
    unfold normalized at h
    unfold normalizePath
    split at h
    · next hp =>
      rw [hp]
      simp only [h]
    · cases h
  change (normalizePath s.cwd given >>= _) s = _
  rw [bind_of_ok hnormal]
  rfl

theorem withPath_run {run : CString → ShellProg μ Unit} {given : CStr}
    (h : normalized s.cwd (stringIn given) = some path) : withPath given run s = run path s := by
  unfold withPath
  rw [bind_of_ok (resolvePathOrPrint_of_normalized h)]

theorem withArgument_run {usage : String} {run : CStr → ShellProg μ Unit} {given : CStr}
    (h : given ≠ []) : withArgument usage (some given) run s = run given s := by
  unfold withArgument
  simp only [if_neg h]

/-- The operation has been called, and has left the volume. -/
def Called (env : Fat32.Env) (s : ShellState μ) (o : Operation) (s' : ShellState μ) : Prop :=
  ∃ fs, Fat32.After env s.fs o fs ∧ s'.cwd = s.cwd ∧
    s'.fs.volume env.geometry = fs.volume env.geometry

theorem callAndPrint_called {treat : Bool} {u : Unit}
    (h : (callFat32 (o.call env) >>= fun r => shellPrintFsResult r treat) s = .ok u s') :
    Called env s o s' := by
  obtain ⟨r, s₁, hcall, h⟩ := ok_of_bind h
  have hprint : Same env.geometry s₁ s' := shellPrintFsResult_leaves _ _ _ h
  obtain ⟨fs, rfl, ⟨a, -, hc⟩ | ⟨e, -, hc⟩⟩ := callFat32_ok hcall
  · exact ⟨fs, .inl hc, hprint.cwd, hprint.volume⟩
  · exact ⟨fs, .inr ⟨e, hc⟩, hprint.cwd, hprint.volume⟩

theorem shellCommandWriteInternal_called {append : Bool} {usage : String} {u : Unit} {given : CStr}
    (hasked : ((shellSplitWriteArgs given).bind fun args =>
      (normalized s.cwd (stringIn args.1)).map fun path =>
        Operation.writeFile path.chars args.2 append) = some o)
    (h : shellCommandWriteInternal env usage (some given) append s = .ok u s') :
    Called env s o s' := by
  obtain ⟨args, hargs, hasked⟩ := Option.bind_eq_some_iff.mp hasked
  obtain ⟨path, hpath, rfl⟩ := Option.map_eq_some_iff.mp hasked
  obtain ⟨copied, s₁, hcopy, h⟩ := ok_of_bind h
  obtain ⟨rfl, rfl⟩ := copyArgument_ok hcopy
  rw [hargs] at h
  dsimp only at h
  rw [withPath_run hpath] at h
  exact callAndPrint_called (o := .writeFile path.chars args.2 append) h

/-- A command with an operation calls it. -/
theorem ShellCommand.handler_called {shellCommand : ShellCommand} {u : Unit} {given : CStr}
    (hne : given ≠ []) (hasked : shellCommand.operation s.cwd given = some o)
    (h : shellCommand.handler env machine (some given) s = .ok u s') : Called env s o s' := by
  cases shellCommand with
  | mkdir =>
    obtain ⟨path, hpath, rfl⟩ := Option.map_eq_some_iff.mp hasked
    change shellCommandMkdir env (some given) s = _ at h
    unfold shellCommandMkdir at h
    rw [withArgument_run hne, withPath_run hpath] at h
    exact callAndPrint_called (o := .makeDir path.chars) h
  | rm =>
    obtain ⟨path, hpath, rfl⟩ := Option.map_eq_some_iff.mp hasked
    change shellCommandRm env (some given) s = _ at h
    unfold shellCommandRm at h
    rw [withArgument_run hne, withPath_run hpath] at h
    exact callAndPrint_called (o := .remove path.chars) h
  | write => exact shellCommandWriteInternal_called hasked h
  | append => exact shellCommandWriteInternal_called hasked h
  | mv =>
    obtain ⟨args, hargs, hasked⟩ := Option.bind_eq_some_iff.mp hasked
    obtain ⟨oldPath, hold, hasked⟩ := Option.bind_eq_some_iff.mp hasked
    obtain ⟨newPath, hnew, rfl⟩ := Option.map_eq_some_iff.mp hasked
    change shellCommandMv env (some given) s = _ at h
    obtain ⟨copied, s₁, hcopy, h⟩ := ok_of_bind h
    obtain ⟨rfl, rfl⟩ := copyArgument_ok hcopy
    rw [hargs] at h
    dsimp only at h
    rw [withPath_run hold, withPath_run hnew] at h
    exact callAndPrint_called (o := .rename oldPath.chars newPath.chars) h
  | _ => cases hasked

/-- A round with a line that has an operation calls it. -/
theorem shellRound_called {events : List KeyEvent}
    (htyped : typedLine shellLineCapacity events [] = some line.chars)
    (hasked : lineOperation s.cwd line = some o)
    (h : shellRound env machine events s = .ok () s') : Called env s o s' := by
  obtain ⟨shellCommand, hfound, hasked⟩ := Option.bind_eq_some_iff.mp hasked
  obtain ⟨given, hgiven, hasked⟩ := Option.bind_eq_some_iff.mp hasked
  obtain ⟨hargument, hne⟩ := Option.filter_eq_some_iff.mp hgiven
  rw [shellRound_typed htyped] at h
  obtain ⟨u₁, s₁, hline, h⟩ := ok_of_bind h
  cases h
  unfold shellExecute at hline
  split at hline
  · next hnil =>
    have hnone : shellFindCommand [] = none := by decide +kernel
    rw [hnil, hnone] at hfound
    cases hfound
  · rw [hfound, hargument] at hline
    obtain ⟨fs, hafter, hcwd, hv⟩ := ShellCommand.handler_called
      (s := { s with console := s.console ++ prompt s.cwd ++ line.chars ++ [newline] })
      (by simpa using hne) hasked hline
    exact ⟨fs, hafter, hcwd, hv⟩

/-! ## Rounds -/

/-- The volume is kept, and the current directory fits its buffer. -/
structure SessionKept (env : Fat32.Env) (s : ShellState μ) : Prop where
  tree : TreeKept env s.fs
  fits : s.cwd.chars.length < pathCapacity

theorem treeKept_of_volume {fs fs' : Fat32.State} (h : TreeKept env fs)
    (hv : fs'.volume env.geometry = fs.volume env.geometry) : TreeKept env fs' := by
  unfold TreeKept
  rw [hv]
  exact h

/-- What a round with an operation does. -/
theorem SessionKept.called (hfuel : env.geometry.totalClusters < env.fuel) (hrel : ¬ env.Faulty)
    (h : SessionKept env s) (hround : RoundStep env machine s line s')
    (hasked : lineOperation s.cwd line = some o) : SessionKept env s' ∧ s'.cwd = s.cwd ∧
      if (o.call env s.fs).isOk = true then
        FileTree.Step Writes (view env s).tree o.request (view env s').tree
      else (view env s').tree = (view env s).tree := by
  obtain ⟨events, hline, hround⟩ := hround
  have hshort := Devices.length_typedLine hline (by decide)
  obtain ⟨D, own, hk, huniq⟩ := h.tree
  obtain ⟨fs, hafter, hcwd, hv⟩ := shellRound_called hline hasked hround
  have hadm := lineOperation_admissible h.fits hshort hasked
  refine ⟨⟨treeKept_of_volume (h.tree.step hfuel hrel ⟨hadm, hafter⟩) hv, hcwd ▸ h.fits⟩, hcwd, ?_⟩
  simp only [view, hv]
  rcases hafter with hcall | ⟨e, hcall⟩
  · have hok : (o.call env s.fs).isOk = true := by rw [hcall]; rfl
    rw [if_pos hok]
    exact hk.tree_of_ok hfuel hrel huniq hadm hcall
  · have hok : (o.call env s.fs).isOk = false := by rw [hcall]; rfl
    rw [if_neg (by simp [hok])]
    exact hk.tree_of_error hfuel hrel hadm hcall

/-- Every round is a step of what the user sees. -/
theorem SessionKept.step (hfuel : env.geometry.totalClusters < env.fuel) (hrel : ¬ env.Faulty)
    (h : SessionKept env s) (hround : RoundStep env machine s line s') : SessionKept env s' ∧
      View.Step (view env s) (line, performed env s line) (view env s') := by
  have hview : ∀ cwd tree, s'.cwd = cwd → (view env s').tree = tree →
      view env s' = ⟨cwd, tree⟩ := by
    rintro _ _ rfl rfl
    rfl
  cases hasked : lineOperation s.cwd line with
  | some o =>
    obtain ⟨hkept, hcwd, htree⟩ := h.called hfuel hrel hround hasked
    have hperformed : performed env s line = (o.call env s.fs).isOk := by
      rw [performed, hasked, Option.any_some]
    refine ⟨hkept, ?_⟩
    split at htree
    · next hok =>
      rw [hperformed, hok, hview _ _ hcwd rfl]
      exact .operation hasked htree
    · next hok =>
      rw [hperformed, Bool.eq_false_iff.mpr hok, hview _ _ hcwd htree]
      exact .nothing
  | none =>
    have hperformed : performed env s line = false := by
      rw [performed, hasked, Option.any_none]
    obtain ⟨events, hline, hround⟩ := hround
    have heffect := shellRound_effect hline hround
    rw [hasked] at heffect
    rw [hperformed]
    cases heffect with
    | leaves same volume =>
      refine ⟨⟨treeKept_of_volume h.tree volume, same ▸ h.fits⟩, ?_⟩
      rw [hview _ (view env s).tree same (by simp only [view, volume])]
      exact .nothing
    | calls asked => cases asked
    | enters short path fits volume dir =>
      refine ⟨⟨treeKept_of_volume h.tree volume, fits⟩, ?_⟩
      rw [hview _ (view env s).tree rfl (by simp only [view, volume])]
      refine .enter path ?_
      obtain ⟨D, own, hk, -⟩ := h.tree
      obtain ⟨cs, hcs⟩ := normalized_argument h.fits short path
      rw [hcs.splitComponents_eq]
      rcases dir with hroot | ⟨node, fs, hstat, hdir⟩
      · have hnil : cs = [] := by
          rw [← hcs.splitComponents_eq, hroot]
          rfl
        rw [hnil]
        exact Fat32.fileTree_rooted.root
      · obtain ⟨r, hr, hd⟩ := resolve_of_stat hfuel hrel hk.sound hcs hstat hdir
        exact Fat32.fileTree_dir hcs.components hr hd

/-- What a session does. -/
theorem SessionKept.run {lines : List (CString × Bool)}
    (hfuel : env.geometry.totalClusters < env.fuel) (hrel : ¬ env.Faulty)
    (hrun : Runs (ObservedStep env machine) s lines s') (h : SessionKept env s) :
    SessionKept env s' ∧ Runs View.Step (view env s) lines (view env s') := by
  induction hrun with
  | nil s => exact ⟨h, .nil _⟩
  | @cons s s₁ s' line lines first rest ih =>
    obtain ⟨line, done⟩ := line
    obtain ⟨hround, rfl⟩ : RoundStep env machine s line s₁ ∧ done = performed env s line := first
    obtain ⟨hkept, hstep⟩ := h.step hfuel hrel hround
    obtain ⟨hkept', hruns⟩ := ih hkept
    exact ⟨hkept', .cons hstep hruns⟩

theorem SessionKept.rounds (hfuel : env.geometry.totalClusters < env.fuel) (hrel : ¬ env.Faulty)
    (hrun : Runs (RoundStep env machine) s lines s') (h : SessionKept env s) : SessionKept env s' :=
  hrun.invariant (fun _ _ _ hs hstep => (hs.step hfuel hrel hstep).1) h

/-- What lines leave alone stays. -/
theorem SessionKept.spared (hfuel : env.geometry.totalClusters < env.fuel) (hrel : ¬ env.Faulty)
    (hrun : Runs (SparingPath env machine cs) s lines s') (h : SessionKept env s) :
    SessionKept env s' ∧ (view env s').tree cs = (view env s).tree cs := by
  induction hrun with
  | nil s => exact ⟨h, rfl⟩
  | @cons s s₁ s' line lines first rest ih =>
    obtain ⟨hround, hspares⟩ := first
    obtain ⟨hkept, hstep⟩ := h.step hfuel hrel hround
    obtain ⟨hkept', heq⟩ := ih hkept
    refine ⟨hkept', heq.trans ?_⟩
    generalize hview : view env s = v at hstep
    generalize view env s₁ = v₁ at hstep
    generalize hdone : performed env s line = done at hstep hspares
    cases hstep with
    | nothing => rfl
    | enter => rfl
    | operation asked done =>
      subst hview
      exact done.other (hspares rfl _ asked)

/-! ## Printing a file -/

theorem callFat32_of_result {α : Type} {call : Fat32.Driver α} {a : α}
    (h : (call s.fs).result = some (.ok a)) :
    ∃ fs, callFat32 call s = .ok (.ok a) { s with fs := fs } := by
  have hcall := Prog.eq_ok_of_result (d := s.fs) h
  refine ⟨(call s.fs).finalState s.fs, ?_⟩
  unfold callFat32
  generalize (call s.fs).finalState s.fs = fs at hcall ⊢
  rw [hcall]

/-- `cat` prints the file that the tree has at the path. -/
theorem shellCommandCat_file (hfuel : env.geometry.totalClusters < env.fuel) (hrel : ¬ env.Faulty)
    (h : TreeKept env s.fs) (hne : input ≠ [])
    (hpath : normalized s.cwd (stringIn input) = some path) (hcanon : Canonical path.chars cs)
    (hfile : fileTree env.geometry (s.fs.volume env.geometry) cs = some (.file (some bytes))) :
    ∃ fs, shellCommandCat env (some input) s
      = .ok () { s with fs := fs, console := s.console ++ catText bytes } := by
  have htells := h.tells hfuel hrel hcanon.components
  rw [hfile] at htells
  obtain ⟨⟨info, hstat, hkind, -⟩, -⟩ := htells
  rw [← hcanon.text] at hstat
  obtain ⟨fs, hfs⟩ := callFat32_of_result hstat
  have hcall : fsStat env path.chars s = .ok (.ok (copyNodeInfo info)) { s with fs := fs } := by
    unfold fsStat
    rw [bind_of_ok hfs]
    rfl
  -- the volume is as before when the file is read
  have hv : fs.volume env.geometry = s.fs.volume env.geometry := (fsStat_leaves _ _ _ hcall).volume
  have htells₁ := (treeKept_of_volume h hv).tells hfuel hrel hcanon.components
  rw [hv, hfile] at htells₁
  obtain ⟨-, hread, -⟩ := htells₁
  have hresult := hread shellPrintFileChunk []
  have hfeed : Fat32.readAnswer env.geometry shellPrintFileChunk [] (.ok bytes) = .ok bytes := by
    have hgather := Fat32.feed_gather [] (Fat32.pieces env.geometry.clusterSize bytes)
    rw [List.nil_append, Fat32.pieces_flatten] at hgather
    have hfed : Fat32.feed shellPrintFileChunk []
        (Fat32.pieces env.geometry.clusterSize bytes) = some bytes := hgather
    simp only [Fat32.readAnswer, hfed]
  rw [Option.elim_some, hfeed, ← hcanon.text] at hresult
  obtain ⟨fs', hfs'⟩ := callFat32_of_result (s := { s with fs := fs }) hresult
  have hcontent : fsReadFile env path.chars shellPrintFileChunk [] { s with fs := fs }
      = .ok (.ok bytes) { s with fs := fs' } := hfs'
  have hfileNode : ¬ (copyNodeInfo info).type = .dir := by
    simp [copyNodeInfo, hkind]
  refine ⟨fs', ?_⟩
  unfold shellCommandCat withArgument withPath
  simp only [if_neg hne]
  rw [bind_of_ok (resolvePathOrPrint_of_normalized hpath)]
  dsimp only
  rw [bind_of_ok hcall]
  dsimp only
  rw [if_neg hfileNode, bind_of_ok hcontent]
  dsimp only
  have hwrite : ∀ (text : CStr) (s : ShellState μ),
      consoleWrite text s = .ok () { s with console := s.console ++ text } := fun _ _ => rfl
  rw [bind_of_ok (hwrite ..)]
  unfold catText
  split
  · rw [hwrite]
    simp only [List.append_assoc]
  · rw [List.append_nil]
    rfl

/-- A round in which the line `cat` is typed. -/
theorem shellRound_cat {events : List KeyEvent}
    (htyped : typedLine shellLineCapacity events [] = some line.chars)
    (hfuel : env.geometry.totalClusters < env.fuel) (hrel : ¬ env.Faulty)
    (h : TreeKept env s.fs) (hline : splitLine line.chars = (literal "cat", some input))
    (hne : input ≠ []) (hpath : normalized s.cwd (stringIn input) = some path)
    (hcanon : Canonical path.chars cs)
    (hfile : fileTree env.geometry (s.fs.volume env.geometry) cs = some (.file (some bytes))) :
    ∃ s', shellRound env machine events s = .ok () s' ∧ s'.console
      = s.console ++ prompt s.cwd ++ line.chars ++ [newline] ++ catText bytes ++ [newline] := by
  let shown := s.console ++ prompt s.cwd ++ line.chars ++ [newline]
  obtain ⟨fs, hcat⟩ := shellCommandCat_file (s := { s with console := shown })
    hfuel hrel h hne hpath hcanon hfile
  have hexecute : shellExecute env machine line { s with console := shown }
      = .ok () { s with fs := fs, console := shown ++ catText bytes } := by
    unfold shellExecute
    have hname : literal "cat" ≠ [] := by decide +kernel
    have hfound : shellFindCommand (literal "cat") = some .cat := by decide +kernel
    simp only [hline, if_neg hname, hfound]
    exact hcat
  refine ⟨{ s with fs := fs, console := shown ++ catText bytes ++ [newline] }, ?_, rfl⟩
  rw [shellRound_typed htyped, bind_of_ok hexecute]
  rfl

/-! ## Sessions -/

theorem sessionKept_of_wellFormed (hwf : Fat32.WellFormed env.geometry (s.fs.volume env.geometry))
    (hshape : Fat32.Shaped env.geometry (s.fs.volume env.geometry)
      (Fat32.Reachable env.geometry (s.fs.volume env.geometry)))
    (hnames : Fat32.UniquelyNamed env.geometry (s.fs.volume env.geometry)
      (Fat32.Reachable env.geometry (s.fs.volume env.geometry)))
    (hcwd : s.cwd.chars.length < pathCapacity) : SessionKept env s :=
  ⟨Fat32.treeKept_of_wellFormed hwf hshape hnames, hcwd⟩

/-- A text that a line has written is what `cat` prints, after any session before it, any lines
behind it that leave the file alone, from whatever directory, and however the line is typed. -/
theorem cat_of_session (hfuel : env.geometry.totalClusters < env.fuel) (hrel : ¬ env.Faulty)
    (hwf : Fat32.WellFormed env.geometry (s.fs.volume env.geometry))
    (hshape : Fat32.Shaped env.geometry (s.fs.volume env.geometry)
      (Fat32.Reachable env.geometry (s.fs.volume env.geometry)))
    (hnames : Fat32.UniquelyNamed env.geometry (s.fs.volume env.geometry)
      (Fat32.Reachable env.geometry (s.fs.volume env.geometry)))
    (hcwd : s.cwd.chars.length < pathCapacity)
    (hbefore : Runs (RoundStep env machine) s before s₁)
    {write cat : CString} {path : CStr} {text : List UInt8}
    (hwrite : RoundStep env machine s₁ write s₂)
    (hasked : lineOperation s₁.cwd write = some (.writeFile path text false))
    (hdone : performed env s₁ write = true)
    (hafter : Runs (SparingPath env machine (splitComponents path)) s₂ after s₃)
    (hcat : splitLine cat.chars = (literal "cat", some input)) (hne : input ≠ [])
    (hpath : (normalized s₃.cwd (stringIn input)).map CString.chars = some path)
    {events : List KeyEvent} (htyped : typedLine shellLineCapacity events [] = some cat.chars) :
    ∃ s', shellRound env machine events s₃ = .ok () s' ∧ s'.console
      = s₃.console ++ prompt s₃.cwd ++ cat.chars ++ [newline] ++ catText text ++ [newline] := by
  obtain ⟨target, htarget, rfl⟩ := Option.map_eq_some_iff.mp hpath
  have hkept₁ := (sessionKept_of_wellFormed hwf hshape hnames hcwd).rounds hfuel hrel hbefore
  obtain ⟨hkept₂, -, htree⟩ := hkept₁.called hfuel hrel hwrite hasked
  obtain ⟨hkept₃, hspared⟩ := hkept₂.spared hfuel hrel hafter
  obtain ⟨keys, hline, -⟩ := hwrite
  obtain ⟨cs, hcanon⟩ := (lineOperation_admissible hkept₁.fits
    (Devices.length_typedLine hline (by decide)) hasked).1
  rw [performed, hasked, Option.any_some] at hdone
  rw [if_pos hdone, Operation.request, hcanon.splitComponents_eq] at htree
  rw [hcanon.splitComponents_eq] at hspared
  have hfile : (view env s₂).tree cs = some (.file (some text)) := by
    obtain ⟨new, htree, ⟨-, hwrites⟩ | ⟨old, -, hwrites⟩⟩ := htree.of_write
    · cases hwrites
      rw [htree, FileTree.put_self]
    · cases hwrites
      rw [htree, FileTree.put_self]
  exact shellRound_cat htyped hfuel hrel hkept₃.tree hcat hne htarget hcanon
    (hspared.trans hfile)

end

/-! ## A session on a small volume -/

section

open Fat32 (smallEnv smallGeometry emptyState)

deriving instance DecidableEq for Fat32.Operation

theorem emptyState_kept : Fat32.WellFormed smallGeometry (emptyState.volume smallGeometry) ∧
    Fat32.Shaped smallGeometry (emptyState.volume smallGeometry)
      (Fat32.Reachable smallGeometry (emptyState.volume smallGeometry)) :=
  ⟨(Fat32.sound_of_check Fat32.emptyState_check.1).2,
    (Fat32.regular_of_check Fat32.emptyState_check.1 Fat32.emptyState_check.2).shaped⟩

/-- The state after the line `mkdir a`. -/
def madeState : ShellState Unit :=
  afterLine smallEnv (shellAt emptyState) (stringIn (literal "mkdir a"))

/-- The state after the line `write a/f hello` behind it. -/
def writtenState : ShellState Unit :=
  afterLine smallEnv madeState (stringIn (literal "write a/f hello"))

/-- The state after the line `cd a` behind that. -/
def enteredState : ShellState Unit := afterLine smallEnv writtenState (stringIn (literal "cd a"))

theorem round_of_check {line : CString} {s : ShellState Unit}
    (h : roundsOk smallEnv [line] s = true) :
    RoundStep smallEnv idleMachine s line (afterLine smallEnv s line) := by
  cases runs_afterLines h with
  | cons first rest =>
    cases rest
    exact first

/-- `cat f`, with a slip that is taken back. -/
def catKeys : List KeyEvent :=
  (literal "cat g").map .serial ++ [.scancode 0x0E, .scancode 0x21, .idle, .scancode 0x1C]

theorem cat_of_session_relative :
    ∃ s', shellRound smallEnv idleMachine catKeys enteredState = .ok () s' ∧
      s'.console = enteredState.console ++ prompt enteredState.cwd
        ++ (stringIn (literal "cat f")).chars ++ [newline] ++ catText (literal "hello")
        ++ [newline] := by
  have hmkdir : Runs (RoundStep smallEnv idleMachine) (shellAt emptyState)
      [stringIn (literal "mkdir a")] madeState :=
    .cons (round_of_check (by decide +kernel)) (.nil _)
  have hasked : lineOperation madeState.cwd (stringIn (literal "write a/f hello"))
      = some (.writeFile (literal "/A/F") (literal "hello") false) := by decide +kernel
  have hcd : performed smallEnv writtenState (stringIn (literal "cd a")) = false := by
    decide +kernel
  have hspares : SparingPath smallEnv idleMachine (splitComponents (literal "/A/F")) writtenState
      (stringIn (literal "cd a")) enteredState :=
    ⟨round_of_check (by decide +kernel), fun hdone => by rw [hcd] at hdone; cases hdone⟩
  have htyped : typedLine shellLineCapacity catKeys []
      = some (stringIn (literal "cat f")).chars := by decide +kernel
  exact cat_of_session (s := shellAt emptyState) (by decide) Fat32.smallEnv_reliable
    emptyState_kept.1 emptyState_kept.2 Fat32.emptyState_uniquelyNamed (by decide +kernel) hmkdir
    (round_of_check (by decide +kernel)) hasked (by decide +kernel) (.cons hspares (.nil _))
    (by decide +kernel) (by decide +kernel : literal "f" ≠ []) (by decide +kernel) htyped

end

end FunnyOS.Shell
