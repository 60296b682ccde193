import FunnyOS.Boot.DevicePath
import FunnyOS.Devices.Keyboard
import FunnyOS.Fat32.Api
import FunnyOS.Kernel.Path

/-!
# The shell

`src/kernel/shell.c`, with what it calls of `src/kernel/fs.c`, `src/kernel/program.c` and
`src/kernel/keyboard.c`. A line is cut into the name of a command and its argument. The commands
work on the file system, on the console, and on the current directory `g_cwd`, which is kept as
text. The rest of the kernel, and what a program does once its file has been read, is given by a
`Machine`.
-/

namespace FunnyOS.Shell

open Prog Paths
open Devices (KeyEvent backspace newline)
open Fat32 (CStr Fat32Result Fat32NodeInfo)

/-! ## The state -/

/-- `PciDeviceInfo`, the members that are printed. -/
structure PciDeviceInfo where
  address : Boot.PciAddress
  vendorId : UInt16
  deviceId : UInt16
  progIf : UInt8
  subclass : UInt8
  classCode : UInt8

/-- `BlockBackendKind`. -/
inductive BlockBackendKind where
  | none
  | ataPio
  | ahci

/-- The rest of the kernel, whose variables are `μ`: the text of `memory_dump_stats`, the block
device, the PCI devices if there is a bus, and the foreground process. `startProcess` is
`process_run_foreground` up to the reading of the program file, which it may refuse with a line on
the console, and `runProcess` what it does with the bytes of the file, up to its result and the text
that the program has written. -/
structure Machine (μ : Type) where
  memoryDumpStats : μ → CStr
  blockBackendKind : BlockBackendKind
  pciDevices : Option (List PciDeviceInfo)
  fileCapacity : Nat
  startProcess : CStr → Option CStr → CStr → μ → Except String Unit × μ
  runProcess : List UInt8 → μ → (Bool × CStr) × μ
  releaseProcess : μ → μ

/-- The shell's view of the kernel: the file system, `g_cwd`, the text on the console, which is what
has been written since it was cleared and not been taken back by a backspace, and the rest. -/
structure ShellState (μ : Type) where
  fs : Fat32.State
  cwd : CString
  console : CStr
  machine : μ

/-- What a command does not return from. -/
inductive ShellStop where
  | panic (message : String)
  | exception (vector : Nat)

/-- A step of the shell. -/
abbrev ShellProg (μ α : Type) : Type := Prog (ShellState μ) ShellStop α

/-- The string at the beginning of a buffer. -/
def stringIn (buffer : List UInt8) : CString where
  chars := buffer.takeWhile (· != 0)
  noNul := fun c hc => by simpa using List.mem_takeWhile_imp hc

/-- The characters of a literal. -/
def literal (text : String) : CStr := text.toUTF8.toList

section

variable {μ : Type}

/-! ## The console -/

/-- `console_write`. -/
def consoleWrite (text : CStr) : ShellProg μ Unit :=
  modify fun s => { s with console := s.console ++ text }

/-- `console_write_line`. -/
def consoleWriteLine (text : CStr) : ShellProg μ Unit := consoleWrite (text ++ [0x0A])

/-- `console_clear`. -/
def consoleClear : ShellProg μ Unit := modify fun s => { s with console := [] }

/-- `console_backspace`. -/
def consoleBackspace : ShellProg μ Unit := modify fun s => { s with console := s.console.dropLast }

/-- The loop of `keyboard_read_line`, with the characters in `buffer`. Where the input is over it
goes on to wait. -/
def readLineFrom (capacity : Nat) : List KeyEvent → CStr → ShellProg μ CStr
  | [], _ => fun s => .timeout s
  | event :: rest, buffer =>
    match event.char with
    | none => readLineFrom capacity rest buffer
    | some c =>
      if c = backspace then
        if buffer.length ≠ 0 then do
          consoleBackspace
          readLineFrom capacity rest buffer.dropLast
        else readLineFrom capacity rest buffer
      else if c = newline then do
        consoleWrite [newline]
        pure buffer
      else if buffer.length + 1 ≥ capacity then readLineFrom capacity rest buffer
      else do
        consoleWrite [c]
        readLineFrom capacity rest (buffer ++ [c])

/-- `keyboard_read_line`. -/
def keyboardReadLine (events : List KeyEvent) (capacity : Nat) : ShellProg μ CStr :=
  if capacity = 0 then pure [] else readLineFrom capacity events []

/-! ## The file system -/

/-- `FsResult`. -/
inductive FsResult where
  | ok
  | notFound
  | alreadyExists
  | notADirectory
  | isADirectory
  | directoryNotEmpty
  | invalidName
  | noSpace
  | ioError
  deriving DecidableEq, Repr

/-- `map_result`. -/
def mapResult : Fat32Result → FsResult
  | .ok => .ok
  | .notFound => .notFound
  | .alreadyExists => .alreadyExists
  | .notADirectory => .notADirectory
  | .isADirectory => .isADirectory
  | .directoryNotEmpty => .directoryNotEmpty
  | .invalidName => .invalidName
  | .noSpace => .noSpace
  | .ioError => .ioError

/-- `FsNodeType`. -/
inductive FsNodeType where
  | file
  | dir
  deriving DecidableEq, Repr

/-- `FsNodeInfo`. -/
structure FsNodeInfo where
  name : CStr
  type : FsNodeType
  size : Nat
  deriving DecidableEq, Repr

/-- `copy_node_info`, into a name of `FS_NAME_CAPACITY` bytes. -/
def copyNodeInfo (node : Fat32NodeInfo) : FsNodeInfo where
  name := node.name.take 127
  type := if node.isDir then .dir else .file
  size := node.size

/-- A call of the driver. -/
def callFat32 {α : Type} (call : Fat32.Driver α) : ShellProg μ (Except FsResult α) := fun s =>
  match call s.fs with
  | .ok a fs => .ok (.ok a) { s with fs := fs }
  | .error e fs => .ok (.error (mapResult e)) { s with fs := fs }
  | .fault fs => .fault { s with fs := fs }
  | .timeout fs => .timeout { s with fs := fs }

variable (env : Fat32.Env)

/-- `fs_stat`. -/
def fsStat (path : CStr) : ShellProg μ (Except FsResult FsNodeInfo) := do
  let answer ← callFat32 (Fat32.fat32Stat env path)
  pure (answer.map copyNodeInfo)

/-- `fs_list_dir`. Where it fails, what its callback has done before is lost. -/
def fsListDir {κ : Type} (path : CStr) (callback : κ → FsNodeInfo → κ × Bool) (context : κ) :
    ShellProg μ (Except FsResult κ) :=
  callFat32 (Fat32.fat32ListDir env path (fun context node => callback context (copyNodeInfo node))
    context)

/-- `fs_read_file`. Where it fails, what its callback has done before is lost. -/
def fsReadFile {κ : Type} (path : CStr) (callback : κ → List UInt8 → κ × Bool) (context : κ) :
    ShellProg μ (Except FsResult κ) :=
  callFat32 (Fat32.fat32ReadFile env path callback context)

/-- `fs_write_file`. -/
def fsWriteFile (path : CStr) (data : List UInt8) (append : Bool) :
    ShellProg μ (Except FsResult Unit) :=
  callFat32 (Fat32.fat32WriteFile env path data append)

/-- `fs_make_dir`. -/
def fsMakeDir (path : CStr) : ShellProg μ (Except FsResult Unit) :=
  callFat32 (Fat32.fat32MakeDir env path)

/-- `fs_remove`. -/
def fsRemove (path : CStr) : ShellProg μ (Except FsResult Unit) :=
  callFat32 (Fat32.fat32Remove env path)

/-- `fs_rename`. -/
def fsRename (oldPath newPath : CStr) : ShellProg μ (Except FsResult Unit) :=
  callFat32 (Fat32.fat32Rename env oldPath newPath)

/-! ## Paths and arguments -/

/-- `path_normalize` into a new buffer of `PATH_CAPACITY` bytes. -/
def normalizePath (cwd input : CString) : ShellProg μ (Option CString) := fun s =>
  match pathNormalize (some cwd) (some input) pathCapacity ⟨fun _ => 0, 0, fun _ => 0, 0⟩ with
  | .ok _ p => .ok (some (stringIn ((List.range pathCapacity).map p.out))) s
  | .error _ _ => .ok none s
  | .fault _ => .fault s
  | .timeout _ => .timeout s

/-- `MSG_INVALID_PATH`. -/
def msgInvalidPath : CStr := literal "invalid path"

/-- `MSG_COMMANDS`. -/
def msgCommands : CStr := literal ("Commands: help ls cd pwd cat clear mkdir write append rm mv "
  ++ "memstat blockinfo lspci panic fault")

/-- `MSG_NOT_FOUND`. -/
def msgNotFound : CStr := literal "not found"

/-- `MSG_ALREADY_EXISTS`. -/
def msgAlreadyExists : CStr := literal "already exists"

/-- `MSG_NOT_A_DIRECTORY`. -/
def msgNotADirectory : CStr := literal "not a directory"

/-- `MSG_NOT_A_FILE`. -/
def msgNotAFile : CStr := literal "not a file"

/-- `MSG_DIRECTORY_NOT_EMPTY`. -/
def msgDirectoryNotEmpty : CStr := literal "directory not empty"

/-- `MSG_FS_ERROR`. -/
def msgFsError : CStr := literal "fs error"

/-- `resolve_path_or_print`. -/
def resolvePathOrPrint (input : CString) : ShellProg μ (Option CString) := do
  let s ← get
  match ← normalizePath s.cwd input with
  | some path => pure (some path)
  | none => do
    consoleWriteLine msgInvalidPath
    pure none

/-- The beginning of a command that takes a path: what follows is done with the path, if it can be
normalised. -/
def withPath (input : CStr) (run : CString → ShellProg μ Unit) : ShellProg μ Unit := do
  match ← resolvePathOrPrint (stringIn input) with
  | some path => run path
  | none => pure ()

/-- The beginning of a command that needs an argument. -/
def withArgument (usage : String) (argument : Option CStr) (run : CStr → ShellProg μ Unit) :
    ShellProg μ Unit :=
  match argument with
  | none => consoleWriteLine (literal usage)
  | some argument =>
    if argument = [] then consoleWriteLine (literal usage) else run argument

/-- What `shell_print_fs_result` prints. -/
def FsResult.message (treatDirAsFile : Bool) : FsResult → Option CStr
  | .ok => none
  | .notFound => some msgNotFound
  | .alreadyExists => some msgAlreadyExists
  | .notADirectory => some msgNotADirectory
  | .isADirectory => some (if treatDirAsFile then msgNotAFile else msgNotADirectory)
  | .directoryNotEmpty => some msgDirectoryNotEmpty
  | .invalidName => some msgInvalidPath
  | .noSpace | .ioError => some msgFsError

/-- `shell_print_fs_result`. -/
def shellPrintFsResult {α : Type} (result : Except FsResult α) (treatDirAsFile : Bool) :
    ShellProg μ Unit :=
  match result with
  | .ok _ => pure ()
  | .error e => match e.message treatDirAsFile with
    | none => pure ()
    | some text => consoleWriteLine text

/-- `shell_split_write_args`. -/
def shellSplitWriteArgs (argument : CStr) : Option (CStr × CStr) :=
  let path := argument.dropWhile kIsSpace
  if path = [] then none
  else some (path.takeWhile (!kIsSpace ·), (path.dropWhile (!kIsSpace ·)).dropWhile kIsSpace)

/-- `shell_split_two_args`. -/
def shellSplitTwoArgs (argument : CStr) : Option (CStr × CStr) :=
  let first := argument.dropWhile kIsSpace
  let second := (first.dropWhile (!kIsSpace ·)).dropWhile kIsSpace
  if first = [] ∨ second = [] then none
  else some (first.takeWhile (!kIsSpace ·), second.takeWhile (!kIsSpace ·))

/-- `SHELL_LINE_CAPACITY`. -/
abbrev shellLineCapacity : Nat := 128

/-- `k_strcpy(mutable_argument, argument)`. -/
def copyArgument (argument : CStr) : ShellProg μ CStr :=
  if argument.length < shellLineCapacity then pure argument else fault

/-- `k_strcpy(g_cwd, path)`. -/
def setCwd (path : CString) : ShellProg μ Unit :=
  if path.chars.length < pathCapacity then modify fun s => { s with cwd := path } else fault

/-! ## Programs -/

/-- `PROGRAM_EXTENSION`. -/
def programExtension : CStr := literal ".ELF"

/-- `path_has_separator`. -/
def pathHasSeparator (path : CStr) : Bool := path.contains slash

/-- `path_has_program_suffix`. -/
def pathHasProgramSuffix (path : CStr) : Bool :=
  programExtension.length ≤ path.length &&
    (path.drop (path.length - programExtension.length)).map kToupper == programExtension

/-- `build_lookup_path`. -/
def buildLookupPath (base : CString) (command : CStr) : ShellProg μ (Option CString) :=
  if pathHasProgramSuffix command then normalizePath base (stringIn command)
  else if command.length + programExtension.length + 1 > pathCapacity then pure none
  else normalizePath base (stringIn (command ++ programExtension))

/-- `process_file_chunk_copy`. -/
def processFileChunkCopy (capacity : Nat) (bytes data : List UInt8) : List UInt8 × Bool :=
  if bytes.length + data.length > capacity then (bytes, false) else (bytes ++ data, true)

variable (machine : Machine μ)

/-- The beginning of `process_load_binary`: the bytes of the program file. -/
def readProgram (path : CStr) : ShellProg μ (Option (List UInt8)) := do
  match ← fsStat env path with
  | .error _ => pure none
  | .ok node =>
    if node.type ≠ .file then do
      consoleWriteLine (literal "program path is not a file")
      pure none
    else if node.size > machine.fileCapacity then do
      consoleWriteLine (literal "program too large")
      pure none
    else
      match ← fsReadFile env path (processFileChunkCopy machine.fileCapacity) [] with
      | .error _ => do
        consoleWriteLine (literal "program read failed")
        pure none
      | .ok bytes =>
        if bytes.length ≠ node.size then do
          consoleWriteLine (literal "program size mismatch")
          pure none
        else pure (some bytes)

/-- A step of the rest of the kernel. -/
def onMachine {α : Type} (step : μ → α × μ) : ShellProg μ α := fun s =>
  .ok (step s.machine).1 { s with machine := (step s.machine).2 }

/-- `process_run_foreground`. -/
def processRunForeground (path : CStr) (command : CStr) (argument : Option CStr) (cwd : CString) :
    ShellProg μ Bool := do
  match ← onMachine (machine.startProcess command argument cwd.chars) with
  | .error text => do
    consoleWriteLine (literal text)
    pure false
  | .ok () => do
    match ← readProgram env machine path with
    | none => do
      onMachine fun m => ((), machine.releaseProcess m)
      pure false
    | some bytes => do
      let (finished, text) ← onMachine (machine.runProcess bytes)
      consoleWrite text
      pure finished

/-- `ProgramDispatchResult`. -/
inductive ProgramDispatchResult where
  | executed
  | notFound
  | failed
  deriving DecidableEq, Repr

/-- The path of a program file under a base directory, where there is one. -/
def findProgram (base : CString) (command : CStr) : ShellProg μ (Option CString) := do
  match ← buildLookupPath base command with
  | none => pure none
  | some path => match ← fsStat env path.chars with
    | .error _ => pure none
    | .ok _ => pure (some path)

/-- The last step of a dispatch: the program at a path is run. -/
def dispatchTo (path : CString) (command : CStr) (argument : Option CStr) (cwd : CString) :
    ShellProg μ ProgramDispatchResult := do
  if ← processRunForeground env machine path.chars command argument cwd then pure .executed
  else pure .failed

/-- `program_dispatch` of a command with a slash. -/
def dispatchPath (command : CStr) (argument : Option CStr) (cwd : CString) :
    ShellProg μ ProgramDispatchResult := do
  match (← normalizePath cwd (stringIn command)).filter (pathHasProgramSuffix ·.chars) with
  | none => do
    consoleWriteLine (literal "program not found")
    pure .failed
  | some path => do
    match ← dispatchTo env machine path command argument cwd with
    | .failed => do
      match ← fsStat env path.chars with
      | .ok _ => pure .failed
      | .error _ => do
        consoleWriteLine (literal "program not found")
        pure .failed
    | result => pure result

/-- `program_dispatch`. -/
def programDispatch (command : CStr) (argument : Option CStr) (cwd : CString) :
    ShellProg μ ProgramDispatchResult := do
  if command = [] then pure .notFound
  else if pathHasSeparator command then dispatchPath env machine command argument cwd
  else
    match ← findProgram env (stringIn [slash]) command with
    | some path => dispatchTo env machine path command argument cwd
    | none => match ← findProgram env cwd command with
      | some path => dispatchTo env machine path command argument cwd
      | none => pure .notFound

/-! ## The commands -/

/-- `shell_print_dir_entry`. -/
def shellPrintDirEntry (text : CStr) (entry : FsNodeInfo) : CStr × Bool :=
  (text ++ entry.name ++ (if entry.type = .dir then literal " <DIR>" else []) ++ [0x0A], true)

/-- `shell_print_file_chunk`. -/
def shellPrintFileChunk (text data : List UInt8) : List UInt8 × Bool := (text ++ data, true)

/-- The listing of `shell_command_ls`. -/
def printDirectory (path : CString) : ShellProg μ Unit := do
  match ← fsListDir env path.chars shellPrintDirEntry [] with
  | .ok text => consoleWrite text
  | .error e => shellPrintFsResult (.error e : Except FsResult Unit) false

/-- What `shell_command_ls` and `shell_command_cd` do with a path that has to be a directory. -/
def withDirectory (path : CString) (run : CString → ShellProg μ Unit) : ShellProg μ Unit := do
  if path.chars = [slash] then run path
  else
    match ← fsStat env path.chars with
    | .error _ => consoleWriteLine msgNotFound
    | .ok node => if node.type ≠ .dir then consoleWriteLine msgNotADirectory else run path

/-- `shell_command_ls`. -/
def shellCommandLs (argument : Option CStr) : ShellProg μ Unit := do
  let s ← get
  match argument.filter (· ≠ []) with
  | none => withDirectory env s.cwd (printDirectory env)
  | some input => withPath input fun path => withDirectory env path (printDirectory env)

/-- `shell_command_cd`. -/
def shellCommandCd (argument : Option CStr) : ShellProg μ Unit :=
  withArgument "usage: cd <path>" argument fun input =>
    withPath input fun path => withDirectory env path setCwd

/-- `shell_command_pwd`. -/
def shellCommandPwd : ShellProg μ Unit := do
  let s ← get
  consoleWriteLine s.cwd.chars

/-- `shell_command_cat`. -/
def shellCommandCat (argument : Option CStr) : ShellProg μ Unit :=
  withArgument "usage: cat <path>" argument fun input => withPath input fun path => do
    match ← fsStat env path.chars with
    | .error _ => consoleWriteLine msgNotFound
    | .ok node =>
      if node.type = .dir then consoleWriteLine msgNotAFile
      else
        match ← fsReadFile env path.chars shellPrintFileChunk [] with
        | .error _ => consoleWriteLine msgFsError
        | .ok text => do
          consoleWrite text
          if text.getLast? ≠ some 0x0A then consoleWrite [0x0A] else pure ()

/-- `shell_command_mkdir`. -/
def shellCommandMkdir (argument : Option CStr) : ShellProg μ Unit :=
  withArgument "usage: mkdir <path>" argument fun input => withPath input fun path => do
    shellPrintFsResult (← fsMakeDir env path.chars) false

/-- `shell_command_write_internal`. -/
def shellCommandWriteInternal (usage : String) (argument : Option CStr) (append : Bool) :
    ShellProg μ Unit :=
  match argument with
  | none => consoleWriteLine (literal usage)
  | some argument => do
    match shellSplitWriteArgs (← copyArgument argument) with
    | none => consoleWriteLine (literal usage)
    | some (pathArg, textArg) => withPath pathArg fun path => do
      shellPrintFsResult (← fsWriteFile env path.chars textArg append) true

/-- `shell_command_write`. -/
def shellCommandWrite (argument : Option CStr) : ShellProg μ Unit :=
  shellCommandWriteInternal env "usage: write <path> <text>" argument false

/-- `shell_command_append`. -/
def shellCommandAppend (argument : Option CStr) : ShellProg μ Unit :=
  shellCommandWriteInternal env "usage: append <path> <text>" argument true

/-- `shell_command_rm`. -/
def shellCommandRm (argument : Option CStr) : ShellProg μ Unit :=
  withArgument "usage: rm <path>" argument fun input => withPath input fun path => do
    shellPrintFsResult (← fsRemove env path.chars) false

/-- `shell_command_mv`. -/
def shellCommandMv (argument : Option CStr) : ShellProg μ Unit :=
  match argument with
  | none => consoleWriteLine (literal "usage: mv <old> <new>")
  | some argument => do
    match shellSplitTwoArgs (← copyArgument argument) with
    | none => consoleWriteLine (literal "usage: mv <old> <new>")
    | some (oldArg, newArg) => withPath oldArg fun oldPath => withPath newArg fun newPath => do
      shellPrintFsResult (← fsRename env oldPath.chars newPath.chars) false

/-- `shell_command_memstat`. -/
def shellCommandMemstat : ShellProg μ Unit := do
  let s ← get
  consoleWrite (machine.memoryDumpStats s.machine)

/-- `shell_command_blockinfo`. -/
def shellCommandBlockinfo : ShellProg μ Unit := do
  consoleWrite (literal "block backend: ")
  match machine.blockBackendKind with
  | .ahci => consoleWriteLine (literal "ahci")
  | .ataPio => consoleWriteLine (literal "ata-pio")
  | .none => consoleWriteLine (literal "none")

/-- A digit of `shell_write_hex8`. -/
def hexDigit (value : Nat) : UInt8 := .ofNat (if value < 10 then 0x30 + value else 0x37 + value)

/-- `shell_write_hex8`. -/
def shellWriteHex8 (value : UInt8) : CStr :=
  [hexDigit (value.toNat / 16), hexDigit (value.toNat % 16)]

/-- `shell_write_hex16`. -/
def shellWriteHex16 (value : UInt16) : CStr :=
  shellWriteHex8 (value >>> 8).toUInt8 ++ shellWriteHex8 value.toUInt8

/-- `shell_print_pci_device`. -/
def shellPrintPciDevice (info : PciDeviceInfo) : CStr :=
  literal "bus " ++ shellWriteHex8 info.address.bus ++
    literal " dev " ++ shellWriteHex8 info.address.device ++
    literal " fn " ++ shellWriteHex8 info.address.function ++
    literal " class " ++ shellWriteHex8 info.classCode ++
    literal ":" ++ shellWriteHex8 info.subclass ++
    literal ":" ++ shellWriteHex8 info.progIf ++
    literal " vendor " ++ shellWriteHex16 info.vendorId ++
    literal " device " ++ shellWriteHex16 info.deviceId ++ [0x0A]

/-- `shell_command_lspci`. -/
def shellCommandLspci : ShellProg μ Unit :=
  match machine.pciDevices with
  | none => consoleWriteLine (literal "pci unavailable")
  | some [] => consoleWriteLine (literal "no pci devices found")
  | some devices => consoleWrite (devices.flatMap shellPrintPciDevice)

/-- `shell_command_fault`, with the vectors of the exceptions that it triggers. -/
def shellCommandFault (argument : Option CStr) : ShellProg μ Unit :=
  withArgument "usage: fault <ud2|pf>" argument fun argument =>
    if argument = literal "ud2" then raise (.exception 6)
    else if argument = literal "pf" then raise (.exception 14)
    else consoleWriteLine (literal "usage: fault <ud2|pf>")

/-! ## Lines -/

/-- The commands of `g_commands`, in their order. -/
inductive ShellCommand where
  | help
  | ls
  | cd
  | pwd
  | cat
  | clear
  | mkdir
  | write
  | append
  | rm
  | mv
  | memstat
  | blockinfo
  | lspci
  | panic
  | fault
  deriving DecidableEq, Repr

/-- The names in `g_commands`. -/
def ShellCommand.name : ShellCommand → String
  | .help => "help"
  | .ls => "ls"
  | .cd => "cd"
  | .pwd => "pwd"
  | .cat => "cat"
  | .clear => "clear"
  | .mkdir => "mkdir"
  | .write => "write"
  | .append => "append"
  | .rm => "rm"
  | .mv => "mv"
  | .memstat => "memstat"
  | .blockinfo => "blockinfo"
  | .lspci => "lspci"
  | .panic => "panic"
  | .fault => "fault"

/-- `g_commands`. -/
def shellCommands : List ShellCommand := [.help, .ls, .cd, .pwd, .cat, .clear, .mkdir, .write,
  .append, .rm, .mv, .memstat, .blockinfo, .lspci, .panic, .fault]

/-- `shell_find_command`. -/
def shellFindCommand (name : CStr) : Option ShellCommand :=
  shellCommands.find? fun command => name == literal command.name

/-- The handlers in `g_commands`. -/
def ShellCommand.handler (argument : Option CStr) : ShellCommand → ShellProg μ Unit
  | .help => consoleWriteLine msgCommands
  | .ls => shellCommandLs env argument
  | .cd => shellCommandCd env argument
  | .pwd => shellCommandPwd
  | .cat => shellCommandCat env argument
  | .clear => consoleClear
  | .mkdir => shellCommandMkdir env argument
  | .write => shellCommandWrite env argument
  | .append => shellCommandAppend env argument
  | .rm => shellCommandRm env argument
  | .mv => shellCommandMv env argument
  | .memstat => shellCommandMemstat machine
  | .blockinfo => shellCommandBlockinfo machine
  | .lspci => shellCommandLspci machine
  | .panic => raise (.panic "Shell requested panic")
  | .fault => shellCommandFault argument

/-- The command in a line and its argument; there is none where the line ends with the command. -/
def splitLine (line : CStr) : CStr × Option CStr :=
  let command := line.dropWhile kIsSpace
  let rest := command.dropWhile (!kIsSpace ·)
  (command.takeWhile (!kIsSpace ·), if rest = [] then none else some (rest.dropWhile kIsSpace))

/-- `shell_execute`. -/
def shellExecute (line : CString) : ShellProg μ Unit :=
  let command := (splitLine line.chars).1
  let argument := (splitLine line.chars).2
  if command = [] then pure ()
  else
    match shellFindCommand command with
    | some shellCommand => shellCommand.handler env machine argument
    | none => do
      let s ← get
      match ← programDispatch env machine command argument s.cwd with
      | .notFound => consoleWriteLine (literal "unknown command")
      | _ => pure ()

/-- `shell_print_prompt`. -/
def shellPrintPrompt : ShellProg μ Unit := do
  let s ← get
  consoleWrite (literal "FunnyOS:" ++ s.cwd.chars ++ literal "> ")

/-- A round of `shell_run` with what the keyboard and the serial line deliver. The newline is the
one before the next prompt. -/
def shellRound (events : List KeyEvent) : ShellProg μ Unit := do
  shellPrintPrompt
  let line ← keyboardReadLine events shellLineCapacity
  shellExecute env machine (stringIn line)
  consoleWrite [0x0A]

end

end FunnyOS.Shell
