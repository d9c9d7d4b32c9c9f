import ScriptPad.CommandLine.Arguments
import ScriptPad.Diagnostic.Json
import ScriptPad.InitScript
import ScriptPad.Playground

/-!
The program from its arguments on: it runs or checks a script, explains itself, or opens a
playground. A run succeeds unless its last line is an error, and a check unless it finds an error;
whatever else keeps the program from its work is reported with its cause.
-/

namespace ScriptPad

/-! ### Commands without a terminal -/

/-- What a command leaves: its exit code and what it wrote. -/
structure CommandResult where
  code : Nat
  stdout : Text := []
  stderr : Text := []
  deriving DecidableEq, Repr

namespace Command

/-- A text as a line. -/
def line (t : Text) : Text := t ++ ['\n']

/-- The lines of a run, and whether it failed. -/
def ofOutput (o : Output) : CommandResult where
  code := if o.endsWithError then 1 else 0
  stdout := o.lines.flatMap line

/-- Runs a source and prints its output. -/
def run (executor : Executor) (source : Text) : CommandResult :=
  match Workshop.run { executor := executor } true source with
  | .ok w => ofOutput w.console.output
  | .error e => { code := 1, stderr := line ("Error: ".toList ++ e.message) }

/-- Prints the markers of a source. -/
def check (analyzer : Analyzer) (source : Text) : CommandResult :=
  let markers := (Analysis.analyze { analyzer := analyzer } source).map Diagnostic.marker
  { code := if markers.any (·.severity == .error) then 1 else 0
    stdout := line (Marker.jsonList markers) }

end Command

/-! ### The program -/

/-- Why the program cannot do its work. -/
inductive Failure
  | usage (e : UsageError)
  | logDirectory (path : Text) (e : FileError)
  | logFile (path : Text) (e : FileError)
  | script (path : Text) (e : FileError)

namespace Failure

/-- What was being done, and what went wrong with it if that is something else. -/
def parts : Failure → Text × Option FileError
  | usage e => (e.message, none)
  | logDirectory path e => ("creating log directory ".toList ++ path, some e)
  | logFile path e => ("opening log file ".toList ++ path, some e)
  | script path e => ("reading script ".toList ++ path, some e)

def report (f : Failure) : Text :=
  "Error: ".toList ++ f.parts.1 ++ ['\n'] ++
    match f.parts.2 with
    | some e => "\nCaused by:\n    ".toList ++ e.message ++ ['\n']
    | none => []

def result (f : Failure) : CommandResult := { code := 1, stderr := f.report }

end Failure

/-- What the program finds around it. -/
structure Surroundings where
  /-- The text at a path. -/
  read : Text → Except FileError Text
  /-- The directory of configurations, and its path. -/
  config : FileTree
  configPath : Text
  /-- The steps after which a script without a limit counts as never ending. -/
  patience : Nat

namespace Surroundings

def directoryName : Text := "sparkpad".toList

def logName : Text := "sparkpad.log".toList

/-- The configurations once the log of the interactive program is open. -/
def openLog (s : Surroundings) : Except Failure FileTree := do
  let directory := s.configPath ++ '/' :: directoryName
  match s.config.child? directoryName with
  | some (.file _) => .error (.logDirectory directory .exists)
  | d =>
    let d := d.getD .empty
    match d.child? logName with
    | some (.directory _) => .error (.logFile (directory ++ '/' :: logName) .isDirectory)
    | some (.file _) => .ok s.config
    | none => .ok (s.config.putChild directoryName (d.putChild logName (.file .empty)))

def readScript (s : Surroundings) (path : Text) : Except Failure Text :=
  (s.read path).mapError (.script path)

end Surroundings

/-- What the program does next: it is done, or it opens a playground. -/
inductive Launch
  | done (result : CommandResult)
  | interactive (p : Playground)

namespace Launch

/-- The source that a playground is opened with. -/
def source (s : Surroundings) : Option Text → Except Failure Text
  | some path => s.readScript path
  | none => .ok Playground.sampleSource

/-- What a request leads to, under some settings. -/
def ofRequest (s : Surroundings) (settings : Settings) (r : Request) : Except Failure Launch :=
  let limits := Script.Limits.ofSettings settings
  let executor := Script.executor limits s.patience
  match r with
  | .help => .ok (.done { code := 0, stdout := Command.line usage })
  | .run path => do
    let source ← s.readScript path
    pure (.done (Command.run executor source))
  | .check path => do
    let source ← s.readScript path
    pure (.done (Command.check (Script.analyzer limits) source))
  | .interactive path => do
    let source ← source s path
    pure (.interactive (Playground.ofSource source settings (Script.analyzer limits) executor))

/-- The configurations that a request needs: the interactive program opens its log first. -/
def prepare (s : Surroundings) : Request → Except Failure FileTree
  | .interactive _ => s.openLog
  | _ => .ok s.config

/-- The program as far as it gets without a terminal, and the configurations it leaves. -/
def start (s : Surroundings) (args : List Text) : Launch × FileTree :=
  match Request.ofArguments args with
  | .error e => (.done (Failure.usage e).result, s.config)
  | .ok r =>
    match prepare s r with
    | .error f => (.done f.result, s.config)
    | .ok config =>
      match ofRequest s (InitScript.settings s.config) r with
      | .error f => (.done f.result, config)
      | .ok p => (p, config)

end Launch

end ScriptPad
