import ScriptPad.CommandLine.Keys
import ScriptPad.CommandLine.Program
import ScriptPad.CommandLine.Session

/-!
The program on a real terminal. It reads what the library asks for, writes what the library says,
and takes keys from standard input as the terminal sends them, so the terminal is expected to be in
raw mode. All decisions are made by the definitions imported here.
-/

namespace ScriptPad.Main

/-- The steps after which a script without a limit is taken to run for ever. -/
def patience : Nat := 1000000000

/-! ### Files -/

/-- What a failed access of a file means. -/
def fileError? : IO.Error → Option FileError
  | .noFileOrDirectory .. => some .noSuchFile
  | .alreadyExists .. => some .exists
  | .permissionDenied .. => some .denied
  | .inappropriateType _ code _ => some (if code = 21 then .isDirectory else .notDirectory)
  | _ => none

/-- Reads the bytes of a file. -/
def readBytes (path : Text) : IO (Except FileError ByteArray) := do
  try
    return .ok (← IO.FS.readBinFile (String.ofList path))
  catch e =>
    match fileError? e with
    | some f => return .error f
    | none => throw e

def readFile (path : Text) : IO (Except FileError Text) := do
  return (← readBytes path).bind FileTree.decode

/-- The entry that a path stands for, if there is one. -/
def entry? (path : Text) : IO (Option FileTree) := do
  match ← readBytes path with
  | .ok bytes => return some (.file bytes)
  | .error .isDirectory => return some .empty
  | .error _ => return none

/-- The directory of configurations: the one that the environment names, or the usual one. -/
def configPath : IO Text := do
  match ← IO.getEnv "XDG_CONFIG_HOME" with
  | some path => if path.startsWith "/" then return path.toList
  | none => pure ()
  return ((← IO.getEnv "HOME").getD "").toList ++ "/.config".toList

/-- The part of the configurations that matters to the pad. -/
def readConfig (path : Text) : IO FileTree := do
  let directory := path ++ '/' :: Surroundings.directoryName
  match ← entry? directory with
  | some (.directory _) =>
    let mut found := FileTree.empty
    for name in [InitScript.fileName, Surroundings.logName] do
      if let some entry ← entry? (directory ++ '/' :: name) then
        found := found.putChild name entry
    return FileTree.empty.putChild Surroundings.directoryName found
  | some other => return FileTree.empty.putChild Surroundings.directoryName other
  | none => return .empty

/-- Makes the files that are in a tree and were not before; they are empty. -/
def makeFiles (root : Text) (before after : FileTree) : IO Unit := do
  for path in after.filePaths do
    unless before.hasPath path do
      IO.FS.createDirAll (String.ofList (root ++ '/' :: Surroundings.directoryName))
      IO.FS.writeFile (String.ofList (root ++ '/' :: path)) ""

/-- The script that the arguments name, read in advance. -/
def readScript (args : List Text) : IO (Except FileError Text) := do
  match Request.ofArguments args with
  | .ok (.run path) | .ok (.check path) | .ok (.interactive (some path)) => readFile path
  | _ => return .error .noSuchFile

/-! ### The terminal -/

/-- A number that the environment gives. -/
def numberOf (name : String) (default : Nat) : IO UInt16 := do
  return UInt16.ofNat (((← IO.getEnv name).bind String.toNat?).getD default)

def screen : IO Screen := do
  return ⟨← numberOf "COLUMNS" 80, ← numberOf "LINES" 24⟩

def write (t : Text) : IO Unit := do
  let out ← IO.getStdout
  out.putStr (String.ofList t)
  out.flush

def draw (s : Session) : IO Unit := write (Draw.encodeAll s.frame)

/-- Waits for the next event; there is none at the end of the input. -/
partial def readEvent (read : List UInt8) : IO (Option Event) := do
  let bytes ← (← IO.getStdin).read 1
  if bytes.isEmpty then return none
  let read := read ++ bytes.toList
  match Keys.read read with
  | .done e => return some e
  | .incomplete => readEvent read

def orFail {α : Type} : Except OutOfRange α → IO α
  | .ok a => return a
  | .error _ => throw (IO.userError "a position outside the text was edited")

/-- Takes all that runs have sent, with a frame for each event. -/
partial def takeRunEvents (s : Session) : IO Session := do
  match s.turnOfRun with
  | none => return s
  | some next =>
    let s ← orFail next
    draw s
    takeRunEvents s

/-- The interactive program, until it is left or the input ends. -/
partial def loop (s : Session) : IO Unit := do
  if s.playground.running then
    match ← readEvent [] with
    | none => return
    | some e =>
      let s ← orFail (s.turn (.terminal e))
      draw s
      if s.playground.running then loop (← takeRunEvents s.settle)

def interact (p : Playground) : IO Unit := do
  let s := Session.ofPlayground p (← screen)
  write Draw.enter
  try
    draw s
    loop s
  finally
    write Draw.leave

end ScriptPad.Main

open ScriptPad in
def main (args : List String) : IO UInt32 := do
  let args := args.map String.toList
  let configPath ← Main.configPath
  let config ← Main.readConfig configPath
  let script ← Main.readScript args
  let (launch, after) := Launch.start
    { read := fun _ => script, config := config, configPath := configPath, patience := Main.patience }
    args
  Main.makeFiles configPath config after
  match launch with
  | .done result =>
    Main.write result.stdout
    IO.eprint (String.ofList result.stderr)
    return UInt32.ofNat result.code
  | .interactive p =>
    Main.interact p
    return 0
