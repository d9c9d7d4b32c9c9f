import ScriptPad.Highlight.Language

/-!
What the program is asked to do, read off its arguments, and the paths it is given.
-/

namespace ScriptPad

inductive Request
  | interactive (path : Option Text)
  | run (path : Text)
  | check (path : Text)
  | help
  deriving DecidableEq, Repr

inductive UsageError
  | badOption (option : Text)
  | tooManyArguments
  deriving DecidableEq, Repr

/-- The text that explains the arguments. -/
def usage : Text :=
  ("usage: sparkpad [FILE]          open the playground, seeded with FILE\n" ++
    "       sparkpad --run FILE      run FILE and print its output\n" ++
    "       sparkpad --check FILE    print diagnostics for FILE as JSON\n\n" ++
    "Settings are read from <config dir>/sparkpad/init.rhai.\n" ++
    "Set SPARKPAD_LOG to adjust logging (e.g. SPARKPAD_LOG=debug).").toList

def UsageError.message : UsageError → Text
  | .badOption option => "unknown or incomplete option ".toList ++ option ++ "\n\n".toList ++ usage
  | .tooManyArguments => "too many arguments\n\n".toList ++ usage

namespace Request

/-- What a first argument with no other use means: an option that is not known or not complete, or
a path among too many. -/
def refuse (first : Text) : UsageError :=
  if ['-', '-'].isPrefixOf first then .badOption first else .tooManyArguments

def ofArguments : List Text → Except UsageError Request
  | [] => .ok (.interactive none)
  | [a] =>
    if a = "-h".toList ∨ a = "--help".toList then .ok .help
    else if ['-', '-'].isPrefixOf a then .error (.badOption a)
    else .ok (.interactive (some a))
  | [a, path] =>
    if a = "--run".toList then .ok (.run path)
    else if a = "--check".toList then .ok (.check path)
    else .error (refuse a)
  | a :: _ :: _ :: _ => .error (refuse a)

end Request

namespace Path

/-- The parts of a path between slashes, without empty ones and those that stay in place. -/
def parts (path : Text) : List Text :=
  (path.splitAt '/').filter fun s => s ≠ [] ∧ s ≠ ['.']

/-- The last part of a path, unless it leads upwards. -/
def fileName? (path : Text) : Option Text :=
  (parts path).getLast?.filter (· ≠ ['.', '.'])

/-- What follows the last dot of a file name that has something before that dot. -/
def extension? (path : Text) : Option Text := do
  let name ← fileName? path
  let reversed := name.reverse
  if '.' ∈ name ∧ 1 < (reversed.dropWhile (· ≠ '.')).length then
    some (reversed.takeWhile (· ≠ '.')).reverse
  else none

/-- Whether a path looks like a script of the pad. -/
def isScript (path : Text) : Bool := (extension? path).any Language.rhai.hasExtension

end Path

end ScriptPad
