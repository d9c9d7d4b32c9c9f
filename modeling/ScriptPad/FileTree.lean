import ScriptPad.Text.Line

/-!
Files and directories by name, and what reading a path in them gives. A path is followed part by
part: through a file there is no way on, and a directory has no contents.
-/

namespace ScriptPad

/-- Why a path cannot be read or made. -/
inductive FileError
  | noSuchFile
  | exists
  | notDirectory
  | isDirectory
  | denied
  | notText
  deriving DecidableEq, Repr

def FileError.message : FileError → Text
  | noSuchFile => "No such file or directory (os error 2)".toList
  | .exists => "File exists (os error 17)".toList
  | notDirectory => "Not a directory (os error 20)".toList
  | isDirectory => "Is a directory (os error 21)".toList
  | denied => "Permission denied (os error 13)".toList
  | notText => "stream did not contain valid UTF-8".toList

inductive FileTree
  | file (content : ByteArray)
  | directory (entries : List (Text × FileTree))
  deriving Inhabited

namespace FileTree

def empty : FileTree := directory []

/-- The entry of a name in a directory. -/
def child? (name : Text) : FileTree → Option FileTree
  | file _ => none
  | directory entries => (entries.find? (·.1 == name)).map (·.2)

/-- Follows the parts of a path. `above` are the directories passed on the way, the last first; an
empty part stays in place and two dots lead back. -/
def follow : List FileTree → FileTree → List Text → Except FileError FileTree
  | _, t, [] => .ok t
  | _, file _, _ :: _ => .error .notDirectory
  | above, t@(directory _), part :: rest =>
    if part = [] ∨ part = ['.'] then follow above t rest
    else if part = ['.', '.'] then
      match above with
      | [] => follow [] empty rest
      | up :: above => follow above up rest
    else
      match t.child? part with
      | some c => follow (t :: above) c rest
      | none => .error .noSuchFile

/-- What a path leads to. -/
def find (t : FileTree) (path : Text) : Except FileError FileTree :=
  match path with
  | [] => .error .noSuchFile
  | '/' :: _ => follow [] empty (path.splitAt '/')
  | path => follow [] t (path.splitAt '/')

/-- The text that the contents of a file spell. -/
def decode (content : ByteArray) : Except FileError Text :=
  match String.fromUTF8? content with
  | some s => .ok s.toList
  | none => .error .notText

/-- The text of the file that a path leads to. -/
def readText (t : FileTree) (path : Text) : Except FileError Text := do
  match ← t.find path with
  | directory _ => .error .isDirectory
  | file content => decode content

/-- Whether a path leads anywhere. -/
def hasPath (t : FileTree) (path : Text) : Bool := (t.find path).toBool

/-- A tree with another tree put under a name, in place of the one that is there. -/
def putChild (t : FileTree) (name : Text) (c : FileTree) : FileTree :=
  match t with
  | file content => file content
  | directory entries =>
    if (t.child? name).isSome then
      directory (entries.map fun e => if e.1 == name then (name, c) else e)
    else directory (entries ++ [(name, c)])

/-- Puts a tree at a path and makes the directories on the way. -/
def place (c : FileTree) : List Text → FileTree → FileTree
  | [], _ => c
  | name :: rest, t => t.putChild name (place c rest ((t.child? name).getD empty))

/-- The tree of files at paths. -/
def ofEntries (entries : List (Text × FileTree)) : FileTree :=
  entries.foldl (fun t e => place e.2 ((e.1.splitAt '/').filter (· ≠ [])) t) empty

mutual

/-- The paths of the files in a tree. -/
def files : FileTree → List (List Text)
  | file _ => [[]]
  | directory entries => filesOf entries

def filesOf : List (Text × FileTree) → List (List Text)
  | [] => []
  | (name, t) :: rest => (files t).map (name :: ·) ++ filesOf rest

end

/-- A path from its parts. -/
def joinPath : List Text → Text
  | [] => []
  | [part] => part
  | part :: rest => part ++ '/' :: joinPath rest

/-- The paths of the files in a tree, in order. -/
def filePaths (t : FileTree) : List Text := (t.files.map joinPath).mergeSort Text.isAtMost

end FileTree

end ScriptPad
