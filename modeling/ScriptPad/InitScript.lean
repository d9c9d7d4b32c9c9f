import ScriptPad.FileTree
import ScriptPad.Script.Run

/-!
The init script, which changes the settings. Its functions change them as it runs, so what a script
has set before it fails stays set; a script that cannot be read changes nothing. The program itself
takes the settings of a script that ran to its end, and the default ones otherwise.
-/

namespace ScriptPad

/-- Why an init script did not run to its end. -/
inductive InitError
  | read (path : Text) (e : FileError)
  | parse (reason : Text)
  | eval (reason : Text)
  deriving DecidableEq, Repr

namespace InitError

def message : InitError → Text
  | read path e => "failed to read config file ".toList ++ path ++ ": ".toList ++ e.message
  | parse reason => "config parse error: ".toList ++ reason
  | eval reason => "config error: ".toList ++ reason

end InitError

namespace InitScript

open Script (Value Host)

/-- The change that a call of a setter asks for. -/
def update? (name : Text) (args : List Value) : Option Settings.Update :=
  match args with
  | [.text t] => if name = "set_theme".toList then some (.theme t) else none
  | [.bool b] => if name = "set_show_line_numbers".toList then some (.showLineNumbers b) else none
  | [.int n] =>
    if name = "set_tab_width".toList then some (.tabWidth n)
    else if name = "set_output_height".toList then some (.outputHeight n)
    else if name = "set_max_operations".toList then some (.maxOperations n)
    else if name = "set_max_expr_depth".toList then some (.maxExprDepth n)
    else none
  | _ => none

/-- The value that a call of a getter gives. -/
def answer? (name : Text) (args : List Value) (s : Settings) : Option Value :=
  match args with
  | [] =>
    if name = "get_theme".toList then some (.text s.theme)
    else if name = "list_themes".toList then some (.array (Theme.names.map .text))
    else if name = "print".toList then some .unit
    else none
  | [_] => if name = "print".toList then some .unit else none
  | _ => none

/-- The functions of an init script. Printing is silent. -/
def host : Host Settings where
  call name args s :=
    match update? name args with
    | some u => some (.unit, s.apply u)
    | none =>
      match answer? name args s with
      | some v => some (v, s)
      | none => if Script.isSilent name args then some (.unit, s) else none

def maxOperations : Nat := 100000

def maxExprDepth : Nat := 64

/-- The interpreter of init scripts. -/
def runtime : Script.Runtime := Script.runtime ⟨maxOperations, maxExprDepth⟩ 0

/-- Runs an init script: the settings it leaves, and the error if there was one. -/
def eval (s : Settings) (source : Text) (r : Script.Runtime := runtime) :
    Settings × Option InitError :=
  match r.read source with
  | .error reason => (s, some (.parse reason))
  | .ok code =>
    let (s, failure) := r.run host code s
    (s, failure.map .eval)

/-- Runs the init script at a path; `shown` is the path that an error names. -/
def load (s : Settings) (files : FileTree) (path shown : Text) (r : Script.Runtime := runtime) :
    Settings × Option InitError :=
  match files.readText path with
  | .error e => (s, some (.read shown e))
  | .ok source => eval s source r

def fileName : Text := "init.rhai".toList

/-- Where the init script is, below the directory of configurations. -/
def path : Text := "sparkpad/".toList ++ fileName

/-- The settings of the program: those of the init script if it runs to its end, or else the default
ones. -/
def settings (config : FileTree) (r : Script.Runtime := runtime) : Settings :=
  if config.hasPath path then
    match load {} config path path r with
    | (s, none) => s
    | (_, some _) => {}
  else {}

end InitScript

end ScriptPad
