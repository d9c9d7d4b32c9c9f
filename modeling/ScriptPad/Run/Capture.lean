import ScriptPad.Run.Console

/-!
How a script prints. A run is given three functions that print; they differ in name only, and each
sends its line under the number of the run it was made for.
-/

namespace ScriptPad

/-- What a run prints through. -/
structure Capture where
  run : RunId
  deriving DecidableEq, Repr

namespace Capture

/-- The names under which a script calls it. -/
def names : List Text := ["print", "println", "p"].map String.toList

def emit (c : Capture) (line : Text) : RunEvent := .output c.run line

/-- The functions that print for a run, by name. -/
def functions (run : RunId) : List (Text × Capture) := names.map fun name => (name, ⟨run⟩)

@[simp] theorem run_emit (c : Capture) (line : Text) : (c.emit line).run = c.run := rfl

end Capture

end ScriptPad
