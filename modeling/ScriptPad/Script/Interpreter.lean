import ScriptPad.Diagnostic.Analysis
import ScriptPad.Run.Workshop
import ScriptPad.Settings

/-!
Scripts as the pad checks and runs them, with any interpreter. It is set up for one or the other: a
check has limits and nothing else, and a run also has functions that print. Checking is reading a
script; a run reads it as well, before it does anything.
-/

namespace ScriptPad.Script

/-- What a script may use up. -/
structure Limits where
  maxOperations : Nat
  maxExprDepth : Nat
  deriving DecidableEq, Repr

def Limits.ofSettings (s : Settings) : Limits := ⟨s.maxOperations, s.maxExprDepth⟩

/-- What an interpreter is set up with. What a script prints through another function than those named
is seen by nobody. -/
structure Setup where
  limits : Limits
  printers : List Text := []
  deriving DecidableEq, Repr

namespace Setup

def forChecks (limits : Limits) : Setup := { limits := limits }

def forRuns (limits : Limits) : Setup := { limits := limits, printers := Capture.names }

end Setup

/-- Why a script cannot be read; `message` says the reason and the place. -/
structure Rejection where
  line? : Option Nat
  reason : Text
  message : Text
  deriving DecidableEq, Repr

/-- An interpreter reads a script and carries out what it has read. -/
structure Interpreter where
  Code : Type
  read : Setup → Text → Except Rejection Code
  perform : Setup → Code → Trace

/-- The code of a script that cannot be read. -/
def parseErrorCode : Int := 1

/-- How an error line names a script that cannot be read. -/
def parseErrorMark : Text := "Script parse error: ".toList

namespace Interpreter

/-- Reports the error that keeps a script from being read. An error without a line is put on the last
line. -/
def analyzer (i : Interpreter) (limits : Limits) : Analyzer := fun source =>
  match i.read (.forChecks limits) source with
  | .ok _ => .reports []
  | .error r => .reports [⟨r.line?.getD (max source.sourceLineCount 1), r.reason, parseErrorCode⟩]

/-- What a source does under limits. A source that cannot be read prints nothing. -/
def trace (i : Interpreter) (limits : Limits) (source : Text) : Trace :=
  match i.read (.forRuns limits) source with
  | .error r => ⟨[], .failure (parseErrorMark ++ r.message)⟩
  | .ok code => i.perform (.forRuns limits) code

def executor (i : Interpreter) (limits : Limits) : Executor := fun _ source => i.trace limits source

end Interpreter

end ScriptPad.Script
