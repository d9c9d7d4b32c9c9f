import ScriptPad.Script.Interpreter
import ScriptPad.Script.Machine
import ScriptPad.Script.Parser

/-!
The interpreter of the pad. A run prints through functions that all do the same, and it ends with a
value, a fault, or not at all.
-/

namespace ScriptPad.Script

/-- The text that a call prints, if it is the call of one of the functions that print. -/
def printed? (printers : List Text) (name : Text) (args : List Value) : Option Text :=
  match args with
  | [v] => if printers.contains name then some v.render else none
  | [] => if name = "print".toList ∧ printers.contains name then some [] else none
  | _ => none

/-- Whether a call is one that shows something to nobody. -/
def isSilent (name : Text) (args : List Value) : Bool :=
  args.length ≤ 1 && (name == "debug".toList || name == "print".toList)

/-- A host that gathers what is printed, the last line first. -/
def printingHost (printers : List Text) : Host (List Text) where
  call name args lines :=
    match printed? printers name args with
    | some line => some (.unit, line :: lines)
    | none => if isSilent name args then some (.unit, lines) else none

/-- The steps that a run of some operations can take. -/
def stepsFor (operations : Nat) : Nat := 4 * (operations + 4)

/-- The steps after which a run is given up: those of its operations, or `patience` if there is no
limit to them. -/
def stepLimit (maxOperations patience : Nat) : Nat :=
  if maxOperations = 0 then patience else stepsFor maxOperations

/-- Runs a program on a host; the state of the host, and how it ended if it did. -/
def Program.run {σ : Type} (p : Program) (host : Host σ) (maxOperations patience : Nat) (start : σ) :
    σ × Option (Except Fault Value) :=
  let m :=
    Machine.run { host := host, program := p, maxOperations := maxOperations }
      (stepLimit maxOperations patience) (Machine.start p start)
  (m.host, m.ending?)

/-- An interpreter as its host sees it. A script is read, and what has been read runs on a host of any
kind. -/
structure Runtime where
  Code : Type
  /-- What is read, or why the script cannot be read. -/
  read : Text → Except Text Code
  /-- The state that a run leaves its host in, and why the run failed if it did. -/
  run : {σ : Type} → Host σ → Code → σ → σ × Option Text

/-- What running out of steps means; the limit of operations comes first. -/
def exhausted : Fault := { cause := .tooManyOperations, position := {} }

/-- Why a run failed, if it did. -/
def failure? : Option (Except Fault Value) → Option Text
  | some (.ok _) => none
  | some (.error f) => some f.message
  | none => some exhausted.message

/-- The interpreter of the pad within some limits. The value of a run is given to nobody. -/
def runtime (limits : Limits) (patience : Nat) : Runtime where
  Code := Program
  read source := (Program.ofText limits.maxExprDepth source).mapError ParseError.message
  run host p s :=
    let (s, result) := p.run host limits.maxOperations patience s
    (s, failure? result)

/-- How a run ended, in words. -/
def ending : Option (Except Fault Value) → Ending
  | some (.ok v) => .value v.renderResult
  | some (.error f) => .failure f.message
  | none => .never

def ParseError.rejection (e : ParseError) : Rejection where
  line? := some e.position.line
  reason := e.refusal.message
  message := e.message

def interpreter (patience : Nat) : Interpreter where
  Code := Program
  read s source := (Program.ofText s.limits.maxExprDepth source).mapError ParseError.rejection
  perform s p :=
    let (lines, result) := p.run (printingHost s.printers) s.limits.maxOperations patience []
    ⟨lines.reverse, ending result⟩

/-- The analyzer of the pad; it carries nothing out. -/
def analyzer (limits : Limits) : Analyzer := (interpreter 0).analyzer limits

def executor (limits : Limits) (patience : Nat) : Executor := (interpreter patience).executor limits

end ScriptPad.Script
