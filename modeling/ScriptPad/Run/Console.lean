import ScriptPad.Run.Output

/-!
One run at a time. Runs are numbered from one; a start is refused while a run is going, and events
of any other run than the one going are ignored, so the output always belongs to the last run that
was started.
-/

namespace ScriptPad

/-- The number of a run; the first is one. -/
abbrev RunId := Nat

inductive RunState
  | idle
  | running
  deriving DecidableEq, Repr

namespace RunState

def isRunning : RunState → Bool
  | .idle => false
  | .running => true

/-- The word shown for the state. -/
def label : RunState → Text
  | .idle => "IDLE".toList
  | .running => "RUNNING".toList

end RunState

/-- How a run turned out: its value in words, or what went wrong. -/
inductive Outcome
  | value (v : Text)
  | failure (message : Text)
  deriving DecidableEq, Repr

/-- What the worker of a run sends. -/
inductive RunEvent
  | output (run : RunId) (line : Text)
  | finished (run : RunId) (outcome : Outcome)
  deriving DecidableEq, Repr

def RunEvent.run : RunEvent → RunId
  | .output r _ => r
  | .finished r _ => r

/-- Why a start is refused. -/
inductive StartError
  | alreadyRunning
  | noRuntime
  deriving DecidableEq, Repr

def StartError.message : StartError → Text
  | .alreadyRunning => "a run is already in progress".toList
  | .noRuntime => "no async runtime available to host the run".toList

/-- The last line of a run. -/
def Outcome.line : Outcome → Text
  | .value v => "\nResult: ".toList ++ v
  | .failure message => "Error: ".toList ++ message

/-- Whether a run is going, which run has its events taken, and the output of the last one started.
The first two are set together: a start sets both and the end of the run resets both. -/
structure Console where
  state : RunState := .idle
  output : Output := {}
  active : Option RunId := none
  nextRun : RunId := 1
  deriving DecidableEq, Repr

namespace Console

/-- Begins a run, unless one is going or there is nothing to host it. The output starts afresh. -/
def start (c : Console) (hosted : Bool) : Except StartError (RunId × Console) :=
  if c.state = .idle then
    if hosted then
      .ok (c.nextRun, { c with
        state := .running
        output := c.output.clear
        active := some c.nextRun
        nextRun := c.nextRun + 1 })
    else .error .noRuntime
  else .error .alreadyRunning

/-- Takes an event of a run; says whether it ended the run that is going. -/
def apply (c : Console) (e : RunEvent) : Bool × Console :=
  if c.active = some e.run then
    match e with
    | .output _ line => (false, { c with output := c.output.push line })
    | .finished _ outcome =>
      (true, { c with output := c.output.push outcome.line, active := none, state := .idle })
  else (false, c)

/-- An event of a run that is not going changes nothing. -/
theorem apply_of_ne {c : Console} {e : RunEvent} (h : c.active ≠ some e.run) :
    c.apply e = (false, c) := by
  simp [apply, h]

theorem apply_output {c : Console} {r : RunId} (h : c.active = some r) (line : Text) :
    c.apply (.output r line) = (false, { c with output := c.output.push line }) := by
  simp [apply, h, RunEvent.run]

theorem apply_finished {c : Console} {r : RunId} (h : c.active = some r)
    (outcome : Outcome) :
    c.apply (.finished r outcome) =
      (true, { c with output := c.output.push outcome.line, active := none, state := .idle }) := by
  simp [apply, h, RunEvent.run]

theorem start_of_running {c : Console} (h : c.state = .running) (hosted : Bool) :
    c.start hosted = .error .alreadyRunning := by
  simp [start, h]

theorem start_unhosted {c : Console} (h : c.state = .idle) :
    c.start false = .error .noRuntime := by
  simp [start, h]

theorem start_hosted {c : Console} (h : c.state = .idle) :
    c.start true = .ok (c.nextRun, { c with
      state := .running
      output := c.output.clear
      active := some c.nextRun
      nextRun := c.nextRun + 1 }) := by
  simp [start, h]

end Console

end ScriptPad
