import ScriptPad.Run.Capture
import ScriptPad.Text.Quoted

/-!
Where runs are carried out. Each accepted start hands the source to the executor, whose work is the
lines it prints and how it ends. A worker sends this as events, one at a time and whenever its turn
comes, into one queue that is first in, first out; the console takes them from the front.
-/

namespace ScriptPad

/-- How the work on a script ends, if it does. A crash may carry a message. -/
inductive Ending
  | value (v : Text)
  | failure (message : Text)
  | crash (message : Option Text)
  | never
  deriving DecidableEq, Repr

/-- Everything a script does that can be seen: the lines it prints, through whichever function, and
how it ends. -/
structure Trace where
  lines : List Text
  ending : Ending
  deriving DecidableEq, Repr

/-- Carries out a source under a run number. -/
abbrev Executor := RunId → Text → Trace

namespace Ending

/-- The outcome that is reported; a crash of the worker is a failure. -/
def outcome? : Ending → Option Outcome
  | .value v => some (.value v)
  | .failure m => some (.failure m)
  | .crash none => some (.failure "engine worker failed: task N panicked".toList)
  | .crash (some m) =>
    some (.failure ("engine worker failed: task N panicked with message ".toList ++ m.quoted))
  | .never => none

end Ending

/-- The events of a run, in the order they are sent. -/
def Trace.events (t : Trace) (run : RunId) : List RunEvent :=
  t.lines.map (Capture.emit ⟨run⟩) ++ (t.ending.outcome?.map (.finished run)).toList

/-- A started run and the events it has yet to send. -/
structure Worker where
  run : RunId
  pending : List RunEvent
  deriving DecidableEq, Repr

structure Workshop where
  executor : Executor
  console : Console := {}
  workers : List Worker := []
  queue : List RunEvent := []

namespace Workshop

/-- Begins a run of a source, with a worker of its own. -/
def start (w : Workshop) (hosted : Bool) (source : Text) : Except StartError (RunId × Workshop) :=
  (w.console.start hosted).map fun (run, c) =>
    (run, { w with
      console := c
      workers := w.workers ++ [⟨run, (w.executor run source).events run⟩] })

/-- Worker `i` sends its next event, if it has one. -/
def work (w : Workshop) (i : Nat) : Workshop :=
  match w.workers[i]? with
  | some ⟨run, e :: pending⟩ =>
    { w with workers := w.workers.set i ⟨run, pending⟩, queue := w.queue ++ [e] }
  | _ => w

/-- All workers send all they have, in the order they were started. -/
def settle (w : Workshop) : Workshop :=
  { w with workers := [], queue := w.queue ++ w.workers.flatMap (·.pending) }

/-- The next event and the queue without it. -/
def receive? (w : Workshop) : Option (RunEvent × Workshop) :=
  match w.queue with
  | [] => none
  | e :: queue => some (e, { w with queue := queue })

/-- Lets the console take an event. -/
def apply (w : Workshop) (e : RunEvent) : Bool × Workshop :=
  let (finished, c) := w.console.apply e
  (finished, { w with console := c })

/-- Takes events until one ends the run that is going; says how many were taken. -/
def drain (c : Console) : List RunEvent → Nat × Console × List RunEvent
  | [] => (0, c, [])
  | e :: queue =>
    match c.apply e with
    | (true, c') => (1, c', queue)
    | (false, c') =>
      let (n, c'', rest) := drain c' queue
      (n + 1, c'', rest)

/-- Takes queued events until one ends the run that is going or none is left. -/
def finish (w : Workshop) : Nat × Workshop :=
  let (n, c, queue) := drain w.console w.queue
  (n, { w with console := c, queue := queue })

/-- Starts a run and takes events until it has ended. -/
def run (w : Workshop) (hosted : Bool) (source : Text) : Except StartError Workshop := do
  let (_, w) ← w.start hosted source
  pure w.settle.finish.2

end Workshop

end ScriptPad
