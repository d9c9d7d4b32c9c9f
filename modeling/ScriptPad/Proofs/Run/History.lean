import Mathlib.Data.List.Induction
import Mathlib.Data.List.TakeWhile
import ScriptPad.Run.Workshop

/-!
What a console owes to its past. A history is a list of calls from outside: starts, with or without
a runtime to host them, and events handed over by anyone, in any order, repeated or made up. Of all
that only two things matter: how many starts were accepted, and which events came after the last of
these. `Past` keeps the two, and `Past.console` is the whole state they stand for.

The induction is on the history, a call at a time from its end; the only fact carried along is that
nothing is kept of the events before the first accepted start.
-/

namespace ScriptPad

namespace RunEvent

/-- The line an event prints for a run. -/
def lineOf? (run : RunId) : RunEvent → Option Text
  | .output r line => if r = run then some line else none
  | .finished _ _ => none

/-- The outcome an event reports for a run. -/
def outcomeOf? (run : RunId) : RunEvent → Option Outcome
  | .output _ _ => none
  | .finished r outcome => if r = run then some outcome else none

theorem lineOf?_of_ne {e : RunEvent} {run : RunId} (h : e.run ≠ run) : e.lineOf? run = none := by
  cases e with
  | output r line => exact if_neg h
  | finished r outcome => rfl

theorem outcomeOf?_of_ne {e : RunEvent} {run : RunId} (h : e.run ≠ run) :
    e.outcomeOf? run = none := by
  cases e with
  | output r line => rfl
  | finished r outcome => exact if_neg h

end RunEvent

namespace Workshop

/-- A workshop in which nothing has happened yet. -/
def fresh (x : Executor) : Workshop := { executor := x }

/-- A call on a workshop from outside. -/
inductive Call
  | start (hosted : Bool) (source : Text)
  | apply (e : RunEvent)
  deriving DecidableEq, Repr

inductive Answer
  | accepted (run : RunId)
  | refused (e : StartError)
  | applied (ended : Bool)
  deriving DecidableEq, Repr

def Answer.accepted? : Answer → Option RunId
  | .accepted run => some run
  | _ => none

def call (w : Workshop) : Call → Answer × Workshop
  | .start hosted source =>
    match w.start hosted source with
    | .ok (run, w') => (.accepted run, w')
    | .error e => (.refused e, w)
  | .apply e => (.applied (w.apply e).1, (w.apply e).2)

def after (w : Workshop) (h : List Call) : Workshop := h.foldl (fun w c => (w.call c).2) w

/-- The answers to the calls of a history, in order. -/
def answers (w : Workshop) : List Call → List Answer
  | [] => []
  | c :: h => (w.call c).1 :: (w.call c).2.answers h

@[simp] theorem after_append (w : Workshop) (h : List Call) (c : Call) :
    w.after (h ++ [c]) = ((w.after h).call c).2 := by
  simp [after]

theorem answers_append (w : Workshop) (h : List Call) (c : Call) :
    w.answers (h ++ [c]) = w.answers h ++ [((w.after h).call c).1] := by
  induction h generalizing w with
  | nil => rfl
  | cons d h ih =>
      rw [List.cons_append, answers, ih]
      rfl

theorem call_start_of_error {w : Workshop} {hosted : Bool} {e : StartError}
    (h : w.console.start hosted = .error e) (source : Text) :
    w.call (.start hosted source) = (.refused e, w) := by
  simp [call, start, h, Except.map]

theorem call_start_of_ok {w : Workshop} {hosted : Bool} {run : RunId} {c : Console}
    (h : w.console.start hosted = .ok (run, c)) (source : Text) :
    w.call (.start hosted source) = (.accepted run, { w with
      console := c
      workers := w.workers ++ [⟨run, (w.executor run source).events run⟩] }) := by
  simp [call, start, h, Except.map]

theorem apply_of_ne {w : Workshop} {e : RunEvent} (h : w.console.active ≠ some e.run) :
    w.apply e = (false, w) := by
  simp [apply, Console.apply_of_ne h]

end Workshop

open Workshop (Call Answer)

/-- What the state after a history depends on: how many starts were accepted, and the events applied
since the last of them. -/
structure Past where
  runs : Nat := 0
  since : List RunEvent := []
  deriving DecidableEq, Repr

namespace Past

/-- The outcome first reported for the last run. -/
def outcome? (p : Past) : Option Outcome := p.since.findSome? (·.outcomeOf? p.runs)

/-- The lines of the last run that came before any outcome of it. -/
def lines (p : Past) : List Text :=
  (p.since.takeWhile fun e => (e.outcomeOf? p.runs).isNone).filterMap (·.lineOf? p.runs)

def isIdle (p : Past) : Bool := p.runs == 0 || p.outcome?.isSome

/-- The line after all others, once the outcome is in: a value below an empty row, a failure as an
error. -/
def lastLine : Option Outcome → List Text
  | none => []
  | some (.value v) => ["\nResult: ".toList ++ v]
  | some (.failure m) => ["Error: ".toList ++ m]

/-- The state that a history leaves behind. -/
def console (p : Past) : Console where
  state := if p.isIdle then .idle else .running
  active := if p.isIdle then none else some p.runs
  output := ⟨(p.lines ++ lastLine p.outcome?).toArray⟩
  nextRun := p.runs + 1

/-- What the next call answers. -/
def answer (p : Past) : Call → Answer
  | .start hosted _ =>
    if p.isIdle then if hosted then .accepted (p.runs + 1) else .refused .noRuntime
    else .refused .alreadyRunning
  | .apply e => .applied (!p.isIdle && (e.outcomeOf? p.runs).isSome)

def call (p : Past) : Call → Past
  | .start hosted _ => if p.isIdle && hosted then { runs := p.runs + 1 } else p
  | .apply e => if p.runs = 0 then p else { p with since := p.since ++ [e] }

def ofCalls (h : List Call) : Past := h.foldl call {}

@[simp] theorem ofCalls_append (h : List Call) (c : Call) :
    ofCalls (h ++ [c]) = (ofCalls h).call c := by
  simp [ofCalls]

theorem runs_ne_zero_of_not_idle {p : Past} (h : p.isIdle = false) : p.runs ≠ 0 := by
  intro h0
  simp [isIdle, h0] at h

theorem outcome?_of_not_idle {p : Past} (h : p.isIdle = false) : p.outcome? = none := by
  simpa [isIdle, runs_ne_zero_of_not_idle h] using h

/-- A console puts the outcome in the same words. -/
theorem lastLine_eq (o : Option Outcome) : lastLine o = o.toList.map Outcome.line := by
  rcases o with _ | v | m <;> rfl

/-! ### One more event -/

theorem outcome?_since_append (p : Past) (e : RunEvent) :
    outcome? { p with since := p.since ++ [e] } = p.outcome?.or (e.outcomeOf? p.runs) := by
  simp [outcome?, List.findSome?_append]

/-- Once an outcome is in, no later event adds a line. -/
theorem lines_since_append_of_some {p : Past} (h : p.outcome?.isSome) (e : RunEvent) :
    lines { p with since := p.since ++ [e] } = p.lines := by
  obtain ⟨d, hd, hsome⟩ := List.findSome?_isSome_iff.1 h
  -- the lines are taken up to the event with the outcome, and that is before `e`
  have hstop : (p.since.takeWhile fun e => (e.outcomeOf? p.runs).isNone).length ≠
      p.since.length := by
    intro hlen
    have hall := List.takeWhile_eq_self_iff.1 ((List.takeWhile_prefix _).eq_of_length hlen) d hd
    rw [Option.isNone_iff_eq_none] at hall
    simp [hall] at hsome
  simp only [lines, List.takeWhile_append, if_neg hstop]

theorem lines_since_append_of_none {p : Past} (h : p.outcome? = none) (e : RunEvent) :
    lines { p with since := p.since ++ [e] } = p.lines ++ (e.lineOf? p.runs).toList := by
  have hnone : ∀ d ∈ p.since, (d.outcomeOf? p.runs).isNone := fun d hd =>
    Option.isNone_iff_eq_none.2 (List.findSome?_eq_none_iff.1 h d hd)
  have hself := List.takeWhile_eq_self_iff.2 hnone
  simp only [lines, List.takeWhile_append_of_pos hnone, hself, List.filterMap_append]
  congr 1
  cases e with
  | output r line => by_cases hr : r = p.runs <;> simp [RunEvent.outcomeOf?, RunEvent.lineOf?, hr]
  | finished r outcome =>
      rw [show (RunEvent.finished r outcome).lineOf? p.runs = none from rfl]
      by_cases hr : r = p.runs <;> simp [RunEvent.outcomeOf?, RunEvent.lineOf?, hr]

/-- In a history that ended idle, one more event is not seen. -/
theorem console_apply_of_idle {p : Past} (h : p.isIdle) (e : RunEvent) :
    (p.call (.apply e)).console = p.console := by
  by_cases h0 : p.runs = 0
  · simp [call, h0]
  · have hsome : p.outcome?.isSome := by simpa [isIdle, h0] using h
    obtain ⟨o, ho⟩ := Option.isSome_iff_exists.1 hsome
    simp only [call, if_neg h0, console, isIdle, outcome?_since_append,
      lines_since_append_of_some hsome, ho, Option.some_or]

/-- While a run is going, one more event adds its line, or ends the run with its outcome. -/
theorem console_apply_of_not_idle {p : Past} (h : p.isIdle = false) (e : RunEvent) :
    (p.call (.apply e)).console = {
      state := if (e.outcomeOf? p.runs).isSome then .idle else .running
      active := if (e.outcomeOf? p.runs).isSome then none else some p.runs
      output := ⟨(p.lines ++ (e.lineOf? p.runs).toList ++ lastLine (e.outcomeOf? p.runs)).toArray⟩
      nextRun := p.runs + 1 } := by
  have h0 := runs_ne_zero_of_not_idle h
  have hnone := outcome?_of_not_idle h
  simp [call, h0, console, isIdle, outcome?_since_append, lines_since_append_of_none hnone, hnone]

/-- The console takes an event just as its history records it. -/
theorem apply_console (p : Past) (e : RunEvent) :
    p.console.apply e =
      (!p.isIdle && (e.outcomeOf? p.runs).isSome, (p.call (.apply e)).console) := by
  cases hi : p.isIdle with
  | true =>
      rw [console_apply_of_idle hi, Console.apply_of_ne (by simp [console, hi])]
      rfl
  | false =>
      have hconsole : p.console =
          { state := .running, active := some p.runs, output := ⟨p.lines.toArray⟩
            nextRun := p.runs + 1 } := by
        simp [console, lastLine, hi, outcome?_of_not_idle hi]
      rw [console_apply_of_not_idle hi, hconsole]
      by_cases hr : e.run = p.runs
      · cases e with
        | output r line =>
            obtain rfl : r = p.runs := hr
            rw [Console.apply_output rfl]
            simp [RunEvent.outcomeOf?, RunEvent.lineOf?, lastLine_eq, Output.push]
        | finished r outcome =>
            obtain rfl : r = p.runs := hr
            rw [Console.apply_finished rfl]
            simp [RunEvent.outcomeOf?, RunEvent.lineOf?, lastLine_eq, Output.push]
      · rw [Console.apply_of_ne fun h => hr (Option.some.inj h).symm]
        simp [RunEvent.outcomeOf?_of_ne hr, RunEvent.lineOf?_of_ne hr, lastLine]

/-! ### One more call -/

theorem console_begun (n : Nat) : console { runs := n + 1 } =
    { state := .running, active := some (n + 1), nextRun := n + 2 } := rfl

/-- A workshop whose console is that of a history answers a call as the history says, and its console
is then that of the longer history. -/
theorem call_console {w : Workshop} {p : Past} (h : w.console = p.console) (c : Call) :
    (w.call c).1 = p.answer c ∧ (w.call c).2.console = (p.call c).console := by
  cases c with
  | apply e =>
      have happly := apply_console p e
      simp only [Workshop.call, Workshop.apply, h, happly]
      exact ⟨rfl, trivial⟩
  | start hosted source =>
      cases hi : p.isIdle with
      | false =>
          have hrunning : w.console.state = .running := by simp [h, console, hi]
          rw [Workshop.call_start_of_error (Console.start_of_running hrunning hosted)]
          simp [answer, call, hi, h]
      | true =>
          have hidle : w.console.state = .idle := by simp [h, console, hi]
          cases hosted with
          | false =>
              rw [Workshop.call_start_of_error (Console.start_unhosted hidle)]
              simp [answer, call, hi, h]
          | true =>
              have hrun : w.console.nextRun = p.runs + 1 := by rw [h]; rfl
              rw [Workshop.call_start_of_ok (Console.start_hosted hidle)]
              have hcall : p.call (.start true source) = { runs := p.runs + 1 } := by
                simp [call, hi]
              rw [hcall, console_begun, hrun]
              simp [answer, hi, Output.clear]

theorem range'_accepted (p : Past) (c : Call) :
    List.range' 1 p.runs ++ (p.answer c).accepted?.toList = List.range' 1 (p.call c).runs := by
  cases c with
  | apply e => by_cases h0 : p.runs = 0 <;> simp [answer, call, Answer.accepted?, h0]
  | start hosted source =>
      cases hi : p.isIdle with
      | false => simp [answer, call, Answer.accepted?, hi]
      | true =>
          cases hosted with
          | false => simp [answer, call, Answer.accepted?, hi]
          | true => simp [answer, call, Answer.accepted?, hi, List.range'_1_concat, Nat.add_comm]

end Past

namespace Workshop

theorem console_after (x : Executor) (h : List Call) :
    ((fresh x).after h).console = (Past.ofCalls h).console := by
  induction h using List.reverseRecOn with
  | nil => rfl
  | append_singleton h c ih =>
      rw [after_append, Past.ofCalls_append]
      exact (Past.call_console ih c).2

theorem accepted_runs (x : Executor) (h : List Call) :
    ((fresh x).answers h).filterMap Answer.accepted? = List.range' 1 (Past.ofCalls h).runs := by
  induction h using List.reverseRecOn with
  | nil => rfl
  | append_singleton h c ih =>
      have hanswer := (Past.call_console (console_after x h) c).1
      rw [answers_append, List.filterMap_append, ih, hanswer, Past.ofCalls_append,
        ← Past.range'_accepted]
      congr 1

theorem apply_unseen (x : Executor) (h : List Call) {e : RunEvent}
    (he : (Past.ofCalls h).isIdle ∨ e.run ≠ (Past.ofCalls h).runs) :
    ((fresh x).after h).apply e = (false, (fresh x).after h) := by
  apply apply_of_ne
  rw [console_after]
  rcases he with hi | hr
  · simp [Past.console, hi]
  · cases hi : (Past.ofCalls h).isIdle <;> simp [Past.console, hi, hr.symm]

theorem call_of_refused {w : Workshop} {c : Call} {e : StartError} (h : (w.call c).1 = .refused e) :
    (w.call c).2 = w := by
  cases c with
  | apply d => simp [call] at h
  | start hosted source =>
      cases hs : w.console.start hosted with
      | error d => rw [call_start_of_error hs]
      | ok r => simp [call_start_of_ok hs] at h

/-- The state of the console is a function of its history, and so are its answers: accepted runs are
numbered from one, a refused start leaves everything as it was, and so does every event but those of
the run that is going. -/
theorem history_determines_console (x : Executor) (h : List Call) (c : Call) :
    let w := (fresh x).after h
    let p := Past.ofCalls h
    w.console = p.console ∧
      (w.call c).1 = p.answer c ∧
      ((fresh x).answers h).filterMap Answer.accepted? = List.range' 1 p.runs ∧
      (∀ e, (w.call c).1 = .refused e → (w.call c).2 = w) ∧
      (∀ e, p.isIdle ∨ e.run ≠ p.runs → w.apply e = (false, w)) :=
  ⟨console_after x h, (Past.call_console (console_after x h) c).1, accepted_runs x h,
    fun _ => call_of_refused, fun _ => apply_unseen x h⟩

end Workshop

end ScriptPad
