import Mathlib.Data.Nat.Pairing
import ScriptPad.CommandLine.Program
import ScriptPad.Proofs.Playground

/-!
Waiting for a run to end. After a start two parties take turns, in any order: a worker sends its next
event, or the one who waits takes the next event from the queue. The loop of a headless run stops at
the event that ends the run; a playground goes on and takes whatever else comes.

Of the events to come a console that waits for a run sees only those of that run: as long as it waits,
its output and these events together are the events of the run (`Console.Awaits`). Events of other
runs, left in the queue or still to be sent, are passed over. Each turn that does anything uses up
an event somewhere, and while the end of the run is outstanding some turn does something; so the
loop ends on every fair schedule.
-/

namespace ScriptPad

/-- Whose turn it is while a run is waited for. -/
inductive Turn
  | work (i : Nat)
  | take
  deriving DecidableEq, Repr

namespace Turn

/-- The first turns of a schedule. -/
def first (σ : Nat → Turn) (n : Nat) : List Turn := (List.range n).map σ

/-- Everybody gets a turn again and again. -/
def Fair (σ : Nat → Turn) : Prop := ∀ t n, ∃ m, n ≤ m ∧ σ m = t

theorem first_add (σ : Nat → Turn) (n m : Nat) :
    first σ (n + m) = first σ n ++ first (fun i => σ (n + i)) m := by
  simp [first, List.range_add, Function.comp_def]

theorem Fair.shift {σ : Nat → Turn} (h : Fair σ) (n : Nat) : Fair fun i => σ (n + i) := by
  intro t k
  obtain ⟨m, hm, rfl⟩ := h t (n + k)
  exact ⟨m - n, by omega, congrArg σ (by omega)⟩

/-- Turns in rounds: the one who waits, and then more and more workers. -/
def rounds (n : Nat) : Turn :=
  match (Nat.unpair n).1 with
  | 0 => .take
  | i + 1 => .work i

theorem fair_rounds : Fair rounds := by
  intro t n
  cases t with
  | take => exact ⟨Nat.pair 0 n, Nat.right_le_pair 0 n, by simp [rounds]⟩
  | work i => exact ⟨Nat.pair (i + 1) n, Nat.right_le_pair (i + 1) n, by simp [rounds]⟩

end Turn

/-! ### The last line -/

namespace Outcome

theorem line_value (v : Text) : (value v).line = '\n' :: "Result: ".toList ++ v := by
  show "\nResult: ".toList ++ v = _
  simp

theorem line_failure (m : Text) : (failure m).line = LineKind.errorMark ++ ' ' :: m := by
  show "Error: ".toList ++ m = "Error:".toList ++ ' ' :: m
  simp

/-- Whatever a run gives back, its last line is taken for an error only if it failed. -/
theorem classify_line_eq_error_iff (outcome : Outcome) :
    LineKind.classify outcome.line = .error ↔ ∃ m, outcome = .failure m := by
  cases outcome with
  | failure m => simp [LineKind.classify, line_failure]
  | value v =>
      have hmark : LineKind.errorMark.isPrefixOf (value v).line = false := by
        rw [line_value]
        rfl
      rw [LineKind.classify, hmark, if_neg Bool.false_ne_true]
      split <;> simp

end Outcome

namespace Ending

theorem exists_failure_iff {x : Ending} {outcome : Outcome} (h : x.outcome? = some outcome) :
    (∃ m, outcome = .failure m) ↔ (∃ m, x = .failure m) ∨ ∃ m, x = .crash m := by
  cases x with
  | value v =>
      obtain rfl := Option.some.inj h
      simp
  | failure m =>
      obtain rfl := Option.some.inj h
      simp
  | crash m =>
      refine ⟨fun _ => .inr ⟨m, rfl⟩, fun _ => ?_⟩
      cases m with
      | none => exact ⟨_, (Option.some.inj h).symm⟩
      | some m => exact ⟨_, (Option.some.inj h).symm⟩
  | never => cases h

theorem exists_value_iff {x : Ending} {outcome : Outcome} (h : x.outcome? = some outcome) :
    (∃ v, x = .value v) ↔ ¬ ((∃ m, x = .failure m) ∨ ∃ m, x = .crash m) := by
  cases x with
  | value v | failure m | crash m => simp
  | never => cases h

end Ending

theorem Command.code_ofOutput_eq_zero_iff {o : Output} :
    (ofOutput o).code = 0 ↔ ¬ o.endsWithError = true := by
  cases h : o.endsWithError <;> simp [ofOutput, h]

/-! ### The console -/

namespace Console

/-- A console that has yet to be told how the run ends: its output and the run's events to come are
all events of the run. -/
structure Awaits (c : Console) (t : Trace) (run : RunId) (coming : List RunEvent) : Prop where
  state : c.state = .running
  active : c.active = some run
  nextRun : c.nextRun = run + 1
  events : c.output.lines.map (.output run) ++ coming.filter (·.run = run) = t.events run

/-- The console after the end of a run. -/
def ofEnded (t : Trace) (run : RunId) (outcome : Outcome) : Console where
  output := ⟨(t.lines ++ [outcome.line]).toArray⟩
  nextRun := run + 1

variable {c : Console} {t : Trace} {run : RunId} {outcome : Outcome} {coming : List RunEvent}

/-- The events of a run hold more than its lines. -/
theorem Awaits.filter_ne_nil (h : c.Awaits t run coming) (ho : t.ending.outcome? = some outcome) :
    coming.filter (·.run = run) ≠ [] := by
  intro hnil
  have hevents := h.events
  rw [hnil, List.append_nil] at hevents
  have hmem : .finished run outcome ∈ c.output.lines.map (RunEvent.output run) := by
    rw [hevents]
    simp [Trace.events, ho]
  simp at hmem

/-- One event taken by a console that waits: it goes on waiting, or the event was the end. -/
theorem Awaits.apply {e : RunEvent} (h : c.Awaits t run (e :: coming)) :
    (∃ c', c.apply e = (false, c') ∧ c'.Awaits t run coming) ∨
      ∃ outcome, t.ending.outcome? = some outcome ∧ c.apply e = (true, ofEnded t run outcome) := by
  by_cases he : e.run = run
  · have hevents := h.events
    rw [List.filter_cons_of_pos (by simpa using he)] at hevents
    cases e with
    | output r line =>
        obtain rfl : r = run := he
        refine .inl ⟨_, Console.apply_output h.active line, h.state, h.active, h.nextRun, ?_⟩
        simpa using hevents
    | finished r outcome =>
        obtain rfl : r = run := he
        obtain ⟨hlines, hending, -⟩ := Trace.events_eq_append_finished hevents
        refine .inr ⟨outcome, hending, ?_⟩
        rw [Console.apply_finished h.active, ofEnded, h.nextRun]
        congr 2
        exact Output.ext_lines (by simp [Output.lines, Output.push, ← hlines])
  · refine .inl ⟨c, Console.apply_of_ne ?_, h.state, h.active, h.nextRun, ?_⟩
    · rw [h.active]
      exact fun heq => he (Option.some.inj heq).symm
    · rw [← h.events, List.filter_cons_of_neg (by simpa using he)]

theorem Awaits.drain (h : c.Awaits t run coming) (ho : t.ending.outcome? = some outcome) :
    (Workshop.drain c coming).2.1 = ofEnded t run outcome := by
  induction coming generalizing c with
  | nil => exact absurd rfl (h.filter_ne_nil ho)
  | cons e coming ih =>
      rcases h.apply with ⟨c', hc, h'⟩ | ⟨o, ho', hc⟩
      · simp only [Workshop.drain, hc]
        exact ih h'
      · obtain rfl : o = outcome := Option.some.inj (ho'.symm.trans ho)
        simp only [Workshop.drain, hc]

/-- Without an end to come, it waits for ever. -/
theorem Awaits.state_drain (h : c.Awaits t run coming) (ho : t.ending.outcome? = none) :
    (Workshop.drain c coming).2.1.state = .running := by
  induction coming generalizing c with
  | nil => exact h.state
  | cons e coming ih =>
      rcases h.apply with ⟨c', hc, h'⟩ | ⟨o, ho', -⟩
      · simp only [Workshop.drain, hc]
        exact ih h'
      · exact absurd (ho.symm.trans ho') (by simp)

theorem apply_of_active_eq_none (h : c.active = none) (e : RunEvent) : c.apply e = (false, c) :=
  apply_of_ne (by simp [h])

theorem endsWithError_ofEnded (t : Trace) (run : RunId) (outcome : Outcome) :
    (ofEnded t run outcome).output.endsWithError = true ↔ ∃ m, outcome = .failure m := by
  have hlast : (ofEnded t run outcome).output.endsWithError =
      (LineKind.classify outcome.line == .error) := by
    simp [ofEnded, Output.endsWithError, Output.lines]
  rw [hlast, beq_iff_eq]
  exact outcome.classify_line_eq_error_iff

end Console

/-! ### The turns -/

namespace Workshop

def turn (w : Workshop) : Turn → Workshop
  | .work i => w.work i
  | .take =>
    match w.receive? with
    | some (e, w) => (w.apply e).2
    | none => w

def turns (w : Workshop) (ts : List Turn) : Workshop := ts.foldl turn w

/-- The loop of a headless run on a schedule: whether it has ended, and the workshop it leaves. -/
def await (w : Workshop) : List Turn → Bool × Workshop
  | [] => (false, w)
  | .work i :: ts => (w.work i).await ts
  | .take :: ts =>
    match w.receive? with
    | none => w.await ts
    | some (e, w) =>
      match w.apply e with
      | (true, w) => (true, w)
      | (false, w) => w.await ts

/-- How many events are still to be sent and taken. -/
def left (w : Workshop) : Nat := 2 * (w.workers.flatMap (·.pending)).length + w.queue.length

/-- A workshop in which a run is waited for. Only the last worker sends events of this run. -/
structure Awaits (w : Workshop) (t : Trace) (run : RunId) (others : List Worker)
    (pending : List RunEvent) : Prop where
  workers : w.workers = others ++ [⟨run, pending⟩]
  others : ∀ e ∈ others.flatMap (·.pending), e.run ≠ run
  console : w.console.Awaits t run (w.queue ++ pending)

variable {w w₁ : Workshop} {t : Trace} {run : RunId} {outcome : Outcome} {others : List Worker}
  {pending : List RunEvent}

@[simp] theorem turns_nil (w : Workshop) : w.turns [] = w := rfl

@[simp] theorem turns_cons (w : Workshop) (u : Turn) (ts : List Turn) :
    w.turns (u :: ts) = (w.turn u).turns ts := rfl

theorem turns_append (w : Workshop) (ts us : List Turn) :
    w.turns (ts ++ us) = (w.turns ts).turns us := List.foldl_append ..

/-- A worker's turn: nothing, or one event goes from what it has yet to send to the queue. -/
theorem work_cases (w : Workshop) (i : Nat) :
    w.work i = w ∨ ∃ before r e rest after, w.workers = before ++ ⟨r, e :: rest⟩ :: after ∧
      w.work i = { w with workers := before ++ ⟨r, rest⟩ :: after, queue := w.queue ++ [e] } := by
  cases hnext : w.next? i with
  | none => exact .inl (work_of_next?_eq_none hnext)
  | some e =>
      obtain ⟨r, rest, hk, hwork⟩ := work_of_next?_eq_some hnext
      obtain ⟨hi, hget⟩ := List.getElem?_eq_some_iff.1 hk
      refine .inr ⟨w.workers.take i, r, e, rest, w.workers.drop (i + 1), ?_, ?_⟩
      · rw [← hget, List.getElem_cons_drop, List.take_append_drop]
      · rw [hwork, List.set_eq_take_append_cons_drop, if_pos hi]

theorem receive?_cons {e : RunEvent} {queue : List RunEvent} (h : w.queue = e :: queue) :
    w.receive? = some (e, { w with queue := queue }) := by
  simp [receive?, h]

/-- A turn that does something uses up an event. -/
theorem turn_eq_or_lt (w : Workshop) (u : Turn) : w.turn u = w ∨ (w.turn u).left < w.left := by
  cases u with
  | work i =>
      rcases w.work_cases i with h | ⟨before, r, e, rest, after, hworkers, hwork⟩
      · exact .inl h
      · refine .inr ?_
        simp only [turn, hwork, left, hworkers, List.flatMap_append, List.flatMap_cons,
          List.length_append, List.length_cons, List.length_nil]
        omega
  | take =>
      cases hq : w.queue with
      | nil => exact .inl (by simp [turn, receive?, hq])
      | cons e queue =>
          refine .inr ?_
          simp [turn, receive?_cons hq, apply, left, hq]

theorem turns_eq_or_lt (w : Workshop) (ts : List Turn) :
    w.turns ts = w ∨ (w.turns ts).left < w.left := by
  induction ts generalizing w with
  | nil => exact .inl rfl
  | cons u ts ih =>
      rw [turns_cons]
      rcases w.turn_eq_or_lt u with hu | hu
      · rw [hu]
        exact ih w
      · refine .inr ?_
        rcases ih (w.turn u) with h | h
        · rwa [h]
        · exact Nat.lt_trans h hu

/-- Turns of which the last would have done something at the start: either it does so at the end, or
another has been before it. -/
theorem turns_concat_lt {u : Turn} (hu : w.turn u ≠ w) (ts : List Turn) :
    (w.turns (ts ++ [u])).left < w.left := by
  rw [turns_append, turns_cons, turns_nil]
  rcases w.turns_eq_or_lt ts with heq | hlt
  · rw [heq]
    exact (w.turn_eq_or_lt u).resolve_left hu
  · rcases (w.turns ts).turn_eq_or_lt u with heq | hlt'
    · rwa [heq]
    · exact Nat.lt_trans hlt' hlt

/-- Once no run is active nothing is seen of the turns. -/
theorem console_turns (h : w.console.active = none) (ts : List Turn) :
    (w.turns ts).console = w.console := by
  induction ts generalizing w with
  | nil => rfl
  | cons u ts ih =>
      have hu : (w.turn u).console = w.console := by
        cases u with
        | work i => exact console_work w i
        | take =>
            cases hq : w.queue with
            | nil => simp [turn, receive?, hq]
            | cons e queue =>
                simp [turn, receive?_cons hq, apply, Console.apply_of_active_eq_none h]
      rw [turns_cons, ih (hu ▸ h), hu]

/-! ### The run that is waited for -/

/-- A worker's turn changes neither the console nor what it is told of the run. -/
theorem Awaits.work (h : w.Awaits t run others pending) (i : Nat) :
    ∃ others' pending', (w.work i).Awaits t run others' pending' := by
  rcases w.work_cases i with hwork | ⟨before, r, e, rest, after, hworkers, hwork⟩
  · rw [hwork]
    exact ⟨others, pending, h⟩
  · rw [hwork]
    have hlast : others ++ [⟨run, pending⟩] = before ++ ⟨r, e :: rest⟩ :: after :=
      h.workers.symm.trans hworkers
    rcases List.eq_nil_or_concat after with rfl | ⟨after, k, rfl⟩
    -- the worker of this run is the last one, so it is `i` exactly if no worker comes after `i`
    · obtain ⟨rfl, hk⟩ := List.append_inj' hlast rfl
      obtain ⟨rfl, rfl⟩ := Worker.mk.inj (List.singleton_inj.1 hk)
      exact ⟨others, rest, rfl, h.others, by simpa using h.console⟩
    · rw [List.concat_eq_append, ← List.cons_append, ← List.append_assoc] at hlast
      obtain ⟨rfl, hk⟩ := List.append_inj' hlast rfl
      obtain rfl := List.singleton_inj.1 hk
      have he : e.run ≠ run := h.others e (by simp)
      refine ⟨before ++ ⟨r, rest⟩ :: after, pending, by simp, fun d hd => h.others d ?_, ?_⟩
      · simp only [List.flatMap_append, List.flatMap_cons, List.mem_append, List.mem_cons] at hd ⊢
        tauto
      · have hc := h.console
        exact ⟨hc.state, hc.active, hc.nextRun, by simpa [he] using hc.events⟩

/-- What a loop that waits has come to after some turns, beside one that goes on. -/
theorem Awaits.await (h : w.Awaits t run others pending)
    (ho : t.ending.outcome? = some outcome) (ts : List Turn) :
    (w.await ts = (false, w.turns ts) ∧
        ∃ others' pending', (w.turns ts).Awaits t run others' pending') ∨
      ∃ w', w.await ts = (true, w') ∧ w'.console = .ofEnded t run outcome ∧
        (w.turns ts).console = .ofEnded t run outcome := by
  induction ts generalizing w others pending with
  | nil => exact .inl ⟨rfl, others, pending, h⟩
  | cons u ts ih =>
      cases u with
      | work i =>
          obtain ⟨others', pending', h'⟩ := h.work i
          exact ih h'
      | take =>
          cases hq : w.queue with
          | nil =>
              have hreceive : w.receive? = none := by simp [receive?, hq]
              simpa only [Workshop.await, turns_cons, turn, hreceive] using ih h
          | cons e queue =>
              have hconsole := h.console
              rw [hq, List.cons_append] at hconsole
              rw [turns_cons]
              rcases hconsole.apply with ⟨c, hc, h'⟩ | ⟨o, ho', hc⟩
              · simp only [Workshop.await, turn, receive?_cons hq, Workshop.apply, hc]
                exact ih ⟨h.workers, h.others, h'⟩
              · obtain rfl : o = outcome := Option.some.inj (ho'.symm.trans ho)
                refine .inr ?_
                simp only [Workshop.await, turn, receive?_cons hq, Workshop.apply, hc]
                exact ⟨_, rfl, rfl, console_turns rfl ts⟩

/-- As long as the end of the run is outstanding, someone has something to do. -/
theorem Awaits.exists_turn (h : w.Awaits t run others pending)
    (ho : t.ending.outcome? = some outcome) : ∃ u, w.turn u ≠ w := by
  cases hq : w.queue with
  | cons e queue =>
      refine ⟨.take, fun heq => ?_⟩
      have hlength := congrArg (·.queue.length) heq
      simp [turn, receive?_cons hq, Workshop.apply, hq] at hlength
  | nil =>
      refine ⟨.work others.length, fun heq => ?_⟩
      have hcoming := h.console.filter_ne_nil ho
      rw [hq, List.nil_append] at hcoming
      cases pending with
      | nil => exact hcoming rfl
      | cons e rest =>
          have hlength := congrArg (·.queue.length) heq
          simp [turn, Workshop.work, h.workers] at hlength

theorem await_append (w : Workshop) (ts us : List Turn) (h : (w.await ts).1 = false) :
    w.await (ts ++ us) = (w.await ts).2.await us := by
  induction ts generalizing w with
  | nil => rfl
  | cons u ts ih =>
      cases u with
      | work i => exact ih (w.work i) h
      | take =>
          cases hr : w.receive? with
          | none =>
              simp only [Workshop.await, hr, List.cons_append] at h ⊢
              exact ih w h
          | some r =>
              obtain ⟨e, w'⟩ := r
              cases ha : w'.apply e with
              | mk ended w'' =>
                  cases ended with
                  | true => simp [Workshop.await, hr, ha] at h
                  | false =>
                      simp only [Workshop.await, hr, ha, List.cons_append] at h ⊢
                      exact ih w'' h

/-- The loop ends, whoever gets a turn when, if only everybody gets turns again and again. -/
theorem Awaits.ends (h : w.Awaits t run others pending)
    (ho : t.ending.outcome? = some outcome) {σ : Nat → Turn} (hσ : Turn.Fair σ) :
    ∃ n, (w.await (Turn.first σ n)).1 = true := by
  -- on the events still to be sent or taken: a fair schedule comes to a turn that uses one up
  induction hleft : w.left using Nat.strong_induction_on generalizing w others pending σ with
  | h _ ih =>
      obtain ⟨u, hu⟩ := h.exists_turn ho
      obtain ⟨m, -, rfl⟩ := hσ u 0
      rcases h.await ho (Turn.first σ (m + 1)) with
        ⟨hawait, others', pending', h'⟩ | ⟨w', hawait, -⟩
      · have hless : (w.turns (Turn.first σ (m + 1))).left < w.left := by
          rw [Turn.first_add]
          exact turns_concat_lt hu (Turn.first σ m)
        obtain ⟨n, hn⟩ := ih _ (hleft ▸ hless) h' (hσ.shift (m + 1)) rfl
        refine ⟨m + 1 + n, ?_⟩
        rw [Turn.first_add, await_append _ _ _ (by rw [hawait]), hawait]
        exact hn
      · exact ⟨m + 1, by rw [hawait]⟩

/-! ### A start -/

/-- The workshop after a start that was accepted. -/
def begun (w : Workshop) (source : Text) : Workshop :=
  let run := w.console.nextRun
  { w with
    console := { state := .running, active := some run, nextRun := run + 1 }
    workers := w.workers ++ [⟨run, (w.executor run source).events run⟩] }

theorem start_eq_begun (h : w.console.state = .idle) (source : Text) :
    w.start true source = .ok (w.console.nextRun, w.begun source) := by
  rw [start, Console.start_hosted h]
  rfl

/-- Events of other runs may be left in the queue or be sent yet. -/
theorem awaits_begun (source : Text)
    (hold : ∀ e ∈ w.queue ++ w.workers.flatMap (·.pending), e.run ≠ w.console.nextRun) :
    (w.begun source).Awaits (w.executor w.console.nextRun source) w.console.nextRun w.workers
      ((w.executor w.console.nextRun source).events w.console.nextRun) where
  workers := rfl
  others e he := hold e (List.mem_append_right _ he)
  console := by
    refine ⟨rfl, rfl, rfl, ?_⟩
    have hqueue : w.queue.filter (·.run = w.console.nextRun) = [] :=
      List.filter_eq_nil_iff.2 fun e he => by simpa using hold e (List.mem_append_left _ he)
    have hevents : ∀ e ∈ (w.executor w.console.nextRun source).events w.console.nextRun,
        decide (e.run = w.console.nextRun) = true := fun e he => by
      simpa using Trace.run_of_mem_events he
    simp only [begun, List.filter_append, hqueue, List.filter_eq_self.2 hevents]
    rfl

theorem Awaits.settle (h : w.Awaits t run others pending) :
    w.settle.console.Awaits t run w.settle.queue := by
  have hothers : (others.flatMap (·.pending)).filter (·.run = run) = [] :=
    List.filter_eq_nil_iff.2 fun e he => by simpa using h.others e he
  refine ⟨h.console.state, h.console.active, h.console.nextRun, ?_⟩
  rw [← h.console.events]
  simp [Workshop.settle, h.workers, hothers]

/-- A run takes its own events and those that are left of other runs. -/
theorem run_eq_drained (hidle : w.console.state = .idle) (source : Text) :
    w.run true source = .ok (w.begun source).settle.finish.2 := by
  rw [run, start_eq_begun hidle]
  rfl

theorem exists_run (hidle : w.console.state = .idle) (source : Text)
    (hold : ∀ e ∈ w.queue ++ w.workers.flatMap (·.pending), e.run ≠ w.console.nextRun)
    (hends : (w.executor w.console.nextRun source).ending.outcome? = some outcome) :
    ∃ w', w.run true source = .ok w' ∧
      w'.console = .ofEnded (w.executor w.console.nextRun source) w.console.nextRun outcome :=
  ⟨_, run_eq_drained hidle source, (awaits_begun source hold).settle.drain hends⟩

theorem exists_run_of_never (hidle : w.console.state = .idle) (source : Text)
    (hold : ∀ e ∈ w.queue ++ w.workers.flatMap (·.pending), e.run ≠ w.console.nextRun)
    (hnever : (w.executor w.console.nextRun source).ending.outcome? = none) :
    ∃ w', w.run true source = .ok w' ∧ w'.console.state = .running :=
  ⟨_, run_eq_drained hidle source, (awaits_begun source hold).settle.state_drain hnever⟩

end Workshop

/-! ### In a playground -/

namespace Playground

/-- A turn of a worker, or of a playground that takes the next event of a run. -/
def turn (p : Playground) : Turn → Playground
  | .work i => { p with workshop := p.workshop.work i }
  | .take =>
    match p.workshop.receive? with
    | some (e, w) => takeRunEvent { p with workshop := w } e
    | none => p

def turns (p : Playground) (ts : List Turn) : Playground := ts.foldl turn p

theorem workshop_turn (p : Playground) (u : Turn) : (p.turn u).workshop = p.workshop.turn u := by
  cases u with
  | work i => rfl
  | take => cases hr : p.workshop.receive? <;> simp [turn, Workshop.turn, hr, takeRunEvent]

theorem workshop_turns (p : Playground) (ts : List Turn) :
    (p.turns ts).workshop = p.workshop.turns ts := by
  induction ts generalizing p with
  | nil => rfl
  | cons u ts ih =>
      rw [Workshop.turns_cons, ← workshop_turn]
      exact ih (p.turn u)

theorem workshop_startRun {p : Playground} (h : p.workshop.console.state = .idle) :
    (p.startRun true).workshop = p.workshop.begun p.editor.document := by
  simp [startRun, Workshop.start_eq_begun h]

end Playground

namespace Workshop

/-- A run of a source that ends, in a workshop with nothing going on and with whatever is left of
other runs. The run ends, with the lines printed and one line for the outcome as its output and with
nothing going on again. It is so for a loop that stops at the end of the run, whatever the order of
turns, and on a fair schedule the loop stops; and for a playground on this workshop, as soon as no
run goes on there. The exit code is zero exactly if the work gave a value, whatever was printed. -/
theorem run_ends_with_outcome (w : Workshop) (source : Text) (outcome : Outcome)
    (hidle : w.console.state = .idle)
    (hold : ∀ e ∈ w.queue ++ w.workers.flatMap (·.pending), e.run ≠ w.console.nextRun)
    (hends : (w.executor w.console.nextRun source).ending.outcome? = some outcome) :
    let t := w.executor w.console.nextRun source
    ∃ w₁ w', w.start true source = .ok (w.console.nextRun, w₁) ∧ w.run true source = .ok w' ∧
      w'.console.state = .idle ∧ w'.console.output.lines = t.lines ++ [outcome.line] ∧
      (∀ ts w₂, w₁.await ts = (true, w₂) → w₂.console = w'.console) ∧
      (∀ σ, Turn.Fair σ → ∃ n, (w₁.await (Turn.first σ n)).1 = true) ∧
      (∀ p : Playground, p.workshop = w → p.editor.document = source →
        (∀ ts, ((p.startRun true).turns ts).runState = .idle →
          ((p.startRun true).turns ts).workshop.console = w'.console) ∧
        ∀ σ, Turn.Fair σ → ∃ n, ((p.startRun true).turns (Turn.first σ n)).runState = .idle) ∧
      (w'.console.output.endsWithError = true ↔
        (∃ m, t.ending = .failure m) ∨ ∃ m, t.ending = .crash m) ∧
      ((Command.ofOutput w'.console.output).code = 0 ↔ ∃ v, t.ending = .value v) ∧
      ∀ x, w = fresh x → Command.run x source = Command.ofOutput w'.console.output := by
  intro t
  obtain ⟨w', hrun, hconsole⟩ := exists_run hidle source hold hends
  have hawaits := awaits_begun source hold
  have herror : w'.console.output.endsWithError = true ↔
      (∃ m, t.ending = .failure m) ∨ ∃ m, t.ending = .crash m := by
    rw [hconsole, Console.endsWithError_ofEnded, Ending.exists_failure_iff hends]
  refine ⟨w.begun source, w', start_eq_begun hidle source, hrun, by rw [hconsole]; rfl,
    by rw [hconsole]; rfl, fun ts w₂ hw₂ => ?_, fun σ hσ => hawaits.ends hends hσ, ?_, herror, ?_, ?_⟩
  · rcases hawaits.await hends ts with ⟨hawait, -⟩ | ⟨w₃, hawait, hended, -⟩
    · simp [hawait] at hw₂
    · obtain rfl : w₃ = w₂ := by simpa [hawait] using hw₂
      rw [hended, hconsole]
  · intro p hp hdocument
    have hstart : (p.startRun true).workshop = w.begun source := by
      rw [Playground.workshop_startRun (hp ▸ hidle), hp, hdocument]
    refine ⟨fun ts hts => ?_, fun σ hσ => ?_⟩
    · rw [Playground.runState, Playground.workshop_turns, hstart] at hts
      rw [Playground.workshop_turns, hstart, hconsole]
      rcases hawaits.await hends ts with ⟨-, others, pending, h⟩ | ⟨-, -, -, h⟩
      · rw [h.console.state] at hts
        cases hts
      · exact h
    · obtain ⟨n, hn⟩ := hawaits.ends hends hσ
      refine ⟨n, ?_⟩
      rw [Playground.runState, Playground.workshop_turns, hstart]
      rcases hawaits.await hends (Turn.first σ n) with ⟨hawait, -⟩ | ⟨-, -, -, h⟩
      · simp [hawait] at hn
      · rw [h]
        rfl
  · rw [Command.code_ofOutput_eq_zero_iff, herror, Ending.exists_value_iff hends]
  · rintro x rfl
    rw [Command.run, show Workshop.run { executor := x } true source = .ok w' from hrun]

/-- A run that prints an end of its own and then crashes, while two older runs have events left: one
in the queue, where its end is not for the new run, and one with its worker. -/
theorem run_ends_with_outcome_leftovers :
    let w : Workshop := {
      executor := fun _ t => ⟨[t], .crash none⟩
      console := { nextRun := 3 }
      workers := [⟨2, [.output 2 ['x']]⟩]
      queue := [.finished 1 (.value [])] }
    let shown := ["\nResult: 1".toList, "Error: engine worker failed: task N panicked".toList]
    (∀ e ∈ w.queue ++ w.workers.flatMap (·.pending), e.run ≠ w.console.nextRun) ∧
    ∃ w₁ w', w.start true "\nResult: 1".toList = .ok (3, w₁) ∧
      w.run true "\nResult: 1".toList = .ok w' ∧ w'.console.output.lines = shown ∧
      w'.console.output.endsWithError = true ∧
      Turn.Fair Turn.rounds ∧ ∃ n, (w₁.await (Turn.first Turn.rounds n)).1 = true := by
  intro w shown
  have hold : ∀ e ∈ w.queue ++ w.workers.flatMap (·.pending), e.run ≠ w.console.nextRun := by
    simp [w, RunEvent.run]
  obtain ⟨w₁, w', hstart, hrun, -, hlines, -, hends, -, herror, -⟩ :=
    run_ends_with_outcome w "\nResult: 1".toList _ rfl hold rfl
  have hshown : ["\nResult: 1".toList] ++
      [(Outcome.failure "engine worker failed: task N panicked".toList).line] = shown := by
    decide +kernel
  exact ⟨hold, w₁, w', hstart, hrun, hlines.trans hshown, herror.2 (.inr ⟨none, rfl⟩),
    Turn.fair_rounds, hends _ Turn.fair_rounds⟩

end Workshop

end ScriptPad
