import ScriptPad.Proofs.Run.History

/-!
Runs in a workshop, whatever the order of things. A step is a start that someone asks for, an event
that a worker sends, or the next queued event taken by the console. Beside the workshop a shift keeps
a book of the runs that were accepted and of all events that were sent; nothing in the workshop reads
it. The executor is any function, and no two runs have the same number, so a run may print what it
likes and end as it likes. One that prints on and on cannot be told, after so many steps, from one
that stops there and never ends.

The invariant is `Orderly`. Either everything is at rest: no run is active, the queue is empty and
every worker has sent the end of its run. Or one run is active, and three pieces in a row are exactly
the events of that run: the output so far, the queue, and what its worker has yet to send. A step
moves the cuts between the pieces and nothing else.
-/

namespace ScriptPad

inductive Move
  | start (hosted : Bool) (source : Text)
  | work (i : Nat)
  | take
  deriving DecidableEq, Repr

namespace Workshop

/-- The event that worker `i` sends next. -/
def next? (w : Workshop) (i : Nat) : Option RunEvent := w.workers[i]?.bind (·.pending.head?)

theorem work_of_next?_eq_none {w : Workshop} {i : Nat} (h : w.next? i = none) : w.work i = w := by
  unfold work
  split
  · next hk => simp [next?, hk] at h
  · rfl

end Workshop

/-- A workshop at work, with a book of the runs accepted, each with its source, and of the events sent
by workers, both in order. -/
structure Shift where
  workshop : Workshop
  accepted : List (RunId × Text) := []
  sent : List RunEvent := []

namespace Shift

def move (s : Shift) : Move → Shift
  | .start hosted source =>
    match s.workshop.start hosted source with
    | .ok (run, w) => { s with workshop := w, accepted := s.accepted ++ [(run, source)] }
    | .error _ => s
  | .work i =>
    { s with workshop := s.workshop.work i, sent := s.sent ++ (s.workshop.next? i).toList }
  | .take =>
    match s.workshop.receive? with
    | some (e, w) => { s with workshop := (w.apply e).2 }
    | none => s

/-- Whether the end of a run has been sent. -/
def HasEnded (s : Shift) (run : RunId) : Prop := ∃ outcome, .finished run outcome ∈ s.sent

/-- The lines that a run has printed so far. -/
def printed (s : Shift) (run : RunId) : List Text := s.sent.filterMap (·.lineOf? run)

/-! ### The invariant -/

structure AtRest (s : Shift) : Prop where
  state : s.workshop.console.state = .idle
  active : s.workshop.console.active = none
  queue : s.workshop.queue = []
  workers : ∀ k ∈ s.workshop.workers, k.pending = [] ∧ s.HasEnded k.run

/-- A run is active, and its worker, the last one, has some events yet to send. -/
structure AtWork (x : Executor) (s : Shift) (run : RunId) (source : Text) (ended : List Worker)
    (pending : List RunEvent) : Prop where
  state : s.workshop.console.state = .running
  active : s.workshop.console.active = some run
  run_lt : run < s.workshop.console.nextRun
  accepted : (run, source) ∈ s.accepted
  workers : s.workshop.workers = ended ++ [⟨run, pending⟩]
  workers_ended : ∀ k ∈ ended, k.pending = [] ∧ s.HasEnded k.run
  sent : s.sent.filter (·.run = run) =
    s.workshop.console.output.lines.map (.output run) ++ s.workshop.queue
  events : s.workshop.console.output.lines.map (.output run) ++ (s.workshop.queue ++ pending) =
    (x run source).events run

structure Orderly (x : Executor) (s : Shift) : Prop where
  executor : s.workshop.executor = x
  sent_lt : ∀ e ∈ s.sent, e.run < s.workshop.console.nextRun
  phase : s.AtRest ∨ ∃ run source ended pending, s.AtWork x run source ended pending

end Shift

/-! ### The events of a run -/

theorem Trace.run_of_mem_events {t : Trace} {run : RunId} {e : RunEvent} (h : e ∈ t.events run) :
    e.run = run := by
  rcases List.mem_append.1 h with h | h
  · obtain ⟨line, -, rfl⟩ := List.mem_map.1 h
    rfl
  · obtain ⟨outcome, -, rfl⟩ := by simpa using h
    rfl

/-- The end of a run comes after all its lines, and nothing after it. -/
theorem Trace.events_eq_append_finished {t : Trace} {run : RunId} {ls : List Text}
    {outcome : Outcome} {rest : List RunEvent}
    (h : ls.map (.output run) ++ .finished run outcome :: rest = t.events run) :
    ls = t.lines ∧ t.ending.outcome? = some outcome ∧ rest = [] := by
  obtain ⟨lines, ending⟩ := t
  induction ls generalizing lines with
  | nil =>
      cases lines with
      | cons l lines => simp [events, Capture.emit] at h
      | nil =>
          cases ho : ending.outcome? with
          | none => simp [events, ho] at h
          | some o =>
              simp only [events, ho, List.map_nil, List.nil_append, Option.map_some,
                Option.toList_some, List.cons.injEq, RunEvent.finished.injEq] at h
              exact ⟨rfl, by rw [h.1.2], h.2⟩
  | cons l ls ih =>
      cases lines with
      | nil =>
          cases ho : ending.outcome? <;> simp [events, ho] at h
      | cons l' lines =>
          simp only [events, List.map_cons, List.cons_append, List.cons.injEq, Capture.emit,
            RunEvent.output.injEq, true_and] at h
          obtain ⟨hls, hending, hrest⟩ := ih lines h.2
          exact ⟨by rw [h.1, hls], hending, hrest⟩

namespace Shift

variable {x : Executor} {s : Shift}

theorem HasEnded.mono {sent : List RunEvent} {run : RunId} (h : s.HasEnded run)
    (hsub : s.sent ⊆ sent) (w : Workshop) (accepted : List (RunId × Text)) :
    HasEnded ⟨w, accepted, sent⟩ run := by
  obtain ⟨outcome, h⟩ := h
  exact ⟨outcome, hsub h⟩

/-! ### A start -/

theorem Orderly.start_atRest (ho : s.Orderly x) (h : s.AtRest) (hosted : Bool) (source : Text) :
    (s.move (.start hosted source)).Orderly x := by
  cases hosted with
  | false =>
      have hw : s.workshop.start false source = .error .noRuntime := by
        simp [Workshop.start, Console.start_unhosted h.state, Except.map]
      simpa [move, hw] using ho
  | true =>
      let run := s.workshop.console.nextRun
      have hw : s.workshop.start true source = .ok (run, { s.workshop with
          console := { s.workshop.console with
            state := .running
            output := s.workshop.console.output.clear
            active := some run
            nextRun := run + 1 }
          workers := s.workshop.workers ++ [⟨run, (x run source).events run⟩] }) := by
        simp [Workshop.start, Console.start_hosted h.state, Except.map, ho.executor, run]
      simp only [move, hw]
      refine ⟨ho.executor, fun e he => Nat.lt_succ_of_lt (ho.sent_lt e he), .inr ?_⟩
      refine ⟨run, source, s.workshop.workers, (x run source).events run, ?_⟩
      -- the number is a new one, so nothing has been sent under it
      have hnone : s.sent.filter (·.run = run) = [] := by
        rw [List.filter_eq_nil_iff]
        intro e he heq
        exact Nat.ne_of_lt (ho.sent_lt e he) (of_decide_eq_true heq)
      exact {
        state := rfl
        active := rfl
        run_lt := Nat.lt_succ_self run
        accepted := by simp
        workers := rfl
        workers_ended := fun k hk =>
          ⟨(h.workers k hk).1, (h.workers k hk).2.mono (List.Subset.refl _) _ _⟩
        sent := by simp [hnone, h.queue]
        events := by simp [h.queue] }

theorem move_start_of_running (h : s.workshop.console.state = .running) (hosted : Bool)
    (source : Text) : s.move (.start hosted source) = s := by
  simp [move, Workshop.start, Console.start_of_running h, Except.map]

/-! ### A worker's turn -/

theorem move_work_of_next?_eq_none {i : Nat} (h : s.workshop.next? i = none) :
    s.move (.work i) = s := by
  simp [move, h, Workshop.work_of_next?_eq_none h]

theorem AtRest.next? (h : s.AtRest) (i : Nat) : s.workshop.next? i = none := by
  cases hk : s.workshop.workers[i]? with
  | none => simp [Workshop.next?, hk]
  | some k => simp [Workshop.next?, hk, (h.workers k (List.mem_of_getElem? hk)).1]

/-- Only the last worker has anything to send. -/
theorem AtWork.next?_of_ne {run : RunId} {source : Text} {ended : List Worker}
    {pending : List RunEvent} (h : s.AtWork x run source ended pending) {i : Nat}
    (hi : i ≠ ended.length) : s.workshop.next? i = none := by
  rcases Nat.lt_or_gt_of_ne hi with hlt | hgt
  · have hk : s.workshop.workers[i]? = some ended[i] := by
      rw [h.workers, List.getElem?_append_left hlt, List.getElem?_eq_getElem hlt]
    simp [Workshop.next?, hk, (h.workers_ended _ (List.getElem_mem hlt)).1]
  · have hk : s.workshop.workers[i]? = none := by
      rw [h.workers, List.getElem?_eq_none]
      simpa [Nat.succ_le_iff] using hgt
    simp [Workshop.next?, hk]

theorem Orderly.work_atWork {run : RunId} {source : Text} {ended : List Worker}
    {pending : List RunEvent} (ho : s.Orderly x) (h : s.AtWork x run source ended pending)
    (i : Nat) : (s.move (.work i)).Orderly x := by
  by_cases hi : i = ended.length
  · subst hi
    have hk : s.workshop.workers[ended.length]? = some ⟨run, pending⟩ := by simp [h.workers]
    cases pending with
    | nil =>
        rw [move_work_of_next?_eq_none (by simp [Workshop.next?, hk])]
        exact ho
    | cons e pending =>
        have hrun : e.run = run := by
          apply Trace.run_of_mem_events (t := x run source)
          rw [← h.events]
          simp
        have hnext : s.workshop.next? ended.length = some e := by simp [Workshop.next?, hk]
        have hwork : s.workshop.work ended.length = { s.workshop with
            workers := ended ++ [⟨run, pending⟩], queue := s.workshop.queue ++ [e] } := by
          simp [Workshop.work, h.workers]
        simp only [move, hnext, hwork, Option.toList_some]
        refine ⟨ho.executor, ?_, .inr ⟨run, source, ended, pending, ?_⟩⟩
        · intro d hd
          rcases List.mem_append.1 hd with hd | hd
          · exact ho.sent_lt d hd
          · rw [List.mem_singleton.1 hd, hrun]
            exact h.run_lt
        · exact {
            state := h.state
            active := h.active
            run_lt := h.run_lt
            accepted := h.accepted
            workers := rfl
            workers_ended := fun k hk =>
              ⟨(h.workers_ended k hk).1,
                (h.workers_ended k hk).2.mono (List.subset_append_left _ _) _ _⟩
            sent := by simp [h.sent, hrun]
            events := by simp [← h.events] }
  · rw [move_work_of_next?_eq_none (h.next?_of_ne hi)]
    exact ho

/-! ### A run at work -/

section AtWork

variable {run : RunId} {source : Text} {ended : List Worker} {pending : List RunEvent}

theorem AtWork.run_of_mem_queue (h : s.AtWork x run source ended pending) {e : RunEvent}
    (he : e ∈ s.workshop.queue) : e.run = run := by
  apply Trace.run_of_mem_events (t := x run source)
  rw [← h.events]
  simp [he]

/-- When the end of the run is next in the queue, all its lines are out and nothing is left. -/
theorem AtWork.of_finished (h : s.AtWork x run source ended pending) {r : RunId}
    {outcome : Outcome} {queue : List RunEvent}
    (hq : s.workshop.queue = .finished r outcome :: queue) :
    r = run ∧ s.workshop.console.output.lines = (x run source).lines ∧
      (x run source).ending.outcome? = some outcome ∧ queue = [] ∧ pending = [] := by
  obtain rfl : r = run := h.run_of_mem_queue (e := .finished r outcome) (by simp [hq])
  have hevents := h.events
  rw [hq, List.cons_append] at hevents
  obtain ⟨hlines, hending, hrest⟩ := Trace.events_eq_append_finished hevents
  exact ⟨rfl, hlines, hending, List.append_eq_nil_iff.1 hrest⟩

theorem Orderly.take_atWork (ho : s.Orderly x) (h : s.AtWork x run source ended pending) :
    (s.move .take).Orderly x := by
  cases hq : s.workshop.queue with
  | nil => simpa [move, Workshop.receive?, hq] using ho
  | cons e queue =>
      have hrun : e.run = run := h.run_of_mem_queue (by simp [hq])
      cases e with
      | output r line =>
          obtain rfl : r = run := hrun
          have hmove : s.move .take = { s with workshop := { s.workshop with
              console := { s.workshop.console with
                output := s.workshop.console.output.push line }
              queue := queue } } := by
            simp [move, Workshop.receive?, hq, Workshop.apply, Console.apply_output h.active]
          rw [hmove]
          refine ⟨ho.executor, ho.sent_lt, .inr ⟨r, source, ended, pending, ?_⟩⟩
          exact {
            state := h.state
            active := h.active
            run_lt := h.run_lt
            accepted := h.accepted
            workers := h.workers
            workers_ended := fun k hk =>
              ⟨(h.workers_ended k hk).1,
                (h.workers_ended k hk).2.mono (List.Subset.refl _) _ _⟩
            sent := by simp [h.sent, hq]
            events := by simp [← h.events, hq] }
      | finished r outcome =>
          -- nothing of the run comes after its end, neither queued nor pending
          obtain ⟨rfl, -, -, rfl, rfl⟩ := h.of_finished hq
          have hmove : s.move .take = { s with workshop := { s.workshop with
              console := { s.workshop.console with
                output := s.workshop.console.output.push outcome.line
                active := none
                state := .idle }
              queue := [] } } := by
            simp [move, Workshop.receive?, hq, Workshop.apply, Console.apply_finished h.active]
          have hsent : .finished r outcome ∈ s.sent.filter (·.run = r) := by
            rw [h.sent, hq]
            simp
          rw [hmove]
          refine ⟨ho.executor, ho.sent_lt, .inl ⟨rfl, rfl, rfl, fun k hk => ?_⟩⟩
          rw [h.workers, List.mem_append, List.mem_singleton] at hk
          rcases hk with hk | rfl
          · exact ⟨(h.workers_ended k hk).1,
              (h.workers_ended k hk).2.mono (List.Subset.refl _) _ _⟩
          · exact ⟨rfl, outcome, (List.mem_filter.1 hsent).1⟩

end AtWork

theorem Orderly.move (ho : s.Orderly x) (m : Move) : (s.move m).Orderly x := by
  rcases ho.phase with h | ⟨run, source, ended, pending, h⟩
  · cases m with
    | start hosted source => exact ho.start_atRest h hosted source
    | work i => rwa [move_work_of_next?_eq_none (h.next? i)]
    | take => simpa [Shift.move, Workshop.receive?, h.queue] using ho
  · cases m with
    | start hosted source => rwa [move_start_of_running h.state]
    | work i => exact ho.work_atWork h i
    | take => exact ho.take_atWork h

end Shift

end ScriptPad
