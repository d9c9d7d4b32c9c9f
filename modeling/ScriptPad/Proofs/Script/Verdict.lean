import ScriptPad.Proofs.Run.Waiting

/-!
Checks and runs agree on what can be read. A check and a run set the interpreter up on their own, the
run with functions that print; so it takes two things of an interpreter that they come to the same
verdict (`Interpreter.Lawful`): what it reads depends on its setup only in how deep expressions may
nest, and no failure of a script that has been read is worded like that of one that has not.

A run of a script that cannot be read ends before it has printed anything. What a script prints is
never taken for the verdict, which is the last line of a run that has ended.
-/

namespace ScriptPad

/-- The line that the end of a run leaves; none while it goes on. -/
def Console.lastLine? (c : Console) : Option Text :=
  if c.state = .idle then c.output.lines.getLast? else none

namespace Script

/-- What an interpreter has to keep to. -/
structure Interpreter.Lawful (i : Interpreter) : Prop where
  read_eq : ∀ s s' : Setup, s.limits.maxExprDepth = s'.limits.maxExprDepth → i.read s = i.read s'
  failure_unmarked : ∀ {s : Setup} {code : i.Code} {m : Text},
    (i.perform s code).ending = .failure m → ¬ parseErrorMark <+: m

/-! ### The interpreter of the pad -/

/-- A text that the first two letters tell from the wording of a parse error. -/
def Unlike (t : Text) : Prop := ¬ ['S', 'c'] <+: t ∧ 2 ≤ t.length

instance (t : Text) : Decidable (Unlike t) := inferInstanceAs (Decidable (_ ∧ _))

theorem Unlike.append {t : Text} (h : Unlike t) (s : Text) : Unlike (t ++ s) := by
  refine ⟨fun hprefix => h.1 ?_, ?_⟩
  · exact List.prefix_of_prefix_length_le hprefix (List.prefix_append t s) h.2
  · rw [List.length_append]
    exact Nat.le_add_right_of_le h.2

theorem Unlike.unmarked {t : Text} (h : Unlike t) : ¬ parseErrorMark <+: t :=
  fun hmark => h.1 (List.IsPrefix.trans (by decide) hmark)

theorem unlike_failure (op : BinaryOp) : Unlike op.failure := by
  cases op <;> decide

theorem unlike_message (x : Cause) : Unlike x.message := by
  have hthrown : Unlike "Runtime error: ".toList := by decide
  cases x with
  | overflow op a b =>
      exact ((((((unlike_failure op).append _).append _).append _).append _).append _).append _
  | thrown v =>
      show Unlike (if v.render = [] then _ else _)
      split
      · decide
      · exact hthrown.append _
  -- the others by how many parts follow the first words
  | notIterable | tooManyCalls | tooManyOperations => decide
  | negationOverflow | unknownVariable =>
      refine Unlike.append ?_ _
      decide
  | divisionByZero | arrayBounds | textBounds =>
      refine ((Unlike.append ?_ _).append _).append _
      decide
  | unknownFunction | unknownProperty | readOnlyProperty | notIndexable | wrongType =>
      refine (((Unlike.append ?_ _).append _).append _).append _
      decide

theorem unlike_crash {m : Option Text} {t : Text}
    (h : (Ending.crash m).outcome? = some (.failure t)) : Unlike t := by
  have hfirst : Unlike "engine worker failed: task N panicked with message ".toList := by decide
  cases m with
  | none =>
      obtain rfl : _ = t := Outcome.failure.inj (Option.some.inj h)
      decide
  | some m =>
      obtain rfl : _ = t := Outcome.failure.inj (Option.some.inj h)
      exact hfirst.append _

/-- Reading takes no patience. -/
theorem analyzer_eq (limits : Limits) (patience : Nat) :
    analyzer limits = (interpreter patience).analyzer limits := by
  funext source
  unfold analyzer Interpreter.analyzer
  dsimp only [interpreter]
  cases Program.ofText (Setup.forChecks limits).limits.maxExprDepth source <;> rfl

theorem lawful_interpreter (patience : Nat) : (interpreter patience).Lawful where
  read_eq s s' h := by
    show (fun source => (Program.ofText s.limits.maxExprDepth source).mapError _) = _
    rw [h]
    rfl
  failure_unmarked {s p m} h := by
    have hend : ∀ r, ending r = .failure m → ¬ parseErrorMark <+: m := by
      intro r hr
      cases r with
      | none => cases hr
      | some r =>
          cases r with
          | ok v => cases hr
          | error f =>
              obtain rfl : f.message = m := Ending.failure.inj hr
              exact (((unlike_message f.cause).append _).append _).unmarked
    exact hend _ h

/-! ### The verdicts -/

namespace Interpreter

variable {i : Interpreter}

/-- What a check reports of a source, and what a run of it does. -/
theorem Lawful.verdict (hi : i.Lawful) (limits : Limits) (source : Text) :
    (∃ r m, i.analyzer limits source = .reports [r] ∧ r.code = 1 ∧
      i.trace limits source = ⟨[], .failure (parseErrorMark ++ m)⟩) ∨
    (i.analyzer limits source = .reports [] ∧
      ∀ m, (i.trace limits source).ending.outcome? ≠ some (.failure (parseErrorMark ++ m))) := by
  have hread : i.read (.forRuns limits) source = i.read (.forChecks limits) source :=
    congrFun (hi.read_eq (.forRuns limits) (.forChecks limits) rfl) source
  unfold analyzer trace
  rw [hread]
  cases i.read (.forChecks limits) source with
  | error r => exact .inl ⟨_, r.message, rfl, rfl, rfl⟩
  | ok code =>
      refine .inr ⟨rfl, fun m hm => ?_⟩
      have hmark : parseErrorMark <+: parseErrorMark ++ m := List.prefix_append ..
      dsimp only at hm
      cases hending : (i.perform (.forRuns limits) code).ending with
      | value v | never =>
          rw [hending] at hm
          cases hm
      | failure m' =>
          rw [hending] at hm
          obtain rfl := Outcome.failure.inj (Option.some.inj hm)
          exact hi.failure_unmarked hending hmark
      | crash m' =>
          rw [hending] at hm
          exact (unlike_crash hm).unmarked hmark

/-- What a check finds wrong, a run fails at. -/
theorem Lawful.run_fails (hi : i.Lawful) (limits : Limits) (source : Text)
    (h : (Command.check (i.analyzer limits) source).code ≠ 0) :
    (Command.run (i.executor limits) source).code ≠ 0 := by
  rcases hi.verdict limits source with ⟨-, m, -, -, htrace⟩ | ⟨hreports, -⟩
  · let x := i.executor limits
    have hends : (x 1 source).ending.outcome? = some (.failure (parseErrorMark ++ m)) := by
      show (i.trace limits source).ending.outcome? = _
      rw [htrace]
      rfl
    obtain ⟨w, hw, hconsole⟩ := Workshop.exists_run (w := .fresh x) rfl source (by simp [Workshop.fresh])
      hends
    have hrun : Command.run x source = Command.ofOutput w.console.output := by
      rw [Command.run, show Workshop.run { executor := x } true source = .ok w from hw]
    rw [hrun, Ne, Command.code_ofOutput_eq_zero_iff, not_not, hconsole, Console.endsWithError_ofEnded]
    exact ⟨_, rfl⟩
  · exact absurd (by simp [Command.check, Analysis.analyze, Analysis.attempt_eq, hreports,
      AnalysisAnswer.diagnostics]) h

end Interpreter

end Script

/-- How the line of a script that cannot be read begins. -/
theorem errorMark_append_parseErrorMark :
    "Error: ".toList ++ Script.parseErrorMark = "Error: Script parse error: ".toList := by decide

theorem Outcome.prefix_line_iff (outcome : Outcome) :
    "Error: Script parse error: ".toList <+: outcome.line ↔
      ∃ m, outcome = .failure (Script.parseErrorMark ++ m) := by
  cases outcome with
  | failure m =>
      show _ <+: "Error: ".toList ++ m ↔ _
      rw [← errorMark_append_parseErrorMark, List.prefix_append_right_inj]
      constructor
      · rintro ⟨t, rfl⟩
        exact ⟨t, rfl⟩
      · rintro ⟨t, h⟩
        obtain rfl := Outcome.failure.inj h
        exact List.prefix_append ..
  | value v =>
      rw [line_value]
      constructor
      · rintro ⟨t, h⟩
        cases h
      · rintro ⟨t, h⟩
        cases h

theorem Console.lastLine?_ofEnded (t : Trace) (run : RunId) (outcome : Outcome) :
    (ofEnded t run outcome).lastLine? = some outcome.line := by
  simp [lastLine?, ofEnded, Output.lines]

namespace Launch

open Script (executor analyzer Limits)

theorem start_run (s : Surroundings) (path : Text) :
    (start s ["--run".toList, path]).1 = .done (match s.read path with
      | .ok source => Command.run (executor (.ofSettings (InitScript.settings s.config)) s.patience) source
      | .error e => (Failure.script path e).result) := by
  have hrequest : Request.ofArguments ["--run".toList, path] = .ok (.run path) := rfl
  simp only [start, hrequest, prepare, ofRequest, Surroundings.readScript]
  cases s.read path <;> rfl

theorem start_check (s : Surroundings) (path : Text) :
    (start s ["--check".toList, path]).1 = .done (match s.read path with
      | .ok source => Command.check (analyzer (.ofSettings (InitScript.settings s.config))) source
      | .error e => (Failure.script path e).result) := by
  have hrequest : Request.ofArguments ["--check".toList, path] = .ok (.check path) := rfl
  simp only [start, hrequest, prepare, ofRequest, Surroundings.readScript]
  cases s.read path <;> rfl

end Launch

namespace Script

/-- A script is checked and is run with the same limits, the run in a workshop with nothing going on and
with whatever is left of other runs. The check reports at most one finding, an error. It reports one
exactly if the run ends with the line of a script that cannot be read, and then that line is all there
is. So where the check fails, as a command or as the program on a file, the run fails too. -/
theorem check_agrees_with_run (i : Interpreter) (hi : i.Lawful) (limits : Limits) (w : Workshop)
    (source : Text) (hexecutor : w.executor = i.executor limits) (hidle : w.console.state = .idle)
    (hold : ∀ e ∈ w.queue ++ w.workers.flatMap (·.pending), e.run ≠ w.console.nextRun) :
    ∃ reports w', i.analyzer limits source = .reports reports ∧ w.run true source = .ok w' ∧
      (reports ≠ [] ↔
        ∃ l, w'.console.lastLine? = some l ∧ "Error: Script parse error: ".toList <+: l) ∧
      (reports ≠ [] → (∃ r, reports = [r] ∧ r.code = 1) ∧
        ∃ m, w'.console.output.lines = ["Error: Script parse error: ".toList ++ m]) ∧
      ((Command.check (i.analyzer limits) source).code ≠ 0 →
        (Command.run (i.executor limits) source).code ≠ 0) ∧
      ∀ s : Surroundings, interpreter s.patience = i → ∀ path r,
        (Launch.start s ["--check".toList, path]).1 = .done r → r.code ≠ 0 →
        ∃ r', (Launch.start s ["--run".toList, path]).1 = .done r' ∧ r'.code ≠ 0 := by
  have htrace : w.executor w.console.nextRun source = i.trace limits source := by
    rw [hexecutor]
    rfl
  have hprogram : ∀ s : Surroundings, interpreter s.patience = i → ∀ path r,
      (Launch.start s ["--check".toList, path]).1 = .done r → r.code ≠ 0 →
      ∃ r', (Launch.start s ["--run".toList, path]).1 = .done r' ∧ r'.code ≠ 0 := by
    rintro s rfl path r hcheck hcode
    rw [Launch.start_check, analyzer_eq _ s.patience] at hcheck
    obtain rfl := Launch.done.inj hcheck
    refine ⟨_, Launch.start_run s path, ?_⟩
    cases hread : s.read path with
    | error e => exact Nat.one_ne_zero
    | ok source =>
        rw [hread] at hcode
        exact hi.run_fails (.ofSettings (InitScript.settings s.config)) source hcode
  rcases hi.verdict limits source with ⟨r, m, hreports, hcode, hrejected⟩ | ⟨hreports, hunmarked⟩
  · have hends : (w.executor w.console.nextRun source).ending.outcome? =
        some (.failure (parseErrorMark ++ m)) := by
      rw [htrace, hrejected]
      rfl
    obtain ⟨w', hw', hconsole⟩ := Workshop.exists_run hidle source hold hends
    have hline := (Outcome.failure (parseErrorMark ++ m)).prefix_line_iff
    refine ⟨[r], w', hreports, hw', ?_, fun _ => ⟨⟨r, rfl, hcode⟩, m, ?_⟩, hi.run_fails limits source,
      hprogram⟩
    · refine iff_of_true (by simp) ⟨_, ?_, hline.2 ⟨m, rfl⟩⟩
      rw [hconsole, Console.lastLine?_ofEnded]
    · rw [hconsole, htrace, hrejected]
      show ["Error: ".toList ++ (parseErrorMark ++ m)] = _
      rw [← List.append_assoc, errorMark_append_parseErrorMark]
  · have hnothing : ([] : List Report) ≠ [] → False := fun h => h rfl
    -- a run that goes on for ever leaves no last line, whatever it has printed
    cases hends : (i.trace limits source).ending.outcome? with
    | none =>
        obtain ⟨w', hw', hstate⟩ := Workshop.exists_run_of_never hidle source hold (htrace ▸ hends)
        refine ⟨[], w', hreports, hw', iff_of_false hnothing ?_, fun h => absurd rfl h,
          hi.run_fails limits source, hprogram⟩
        rintro ⟨l, hl, -⟩
        simp [Console.lastLine?, hstate] at hl
    | some outcome =>
        obtain ⟨w', hw', hconsole⟩ := Workshop.exists_run hidle source hold (htrace ▸ hends)
        refine ⟨[], w', hreports, hw', iff_of_false hnothing ?_, fun h => absurd rfl h,
          hi.run_fails limits source, hprogram⟩
        rintro ⟨l, hl, hmark⟩
        rw [hconsole, Console.lastLine?_ofEnded] at hl
        obtain rfl := Option.some.inj hl
        obtain ⟨m, rfl⟩ := outcome.prefix_line_iff.1 hmark
        exact hunmarked m hends

/-- An older run has printed what looks like the verdict, and its end has not been taken. -/
theorem check_agrees_with_run_leftovers :
    let i := interpreter 100
    let source := "let = ;".toList
    let stale := "Error: Script parse error: ".toList
    let w : Workshop := {
      executor := i.executor ⟨0, 64⟩
      console := { nextRun := 2 }
      queue := [.output 1 stale, .finished 1 (.value [])] }
    let s : Surroundings := {
      read := fun _ => .ok source, config := .empty, configPath := [], patience := 100 }
    i.Lawful ∧ (∀ e ∈ w.queue ++ w.workers.flatMap (·.pending), e.run ≠ w.console.nextRun) ∧
    (∃ r w' m, i.analyzer ⟨0, 64⟩ source = .reports [r] ∧ w.run true source = .ok w' ∧
      w'.console.output.lines = ["Error: Script parse error: ".toList ++ m]) ∧
    (Command.check (i.analyzer ⟨0, 64⟩) source).code ≠ 0 ∧
    (Command.run (i.executor ⟨0, 64⟩) source).code ≠ 0 ∧
    ∃ r', (Launch.start s ["--run".toList, ['f']]).1 = .done r' ∧ r'.code ≠ 0 := by
  intro i source stale w s
  have hold : ∀ e ∈ w.queue ++ w.workers.flatMap (·.pending), e.run ≠ w.console.nextRun := by
    simp [w, RunEvent.run]
  have hcheck : (Command.check (i.analyzer ⟨0, 64⟩) source).code ≠ 0 := by decide +kernel
  have hprogram : (Command.check (analyzer (.ofSettings (InitScript.settings s.config))) source).code ≠
      0 := by decide +kernel
  have hfound : i.analyzer ⟨0, 64⟩ source ≠ .reports [] := by decide +kernel
  obtain ⟨reports, w', hreports, hw', -, hone, hrun, hfile⟩ :=
    check_agrees_with_run i (lawful_interpreter 100) ⟨0, 64⟩ w source rfl rfl hold
  have hne : reports ≠ [] := fun hnil => hfound (hnil ▸ hreports)
  obtain ⟨⟨r, rfl, -⟩, m, hlines⟩ := hone hne
  exact ⟨lawful_interpreter 100, hold, ⟨r, w', m, hreports, hw', hlines⟩, hcheck, hrun hcheck,
    hfile s rfl ['f'] _ (Launch.start_check s ['f']) hprogram⟩

end Script

end ScriptPad
