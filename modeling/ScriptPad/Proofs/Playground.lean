import ScriptPad.Playground
import ScriptPad.Proofs.Document.Change
import ScriptPad.Proofs.Run.Interleaving

/-!
The playground in use. A step is a terminal event, one of the other calls of the main loop, or the
background at work: a worker sends an event, the queue hands one out. Events of runs may be applied
in any order and need not have been sent at all. Beside the playground a visit keeps a book, in which
the texts that the pane changed to are found by comparing, and the accepted runs by the numbers given
out.

There are two copies of the text, and the document learns of a change only from the pane's report.
Since the reports are right (`Pane.Anchored`), the playground shows what a document comes to that was
mounted once and told of each new text once (`Playground.Follows`). A run is given a copy of the
document, which is then the text in the pane; what becomes of the text later is of no concern to its
worker.

What the analyzer is asked is seen by asking in another way (`Asking.noting`): it answers as before, and
the texts are written down.
-/

namespace ScriptPad

/-- Asks and writes down the text. -/
def Asking.noting : Asking (StateM (List Text)) := fun f source => do
  modify (· ++ [source])
  pure (f source)

namespace Playground

inductive Step
  | react (hosted : Bool) (e : Event)
  | startRun (hosted : Bool)
  | takeRunEvent (e : RunEvent)
  | scrollToCursor (height : Nat)
  | work (i : Nat)
  | receive
  deriving DecidableEq, Repr

def step (p : Playground) : Step → Except OutOfRange Playground
  | .react hosted e => p.react hosted e
  | .startRun hosted => .ok (p.startRun hosted)
  | .takeRunEvent e => .ok (p.takeRunEvent e)
  | .scrollToCursor height => .ok (p.scrollToCursor height)
  | .work i => .ok { p with workshop := p.workshop.work i }
  | .receive => .ok { p with workshop.queue := p.workshop.queue.tail }

/-- Takes steps one after the other, as long as none fails. -/
def steps (p : Playground) : List Step → Except OutOfRange Playground
  | [] => .ok p
  | s :: ss => do
    let p ← p.step s
    p.steps ss

section Asking

variable {m : Type → Type} [Monad m]

def stepM (p : Playground) (ask : Asking m) : Step → ExceptT OutOfRange m Playground
  | .react hosted e => p.reactM ask hosted e
  | s => ExceptT.mk (pure (p.step s))

def stepsM (p : Playground) (ask : Asking m) : List Step → ExceptT OutOfRange m Playground
  | [] => pure p
  | s :: ss => do
    let p ← p.stepM ask s
    p.stepsM ask ss

end Asking

/-- What workers send in a step. -/
def sends (p : Playground) : Step → List RunEvent
  | .work i => (p.workshop.next? i).toList
  | _ => []

/-- The text in the pane of `p'`, if it is another one. -/
def newTexts (p p' : Playground) : List Text :=
  if p'.pane.text = p.pane.text then [] else [p'.pane.text]

/-- The run accepted on the way to `p'`, if the number for it has been given out, with the text in
the pane before. -/
def newRuns (p p' : Playground) : List (RunId × Text) :=
  if p'.workshop.console.nextRun = p.workshop.console.nextRun then []
  else [(p.workshop.console.nextRun, p.pane.text)]

end Playground

open Playground (Step)

/-- A playground in use, with a book of the texts that its pane has changed to, of the accepted runs,
each with the text in the pane at the time, and of the events sent by workers, all in order. -/
structure Visit where
  playground : Playground
  changes : List Text := []
  accepted : List (RunId × Text) := []
  sent : List RunEvent := []

namespace Visit

def opened (source : Text) (settings : Settings) (f : Analyzer) (x : Executor) : Visit where
  playground := .ofSource source settings f x

/-- Books what the step `s` has done that led to the playground `p`. -/
def book (v : Visit) (s : Step) (p : Playground) : Visit where
  playground := p
  changes := v.changes ++ v.playground.newTexts p
  accepted := v.accepted ++ v.playground.newRuns p
  sent := v.sent ++ v.playground.sends s

def step (v : Visit) (s : Step) : Except OutOfRange Visit := v.book s <$> v.playground.step s

/-- Takes steps one after the other, as long as none fails. -/
def steps (v : Visit) : List Step → Except OutOfRange Visit
  | [] => .ok v
  | s :: ss => do
    let v ← v.step s
    v.steps ss

end Visit

/-! ### Runs -/

namespace Workshop

/-- The worker in each place is that of the run accepted there, and what has been sent of the run and
what the worker has yet to send are the events of the text that was accepted with it. -/
structure Faithful (x : Executor) (w : Workshop) (accepted : List (RunId × Text))
    (sent : List RunEvent) : Prop where
  executor : w.executor = x
  nextRun : w.console.nextRun = accepted.length + 1
  length : w.workers.length = accepted.length
  sent_le : ∀ e ∈ sent, e.run ≤ accepted.length
  worker : ∀ {i : Nat} {run : RunId} {t : Text} {k : Worker}, accepted[i]? = some (run, t) →
    w.workers[i]? = some k → run = i + 1 ∧ k.run = run ∧
      sent.filter (·.run = run) ++ k.pending = (x run t).events run

variable {x : Executor} {w w' : Workshop} {accepted : List (RunId × Text)} {sent : List RunEvent}

theorem faithful_fresh (x : Executor) : Faithful x (.fresh x) [] [] where
  executor := rfl
  nextRun := rfl
  length := rfl
  sent_le := by simp
  worker h := by simp at h

theorem Faithful.congr (h : Faithful x w accepted sent) (hexecutor : w'.executor = w.executor)
    (hnext : w'.console.nextRun = w.console.nextRun) (hworkers : w'.workers = w.workers) :
    Faithful x w' accepted sent where
  executor := hexecutor.trans h.executor
  nextRun := hnext.trans h.nextRun
  length := hworkers ▸ h.length
  sent_le := h.sent_le
  worker ha hk := h.worker ha (hworkers ▸ hk)

theorem nextRun_apply (w : Workshop) (e : RunEvent) :
    (w.apply e).2.console.nextRun = w.console.nextRun := by
  unfold apply Console.apply
  dsimp only
  split
  · cases e <;> rfl
  · rfl

theorem Faithful.apply (h : Faithful x w accepted sent) (e : RunEvent) :
    Faithful x (w.apply e).2 accepted sent :=
  h.congr rfl (w.nextRun_apply e) rfl

/-- A start is refused, or it gives out the next number. -/
theorem start_cases (w : Workshop) (hosted : Bool) (source : Text) :
    (∃ e, w.start hosted source = .error e) ∨
      ∃ w', w.start hosted source = .ok (w.console.nextRun, w') ∧ w'.executor = w.executor ∧
        w'.console.nextRun = w.console.nextRun + 1 ∧
        w'.workers = w.workers ++ [⟨w.console.nextRun,
          (w.executor w.console.nextRun source).events w.console.nextRun⟩] := by
  cases hstate : w.console.state with
  | running =>
      exact .inl ⟨_, by rw [start, Console.start_of_running hstate]; rfl⟩
  | idle =>
      cases hosted with
      | false => exact .inl ⟨_, by rw [start, Console.start_unhosted hstate]; rfl⟩
      | true =>
          let run := w.console.nextRun
          refine .inr ⟨{ w with
            console := { w.console with
              state := .running
              output := w.console.output.clear
              active := some run
              nextRun := run + 1 }
            workers := w.workers ++ [⟨run, (w.executor run source).events run⟩] }, ?_, rfl, rfl, rfl⟩
          rw [start, Console.start_hosted hstate]
          rfl

/-- A run that is accepted gets the next number and a worker of its own. -/
theorem Faithful.accept (h : Faithful x w accepted sent) {t : Text}
    (hexecutor : w'.executor = w.executor) (hnext : w'.console.nextRun = w.console.nextRun + 1)
    (hworkers : w'.workers = w.workers ++ [⟨w.console.nextRun,
      (w.executor w.console.nextRun t).events w.console.nextRun⟩]) :
    Faithful x w' (accepted ++ [(w.console.nextRun, t)]) sent where
  executor := hexecutor.trans h.executor
  nextRun := by rw [hnext, h.nextRun, List.length_append, List.length_singleton]
  length := by simp [hworkers, h.length]
  sent_le e he := by
    rw [List.length_append]
    exact Nat.le_add_right_of_le (h.sent_le e he)
  worker {i run s k} ha hk := by
    rw [hworkers] at hk
    rcases Nat.lt_trichotomy i accepted.length with hi | rfl | hi
    · rw [List.getElem?_append_left hi] at ha
      rw [List.getElem?_append_left (h.length ▸ hi)] at hk
      exact h.worker ha hk
    · rw [List.getElem?_concat_length, Option.some.injEq, Prod.mk.injEq] at ha
      rw [← h.length, List.getElem?_concat_length, Option.some.injEq] at hk
      obtain ⟨rfl, rfl⟩ := ha
      subst hk
      -- the number is a new one, so nothing has been sent under it
      have hnone : sent.filter (·.run = w.console.nextRun) = [] := by
        rw [List.filter_eq_nil_iff]
        intro e he heq
        have hle := h.sent_le e he
        rw [of_decide_eq_true heq, h.nextRun] at hle
        exact Nat.not_succ_le_self _ hle
      refine ⟨h.nextRun, rfl, ?_⟩
      rw [hnone, h.executor, List.nil_append]
    · rw [List.getElem?_eq_none (by simpa [Nat.succ_le_iff] using hi)] at ha
      exact absurd ha (by simp)

theorem console_work (w : Workshop) (i : Nat) : (w.work i).console = w.console := by
  unfold work
  split <;> rfl

theorem work_of_next?_eq_some {i : Nat} {e : RunEvent} (h : w.next? i = some e) :
    ∃ run pending, w.workers[i]? = some ⟨run, e :: pending⟩ ∧ w.work i =
      { w with workers := w.workers.set i ⟨run, pending⟩, queue := w.queue ++ [e] } := by
  obtain ⟨⟨run, events⟩, hk, hhead⟩ := Option.bind_eq_some_iff.1 h
  obtain ⟨pending, rfl⟩ := List.head?_eq_some_iff.1 hhead
  exact ⟨run, pending, hk, by simp [work, hk]⟩

/-- A worker sends the first of the events it has yet to send. -/
theorem Faithful.work (h : Faithful x w accepted sent) (i : Nat) :
    Faithful x (w.work i) accepted (sent ++ (w.next? i).toList) := by
  cases hnext : w.next? i with
  | none =>
      rw [work_of_next?_eq_none hnext]
      simpa using h
  | some e =>
      obtain ⟨run, pending, hk, hwork⟩ := work_of_next?_eq_some hnext
      have hi : i < w.workers.length := (List.getElem?_eq_some_iff.1 hk).1
      obtain ⟨⟨run', t⟩, ha⟩ : ∃ a, accepted[i]? = some a :=
        ⟨_, List.getElem?_eq_getElem (h.length ▸ hi)⟩
      obtain ⟨hrun', hrun, hevents⟩ := h.worker ha hk
      obtain rfl : run = run' := hrun
      have he : e.run = run := by
        refine Trace.run_of_mem_events (t := x run t) ?_
        rw [← hevents]
        simp
      rw [hwork]
      refine ⟨h.executor, h.nextRun, by simpa using h.length, ?_, ?_⟩
      · intro d hd
        rcases List.mem_append.1 hd with hd | hd
        · exact h.sent_le d hd
        · rw [List.mem_singleton.1 hd, he, hrun', ← h.length]
          exact hi
      · intro j run' t' k ha' hk'
        rw [List.filter_append]
        by_cases hj : i = j
        · subst hj
          obtain ⟨rfl, rfl⟩ := Prod.mk.inj (Option.some.inj (ha.symm.trans ha'))
          obtain rfl : ⟨run, pending⟩ = k := by simpa [hi] using hk'
          refine ⟨hrun', rfl, ?_⟩
          rw [← hevents]
          simp [he]
        · have hk'' : w.workers[j]? = some k := by simpa [List.getElem?_set_ne hj] using hk'
          obtain ⟨hj', hrun, hevents'⟩ := h.worker ha' hk''
          have hne : e.run ≠ run' := by
            rw [he, hrun', hj']
            exact fun heq => hj (Nat.succ.inj heq)
          refine ⟨hj', hrun, ?_⟩
          rw [← hevents']
          simp [hne]

end Workshop

/-! ### The text -/

namespace LiveDocument

/-- A pane that is told of a change gets markers and nothing else. -/
theorem surface_change_pane (d : LiveDocument Pane) (t : Text) :
    (d.change t).surface =
      d.surface.withMarkers ((d.analysis.refresh t).1.getD d.surface.markers) := by
  rw [change_eq]
  cases (d.analysis.refresh t).1 <;> rfl

theorem markers_change (d : LiveDocument Pane) (t : Text) :
    (d.change t).surface.markers = (d.analysis.refresh t).1.getD d.surface.markers := by
  rw [surface_change_pane]
  rfl

theorem markers_change_of_reports {d : LiveDocument Pane} (hd : d.analysis.applied ≤ d.analysis.issued)
    {t : Text} {rs : List Report} (hrs : d.analysis.analyzer t = .reports rs) :
    (d.change t).surface.markers = rs.map fun r => r.diagnostic.marker := by
  rw [change_of_ok hd (Analysis.attempt_of_reports hrs), List.map_map]
  rfl

/-- The analyzer is `f`, and if it succeeds on the document the markers are those of its reports. -/
structure UpToDate (f : Analyzer) (d : LiveDocument Pane) : Prop where
  analyzer : d.analysis.analyzer = f
  inOrder : d.analysis.applied ≤ d.analysis.issued
  markers : ∀ rs, f d.document = .reports rs →
    d.surface.markers = rs.map fun r => r.diagnostic.marker

theorem upToDate_change {f : Analyzer} {d : LiveDocument Pane} (hf : d.analysis.analyzer = f)
    (hd : d.analysis.applied ≤ d.analysis.issued) (t : Text) : (d.change t).UpToDate f where
  analyzer := by rw [analysis_change, Analysis.analyzer_refresh, hf]
  inOrder := by
    rw [analysis_change]
    exact Analysis.applied_le_issued_refresh hd t
  markers rs hrs := by
    rw [document_change, ← hf] at hrs
    exact markers_change_of_reports hd hrs

theorem UpToDate.foldl {f : Analyzer} {d : LiveDocument Pane} (h : d.UpToDate f) (ts : List Text) :
    (ts.foldl change d).UpToDate f := by
  induction ts generalizing d with
  | nil => exact h
  | cons t ts ih => exact ih (upToDate_change h.analyzer h.inOrder t)

theorem issued_foldl_change (d : LiveDocument Pane) (ts : List Text) :
    (ts.foldl change d).analysis.issued = d.analysis.issued + ts.length := by
  induction ts generalizing d with
  | nil => rfl
  | cons t ts ih =>
      rw [List.foldl_cons, ih, analysis_change, Analysis.issued_refresh, List.length_cons]
      omega

end LiveDocument

namespace Playground

/-- What a step makes of the editor when the pane becomes `q`. -/
def shows (p : Playground) (q : Pane) : LiveDocument Pane :=
  if q.text = p.pane.text then { p.editor with surface := q }
  else LiveDocument.change { p.editor with surface := q } q.text

theorem pane_of_change {p : Playground} {d : LiveDocument Pane} {t : Text} (hp : p.editor = d.change t) :
    p.pane = d.surface.withMarkers ((d.analysis.refresh t).1.getD d.surface.markers) := by
  rw [pane, hp, LiveDocument.surface_change_pane]

theorem editor_startRun (p : Playground) (hosted : Bool) :
    (p.startRun hosted).editor = p.editor := by
  unfold startRun
  split <;> rfl

theorem editor_act (p : Playground) (hosted : Bool) (a : Action) :
    (p.act hosted a).editor = if a = .edited then p.editor.change p.pane.text else p.editor := by
  cases a with
  | run => exact editor_startRun p hosted
  | none | edited | quit | redraw => rfl

theorem text_act (p : Playground) (hosted : Bool) (a : Action) :
    (p.act hosted a).pane.text = p.pane.text := by
  rw [pane, editor_act]
  split
  · rw [LiveDocument.surface_change_pane, Pane.text_withMarkers]
    rfl
  · rfl

variable {p p' : Playground}

theorem exists_of_react {hosted : Bool} {e : Event} (h : p.react hosted e = .ok p') :
    ∃ a q, p.pane.react e = .ok (a, q) ∧ p' = ((p.clearMessage e).withPane q).act hosted a := by
  rw [react_eq] at h
  obtain ⟨⟨a, q⟩, hq, hp⟩ := exists_of_map_eq_ok h
  exact ⟨a, q, hq, hp.symm⟩

/-- No step analyzes but one that changes the text, and that step analyzes the new text. -/
theorem exists_shows (ha : p.pane.Anchored) {s : Step} (h : p.step s = .ok p') :
    ∃ q, q.Anchored ∧ q.markers = p.pane.markers ∧ p'.editor = p.shows q := by
  have hsame : p.shows p.pane = p.editor := if_pos rfl
  cases s with
  | react hosted e =>
      obtain ⟨a, q, hq, rfl⟩ := exists_of_react h
      have hc := Pane.change_react hq
      refine ⟨q, ha.change hc, hc.sameBeside.markers_eq, ?_⟩
      have heditor : ((p.clearMessage e).withPane q).editor = { p.editor with surface := q } := by
        cases e <;> rfl
      rw [editor_act, heditor, shows]
      by_cases htext : q.text = p.pane.text
      · rw [if_neg (mt (ha.edited_iff hc).1 (not_not_intro htext)), if_pos htext]
      · rw [if_pos ((ha.edited_iff hc).2 htext), if_neg htext]
        rfl
  | startRun hosted =>
      obtain rfl := Except.ok.inj h
      exact ⟨p.pane, ha, rfl, (editor_startRun p hosted).trans hsame.symm⟩
  | scrollToCursor height =>
      obtain rfl := Except.ok.inj h
      refine ⟨p.pane.scrollToCursor height, ha.scrollToCursor height, by simp, ?_⟩
      rw [shows, if_pos (by simp)]
      rfl
  | takeRunEvent e | work i | receive =>
      obtain rfl := Except.ok.inj h
      exact ⟨p.pane, ha, rfl, hsame.symm⟩

/-- The document is the text in the pane, and beside its text the pane shows what `d` comes to. -/
structure Follows (d : LiveDocument Pane) (p : Playground) : Prop where
  anchored : p.pane.Anchored
  document : p.editor.document = p.pane.text
  told : d.document = p.pane.text
  analysis : p.editor.analysis = d.analysis
  markers : p.pane.markers = d.surface.markers

variable {d : LiveDocument Pane}

/-- A pane that has changed and is told so. -/
theorem follows_change {e : LiveDocument Pane} (ha : e.surface.Anchored) (hanalysis : e.analysis = d.analysis)
    (hmarkers : e.surface.markers = d.surface.markers) (hp : p.editor = e.change e.surface.text) :
    p.Follows (d.change e.surface.text) := by
  have hpane := pane_of_change hp
  have htext : p.pane.text = e.surface.text := by rw [hpane, Pane.text_withMarkers]
  refine ⟨hpane ▸ ha, ?_, ?_, ?_, ?_⟩
  · rw [htext, hp, LiveDocument.document_change]
  · rw [htext, LiveDocument.document_change]
  · rw [hp, LiveDocument.analysis_change, LiveDocument.analysis_change, hanalysis]
  · rw [LiveDocument.markers_change, ← hanalysis, ← hmarkers, hpane]
    rfl

/-- A document that is opened on a source, before it is told of it. -/
abbrev unread (source : Text) (settings : Settings) (f : Analyzer) : LiveDocument Pane :=
  { LiveDocument.ofSurface (Pane.ofText source settings.tabWidth) f .rhai with
    surface := (Pane.ofText source settings.tabWidth).withLanguage .rhai }

theorem follows_ofSource (source : Text) (settings : Settings) (f : Analyzer) (x : Executor) :
    (ofSource source settings f x).Follows ((unread source settings f).change source) :=
  follows_change (e := unread source settings f) (Pane.anchored_ofText source settings.tabWidth) rfl rfl rfl

theorem upToDate_unread_change (source : Text) (settings : Settings) (f : Analyzer) :
    ((unread source settings f).change source).UpToDate f :=
  LiveDocument.upToDate_change (d := unread source settings f) rfl (Nat.le_refl 0) source

/-- A step that makes the text another one tells the document of it. -/
theorem Follows.step (h : p.Follows d) {s : Step} (hs : p.step s = .ok p') :
    p'.Follows ((p.newTexts p').foldl LiveDocument.change d) := by
  obtain ⟨q, hq, hmarkers, heditor⟩ := exists_shows h.anchored hs
  by_cases htext : q.text = p.pane.text
  · have hp' : p'.editor = { p.editor with surface := q } := heditor.trans (if_pos htext)
    have hpane : p'.pane = q := congrArg LiveDocument.surface hp'
    rw [newTexts, hpane, if_pos htext]
    refine ⟨hpane ▸ hq, ?_, ?_, ?_, ?_⟩
    · rw [hpane, htext, hp']
      exact h.document
    · rw [hpane, htext]
      exact h.told
    · rw [hp']
      exact h.analysis
    · rw [hpane, hmarkers]
      exact h.markers
  · have hp' : p'.editor = LiveDocument.change { p.editor with surface := q } q.text :=
      heditor.trans (if_neg htext)
    have hpane : p'.pane.text = q.text := by rw [pane_of_change hp', Pane.text_withMarkers]
    rw [newTexts, hpane, if_neg htext]
    exact follows_change (e := { p.editor with surface := q }) hq h.analysis (hmarkers.trans h.markers) hp'

theorem Follows.analysis_step (h : p.Follows d) {s : Step} (hs : p.step s = .ok p') :
    p'.editor.analysis = if p'.pane.text = p.pane.text then p.editor.analysis
      else (p.editor.analysis.refresh p'.pane.text).2 := by
  rw [(h.step hs).analysis, newTexts, h.analysis]
  split
  · rfl
  · exact LiveDocument.analysis_change _ _

/-! ### What the analyzer is asked -/

theorem reactM_noting {hosted : Bool} {e : Event} {a : Action} {q : Pane}
    (hq : p.pane.react e = .ok (a, q)) (log : List Text) :
    (p.reactM .noting hosted e).run.run log =
      (.ok (((p.clearMessage e).withPane q).act hosted a),
        if a = .edited then log ++ [q.text] else log) := by
  rw [reactM, hq]
  cases a <;> rfl

theorem newTexts_of_eq (h : p'.pane.text = p.pane.text) : p.newTexts p' = [] := if_pos h

/-- A step that makes the text another one asks about the new text once, and any other asks nothing. -/
theorem stepM_noting (ha : p.pane.Anchored) {s : Step} (hs : p.step s = .ok p') (log : List Text) :
    (p.stepM .noting s).run.run log = (.ok p', log ++ p.newTexts p') := by
  cases s with
  | react hosted e =>
      obtain ⟨a, q, hq, rfl⟩ := exists_of_react hs
      have hedited := ha.edited_iff (Pane.change_react hq)
      have htext : (((p.clearMessage e).withPane q).act hosted a).pane.text = q.text := text_act ..
      rw [stepM, reactM_noting hq, newTexts, htext]
      by_cases hsame : q.text = p.pane.text
      · rw [if_neg (mt hedited.1 (not_not_intro hsame)), if_pos hsame, List.append_nil]
      · rw [if_pos (hedited.2 hsame), if_neg hsame]
  | startRun hosted =>
      obtain rfl := Except.ok.inj hs
      have htext : (p.startRun hosted).pane.text = p.pane.text :=
        congrArg (·.surface.text) (editor_startRun p hosted)
      rw [newTexts_of_eq htext, List.append_nil]
      rfl
  | scrollToCursor height =>
      obtain rfl := Except.ok.inj hs
      have htext : (p.scrollToCursor height).pane.text = p.pane.text := Pane.text_scrollToCursor ..
      rw [newTexts_of_eq htext, List.append_nil]
      rfl
  | takeRunEvent e | work i | receive =>
      obtain rfl := Except.ok.inj hs
      rw [newTexts_of_eq (by rfl), List.append_nil]
      rfl

theorem stepsM_cons_noting {s : Step} {log log' : List Text}
    (h : (p.stepM .noting s).run.run log = (.ok p', log')) (ss : List Step) :
    (p.stepsM .noting (s :: ss)).run.run log = (p'.stepsM .noting ss).run.run log' := by
  simp only [stepsM, ExceptT.run_bind, StateT.run_bind, h]
  rfl

/-- Opens a playground and takes steps; beside what comes of it, the texts that its analyzer is asked
about, in order. -/
def asked (source : Text) (settings : Settings) (f : Analyzer) (x : Executor) (ss : List Step) :
    Except OutOfRange Playground × List Text :=
  (ofSourceM .noting source settings f x >>= fun p => (p.stepsM .noting ss).run).run []

theorem asked_eq (source : Text) (settings : Settings) (f : Analyzer) (x : Executor) (ss : List Step) :
    asked source settings f x ss =
      ((ofSource source settings f x).stepsM .noting ss).run.run [source] := rfl

theorem newRuns_of_eq (h : p'.workshop.console.nextRun = p.workshop.console.nextRun) :
    p.newRuns p' = [] := if_pos h

variable {x : Executor} {accepted : List (RunId × Text)} {sent : List RunEvent}

/-- A step in which no number is given out and no worker sends. -/
theorem faithful_quiet {s : Step} (h : p'.workshop.Faithful x accepted sent)
    (hnext : p'.workshop.console.nextRun = p.workshop.console.nextRun) (hs : p.sends s = []) :
    p'.workshop.Faithful x (accepted ++ p.newRuns p') (sent ++ p.sends s) := by
  rw [newRuns_of_eq hnext, hs, List.append_nil, List.append_nil]
  exact h

/-- A start on the way from `p`, by `p'` with the same workshop. -/
theorem faithful_startRun (h : p.workshop.Faithful x accepted sent)
    (hworkshop : p'.workshop = p.workshop) (hdocument : p'.editor.document = p.pane.text)
    (hosted : Bool) :
    (p'.startRun hosted).workshop.Faithful x (accepted ++ p.newRuns (p'.startRun hosted)) sent := by
  rcases p.workshop.start_cases hosted p.pane.text with
    ⟨e, he⟩ | ⟨w, hw, hexecutor, hnext, hworkers⟩
  · have hstart : (p'.startRun hosted).workshop = p.workshop := by
      simp [startRun, hworkshop, hdocument, he, withMessage]
    rw [newRuns_of_eq (congrArg (·.console.nextRun) hstart), hstart, List.append_nil]
    exact h
  · have hstart : (p'.startRun hosted).workshop = w := by
      simp [startRun, hworkshop, hdocument, hw]
    rw [newRuns, hstart, if_neg (hnext ▸ Nat.succ_ne_self _)]
    exact h.accept hexecutor hnext hworkers

theorem faithful_step (h : p.workshop.Faithful x accepted sent)
    (hdocument : p.editor.document = p.pane.text) {s : Step} (hp : p.step s = .ok p') :
    p'.workshop.Faithful x (accepted ++ p.newRuns p') (sent ++ p.sends s) := by
  cases s with
  | react hosted e =>
      obtain ⟨a, q, -, rfl⟩ := exists_of_react hp
      have hworkshop : ((p.clearMessage e).withPane q).workshop = p.workshop := by cases e <;> rfl
      have hdocument' : ((p.clearMessage e).withPane q).editor.document = p.pane.text := by
        rw [← hdocument]
        cases e <;> rfl
      cases a with
      | run =>
          rw [show p.sends (.react hosted e) = [] from rfl, List.append_nil]
          exact faithful_startRun h hworkshop hdocument' hosted
      | none | edited | quit | redraw =>
          refine faithful_quiet ?_ (congrArg (·.console.nextRun) hworkshop) rfl
          exact hworkshop ▸ h
  | startRun hosted =>
      obtain rfl := Except.ok.inj hp
      rw [show p.sends (.startRun hosted) = [] from rfl, List.append_nil]
      exact faithful_startRun h rfl hdocument hosted
  | takeRunEvent e =>
      obtain rfl := Except.ok.inj hp
      exact faithful_quiet (h.apply e) (Workshop.nextRun_apply _ e) rfl
  | scrollToCursor height =>
      obtain rfl := Except.ok.inj hp
      exact faithful_quiet h rfl rfl
  | work i =>
      obtain rfl := Except.ok.inj hp
      rw [newRuns_of_eq (congrArg (·.nextRun) (Workshop.console_work _ i)), List.append_nil]
      exact h.work i
  | receive =>
      obtain rfl := Except.ok.inj hp
      exact faithful_quiet (h.congr rfl rfl rfl) rfl rfl

end Playground

namespace Visit

variable {v v' : Visit} {x : Executor}

/-- What a visit keeps true: its playground follows a document told of each change once, in order. -/
structure Orderly (mounted : LiveDocument Pane) (x : Executor) (v : Visit) : Prop where
  follows : v.playground.Follows (v.changes.foldl LiveDocument.change mounted)
  faithful : v.playground.workshop.Faithful x v.accepted v.sent

theorem Orderly.book {mounted : LiveDocument Pane} (h : v.Orderly mounted x) {s : Step}
    {p : Playground} (hp : v.playground.step s = .ok p) : (v.book s p).Orderly mounted x := by
  refine ⟨?_, Playground.faithful_step h.faithful h.follows.document hp⟩
  rw [show (v.book s p).changes = v.changes ++ v.playground.newTexts p from rfl, List.foldl_append]
  exact h.follows.step hp

/-- Steps are the same with a book beside them. -/
theorem exists_steps {ss : List Step} {p : Playground} (h : v.playground.steps ss = .ok p) :
    ∃ v', v.steps ss = .ok v' ∧ v'.playground = p := by
  induction ss generalizing v with
  | nil =>
      obtain rfl := Except.ok.inj h
      exact ⟨v, rfl, rfl⟩
  | cons s ss ih =>
      obtain ⟨p₁, hp₁, hrest⟩ := exists_of_bind_eq_ok h
      obtain ⟨v', hv', hp⟩ := ih (v := v.book s p₁) hrest
      refine ⟨v', ?_, hp⟩
      rw [steps, step, hp₁]
      exact hv'

/-- The changes in the book are what the analyzer is asked about on the way. -/
theorem Orderly.steps {mounted : LiveDocument Pane} {ss : List Step} (h : v.Orderly mounted x)
    (hs : v.steps ss = .ok v') : v'.Orderly mounted x ∧ ∀ log,
      (v.playground.stepsM .noting ss).run.run (log ++ v.changes) =
        (.ok v'.playground, log ++ v'.changes) := by
  induction ss generalizing v with
  | nil =>
      obtain rfl := Except.ok.inj hs
      exact ⟨h, fun log => rfl⟩
  | cons s ss ih =>
      obtain ⟨v₁, hv₁, hrest⟩ := exists_of_bind_eq_ok hs
      obtain ⟨p, hp, rfl⟩ := exists_of_map_eq_ok hv₁
      obtain ⟨hv', hasked⟩ := ih (h.book hp) hrest
      refine ⟨hv', fun log => ?_⟩
      have hstep := Playground.stepM_noting h.follows.anchored hp (log ++ v.changes)
      rw [Playground.stepsM_cons_noting hstep, List.append_assoc]
      exact hasked log

theorem orderly_opened (source : Text) (settings : Settings) (f : Analyzer) (x : Executor) :
    (opened source settings f x).Orderly
      (LiveDocument.ofSurface (Pane.ofText source settings.tabWidth) f .rhai).mount x :=
  ⟨Playground.follows_ofSource source settings f x, Workshop.faithful_fresh x⟩

/-- After any steps the document is the text in the pane. The analyzer has been asked about the text
that the playground was opened on and then about each text that the pane changed to, each time once,
and about nothing else; so the analysis and the markers are what a document mounted once and told of
each change comes to. The pane reports an edit exactly when its text is another one. Each accepted run,
in order, has a worker whose events, sent or not, are those of the text that the pane showed when the
run was accepted. -/
theorem stays_in_step (source : Text) (settings : Settings) (f : Analyzer) (x : Executor)
    (ss : List Step) (v : Visit) (h : (opened source settings f x).steps ss = .ok v) :
    let mounted := (LiveDocument.ofSurface (Pane.ofText source settings.tabWidth) f .rhai).mount
    let told := v.changes.foldl LiveDocument.change mounted
    v.playground.editor.document = v.playground.pane.text ∧
    Playground.asked source settings f x ss = (.ok v.playground, source :: v.changes) ∧
    (∀ s p, v.playground.step s = .ok p → ∀ log,
      (v.playground.stepM .noting s).run.run log =
        (.ok p, log ++ if p.pane.text = v.playground.pane.text then [] else [p.pane.text])) ∧
    (∀ s p, v.playground.step s = .ok p → p.editor.analysis =
      if p.pane.text = v.playground.pane.text then v.playground.editor.analysis
      else (v.playground.editor.analysis.refresh p.pane.text).2) ∧
    (v.playground.editor.analysis = told.analysis ∧
      v.playground.pane.markers = told.surface.markers ∧
      told.analysis.issued = v.changes.length + 1) ∧
    (∀ e a q, v.playground.pane.react e = .ok (a, q) →
      (a = .edited ↔ q.text ≠ v.playground.pane.text)) ∧
    v.playground.workshop.workers.length = v.accepted.length ∧
    ∀ i run t, v.accepted[i]? = some (run, t) → run = i + 1 ∧
      ∃ k, v.playground.workshop.workers[i]? = some k ∧ k.run = run ∧
        v.sent.filter (·.run = run) ++ k.pending = (x run t).events run := by
  intro mounted told
  obtain ⟨⟨hv, hf⟩, hasked⟩ := (orderly_opened source settings f x).steps h
  refine ⟨hv.document, (Playground.asked_eq ..).trans (hasked [source]),
    fun s p hp => Playground.stepM_noting hv.anchored hp, fun s p => hv.analysis_step,
    ⟨hv.analysis, hv.markers, ?_⟩, fun e a q hq => ?_, hf.length, ?_⟩
  · have hmounted : mounted.analysis.issued = 1 := by
      show ((Playground.unread source settings f).change source).analysis.issued = 1
      rw [LiveDocument.analysis_change, Analysis.issued_refresh]
      rfl
    rw [LiveDocument.issued_foldl_change, hmounted, Nat.add_comm]
  · exact hv.anchored.edited_iff (Pane.change_react hq)
  · intro i run t ha
    have hi : i < v.playground.workshop.workers.length :=
      hf.length ▸ (List.getElem?_eq_some_iff.1 ha).1
    obtain ⟨hrun, hk, hevents⟩ := hf.worker ha (List.getElem?_eq_getElem hi)
    exact ⟨hrun, _, List.getElem?_eq_getElem hi, hk, hevents⟩

/-- The text is edited while a run of it goes on, with the cursor behind the last line for a time. -/
theorem stays_in_step_crlf :
    ∃ v, (opened ['\r'] {} (fun _ => .reports []) fun _ t => ⟨[t], .value []⟩).steps
        [.react true (.pressed .down), .react true (.pressed .enter), .startRun true,
          .react true (.pressed .backspace), .work 0] = .ok v ∧
      v.changes = [['\r', '\n'], ['\r']] ∧
      v.playground.editor.document = v.playground.pane.text ∧
      (Playground.asked ['\r'] {} (fun _ => .reports []) (fun _ t => ⟨[t], .value []⟩)
        [.react true (.pressed .down), .react true (.pressed .enter), .startRun true,
          .react true (.pressed .backspace), .work 0]).2 = [['\r'], ['\r', '\n'], ['\r']] ∧
      v.accepted = [(1, ['\r', '\n'])] ∧
      ∃ k, v.playground.workshop.workers[0]? = some k ∧ k.run = 1 ∧
        v.sent.filter (·.run = 1) ++ k.pending = [.output 1 ['\r', '\n'], .finished 1 (.value [])] := by
  have hbook : (fun v : Visit => (v.changes, v.accepted)) <$>
      (opened ['\r'] {} (fun _ => .reports []) fun _ t => ⟨[t], .value []⟩).steps
        [.react true (.pressed .down), .react true (.pressed .enter), .startRun true,
          .react true (.pressed .backspace), .work 0] =
      .ok ([['\r', '\n'], ['\r']], [(1, ['\r', '\n'])]) := by decide +kernel
  obtain ⟨v, hv, heq⟩ := exists_of_map_eq_ok hbook
  obtain ⟨hchanges, haccepted⟩ := Prod.mk.inj heq
  have hstays := stays_in_step _ _ _ _ _ v hv
  have hfirst : v.accepted[0]? = some (1, ['\r', '\n']) := by
    rw [haccepted]
    rfl
  have hasked := congrArg Prod.snd hstays.2.1
  rw [hchanges] at hasked
  exact ⟨v, hv, hchanges, hstays.1, hasked, haccepted, (hstays.2.2.2.2.2.2.2 _ _ _ hfirst).2⟩

end Visit

end ScriptPad
