import ScriptPad.Diagnostic.Marker

/-!
Asking an analyzer about a source and deciding which answers reach the editor. Each request takes a
ticket, and tickets grow. An answer is shown only if it succeeded and no newer one has been shown
before it; a failure leaves everything as it was.

What asks an analyzer is written for any way of asking (`attemptM` and so on), so that it can be watched.
The program asks plainly.
-/

namespace ScriptPad

/-- What an analyzer makes of one source. A crash may carry a message. -/
inductive AnalysisAnswer
  | reports (rs : List Report)
  | unavailable (reason : Text)
  | crash (message : Option Text)
  deriving DecidableEq, Repr

abbrev Analyzer := Text → AnalysisAnswer

/-- A way of asking analyzers. -/
abbrev Asking (m : Type → Type) := Analyzer → Text → m AnalysisAnswer

/-- Just asking. -/
def Asking.plain : Asking Id := fun f source => pure (f source)

/-- Why there are no diagnostics. -/
inductive AnalysisError
  | unavailable (reason : Text)
  | crashed (message : Text)
  deriving DecidableEq, Repr

namespace AnalysisError

def message : AnalysisError → Text
  | .unavailable reason => "analyzer unavailable: ".toList ++ reason
  | .crashed m => "analyzer panicked: ".toList ++ m

end AnalysisError

/-- The diagnostics of an answer; a crash without a message is reported as unknown. -/
def AnalysisAnswer.diagnostics : AnalysisAnswer → Except AnalysisError (List Diagnostic)
  | .reports rs => .ok (rs.map Report.diagnostic)
  | .unavailable reason => .error (.unavailable reason)
  | .crash m => .error (.crashed (m.getD "unknown panic".toList))

/-- The number of a request. -/
structure Ticket where
  number : Nat
  deriving DecidableEq, Repr

structure Analysis where
  analyzer : Analyzer
  /-- The last ticket given out. -/
  issued : Nat := 0
  /-- The ticket of the newest answer shown. -/
  applied : Nat := 0

namespace Analysis

variable {m : Type → Type} [Monad m]

/-- The diagnostics of a source, or why there are none. -/
def attemptM (a : Analysis) (ask : Asking m) (source : Text) :
    m (Except AnalysisError (List Diagnostic)) := do
  let answer ← ask a.analyzer source
  pure answer.diagnostics

def attempt (a : Analysis) (source : Text) : Except AnalysisError (List Diagnostic) :=
  (a.attemptM .plain source).run

/-- The diagnostics of a source; none if the analyzer fails. -/
def analyze (a : Analysis) (source : Text) : List Diagnostic :=
  match a.attempt source with
  | .ok ds => ds
  | .error _ => []

/-- Gives out the next ticket. -/
def issue (a : Analysis) : Ticket × Analysis :=
  (⟨a.issued + 1⟩, { a with issued := a.issued + 1 })

/-- Takes the answer to a request. The markers to show, unless it failed or a newer answer has been
shown. -/
def complete (a : Analysis) (ticket : Ticket) (answer : Except AnalysisError (List Diagnostic)) :
    Option (List Marker) × Analysis :=
  match answer with
  | .error _ => (none, a)
  | .ok ds =>
    if ticket.number ≤ a.applied then (none, a)
    else (some (ds.map Diagnostic.marker), { a with applied := ticket.number })

/-- Analyzes a source and takes the answer at once. -/
def refreshM (a : Analysis) (ask : Asking m) (source : Text) :
    m (Option (List Marker) × Analysis) := do
  let (ticket, a') := a.issue
  let answer ← a.attemptM ask source
  pure (a'.complete ticket answer)

def refresh (a : Analysis) (source : Text) : Option (List Marker) × Analysis :=
  (a.refreshM .plain source).run

theorem attempt_eq (a : Analysis) (source : Text) :
    a.attempt source = (a.analyzer source).diagnostics := rfl

theorem refresh_eq (a : Analysis) (source : Text) :
    a.refresh source = a.issue.2.complete a.issue.1 (a.attempt source) := rfl

theorem attempt_of_reports {a : Analysis} {source : Text} {rs : List Report}
    (h : a.analyzer source = .reports rs) : a.attempt source = .ok (rs.map Report.diagnostic) := by
  rw [attempt_eq, h]
  rfl

theorem exists_attempt_eq_error {a : Analysis} {source : Text}
    (h : ∀ rs, a.analyzer source ≠ .reports rs) : ∃ e, a.attempt source = .error e := by
  rw [attempt_eq]
  cases hanswer : a.analyzer source with
  | reports rs => exact absurd hanswer (h rs)
  | unavailable reason => exact ⟨_, rfl⟩
  | crash message => exact ⟨_, rfl⟩

@[simp] theorem complete_error (a : Analysis) (t : Ticket) (e : AnalysisError) :
    a.complete t (.error e) = (none, a) := rfl

@[simp] theorem analyzer_complete (a : Analysis) (t : Ticket)
    (r : Except AnalysisError (List Diagnostic)) : (a.complete t r).2.analyzer = a.analyzer := by
  unfold complete; split
  · rfl
  · split <;> rfl

@[simp] theorem issued_complete (a : Analysis) (t : Ticket)
    (r : Except AnalysisError (List Diagnostic)) : (a.complete t r).2.issued = a.issued := by
  unfold complete; split
  · rfl
  · split <;> rfl

@[simp] theorem issued_refresh (a : Analysis) (source : Text) :
    (a.refresh source).2.issued = a.issued + 1 := by
  simp [refresh_eq, issue]

theorem analyzer_refresh (a : Analysis) (source : Text) :
    (a.refresh source).2.analyzer = a.analyzer :=
  a.issue.2.analyzer_complete ..

theorem refresh_of_ok {a : Analysis} (h : a.applied ≤ a.issued) {source : Text}
    {ds : List Diagnostic} (hds : a.attempt source = .ok ds) :
    a.refresh source = (some (ds.map Diagnostic.marker),
      { a with issued := a.issued + 1, applied := a.issued + 1 }) := by
  have hlt : ¬ a.issued + 1 ≤ a.applied := by omega
  simp [refresh_eq, issue, complete, hds, hlt]

theorem refresh_of_error {a : Analysis} {source : Text} {e : AnalysisError}
    (he : a.attempt source = .error e) : a.refresh source = (none, a.issue.2) := by
  simp [refresh_eq, issue, he]

theorem applied_le_issued_refresh {a : Analysis} (h : a.applied ≤ a.issued) (source : Text) :
    (a.refresh source).2.applied ≤ (a.refresh source).2.issued := by
  cases hds : a.attempt source with
  | ok ds => simp [refresh_of_ok h hds]
  | error e =>
      rw [refresh_of_error hds]
      exact Nat.le_succ_of_le h

/-- The analysis with the analyzer as it has become; it may answer otherwise than before. -/
def through (a : Analysis) (f : Analyzer) : Analysis := { a with analyzer := f }

end Analysis

end ScriptPad
