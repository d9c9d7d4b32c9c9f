import ScriptPad.Text.Line

/-!
What an analyzer reports about a source and how the editor shows it. A report carries a numeric
code; code one is an error and every other code a warning. A marker is the report laid over its
whole line.
-/

namespace ScriptPad

inductive Severity
  | error
  | warning
  deriving DecidableEq, Repr

namespace Severity

/-- Code one is an error; every other code is a warning. -/
def ofCode (code : Int) : Severity := if code = 1 then .error else .warning

/-- The letter shown in the gutter. -/
def sign : Severity → Char
  | .error => 'E'
  | .warning => 'W'

theorem ofCode_eq_error_iff {code : Int} : ofCode code = .error ↔ code = 1 := by
  unfold ofCode; split <;> simp_all

end Severity

/-- One finding as the analyzer states it; lines count from one. -/
structure Report where
  line : Nat
  message : Text
  code : Int
  deriving DecidableEq, Repr

/-- One finding with its code read as a severity. -/
structure Diagnostic where
  line : Nat
  message : Text
  severity : Severity
  deriving DecidableEq, Repr

def Report.diagnostic (r : Report) : Diagnostic := ⟨r.line, r.message, .ofCode r.code⟩

/-- A finding laid over a range of lines; lines and columns count from one. -/
structure Marker where
  startLine : Nat
  endLine : Nat
  startColumn : Nat
  endColumn : Nat
  message : Text
  severity : Severity
  deriving DecidableEq, Repr

/-- The last column of every marker, past the end of any line that fits a screen. -/
def Marker.lastColumn : Nat := 1000

def Diagnostic.marker (d : Diagnostic) : Marker :=
  ⟨d.line, d.line, 1, Marker.lastColumn, d.message, d.severity⟩

namespace Marker

/-- Whether the marker lies over line `n`, counted from one. -/
def covers (m : Marker) (n : Nat) : Bool := m.startLine ≤ n && n ≤ m.endLine

@[simp] theorem covers_iff {m : Marker} {n : Nat} :
    m.covers n = true ↔ m.startLine ≤ n ∧ n ≤ m.endLine := by
  simp [covers]

theorem covers_marker {d : Diagnostic} {n : Nat} : d.marker.covers n = true ↔ d.line = n := by
  rw [covers_iff, Nat.le_antisymm_iff]
  rfl

/-- The markers over line `n` in one pass: the first if it is an error, or else the first error after
it, or else the first. -/
def mostSevere? (ms : List Marker) (n : Nat) : Option Marker :=
  match ms.filter (·.covers n) with
  | [] => none
  | first :: rest =>
    if first.severity = .error then some first
    else some ((rest.find? (·.severity == .error)).getD first)

/-- So it is the first error over the line, or else the first marker over it. -/
theorem mostSevere?_eq (ms : List Marker) (n : Nat) :
    mostSevere? ms n =
      (ms.find? fun m => m.covers n && m.severity == .error).or (ms.find? (·.covers n)) := by
  have herror : (ms.filter (·.covers n)).find? (·.severity == .error) =
      ms.find? fun m => m.covers n && m.severity == .error := by
    simp only [List.find?_filter, Bool.decide_and, Bool.decide_eq_true]
  have hany : (ms.filter (·.covers n)).head? = ms.find? (·.covers n) := List.head?_filter
  rw [← herror, ← hany, mostSevere?]
  cases ms.filter (·.covers n) with
  | nil => rfl
  | cons first rest =>
      by_cases hfirst : first.severity = .error
      · simp [hfirst]
      · cases hrest : rest.find? (·.severity == .error) <;> simp [hfirst, hrest]

theorem mem_of_mostSevere? {ms : List Marker} {n : Nat} {m : Marker}
    (h : mostSevere? ms n = some m) : m ∈ ms := by
  rw [mostSevere?_eq] at h
  rcases Option.or_eq_some_iff.1 h with herror | ⟨-, hany⟩
  · exact List.mem_of_find?_eq_some herror
  · exact List.mem_of_find?_eq_some hany

/-- How many markers have a severity. -/
def countOf (s : Severity) (ms : List Marker) : Nat := ms.countP (·.severity == s)

end Marker

end ScriptPad
