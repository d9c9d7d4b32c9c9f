import ScriptPad.Text.Line

/-!
What a run has printed. A line is shown as an error or a result by how it begins, whoever printed
it; the last line of a finished run is always of one of these two classes.
-/

namespace ScriptPad

inductive LineKind
  | plain
  | result
  | error
  deriving DecidableEq, Repr

namespace LineKind

/-- How an error line begins. -/
def errorMark : Text := "Error:".toList

/-- How a result line begins: with an empty row before it. -/
def resultMark : Text := "\nResult:".toList

def classify (line : Text) : LineKind :=
  if errorMark.isPrefixOf line then .error
  else if resultMark.isPrefixOf line then .result
  else .plain

end LineKind

/-- The lines printed by a run, in order. A line may hold LF and then takes several rows. -/
structure Output where
  printed : Array Text := #[]
  deriving DecidableEq, Repr

namespace Output

def lines (o : Output) : List Text := o.printed.toList

def push (o : Output) (line : Text) : Output := ⟨o.printed.push line⟩

def clear (_ : Output) : Output := {}

def length (o : Output) : Nat := o.printed.size

def isEmpty (o : Output) : Bool := o.printed.isEmpty

def classified (o : Output) : List (LineKind × Text) :=
  o.lines.map fun l => (LineKind.classify l, l)

/-- Whether the last line reports a failure. -/
def endsWithError (o : Output) : Bool :=
  o.lines.getLast?.any fun l => LineKind.classify l == .error

/-- The screen rows of the output, each with the class of the line it comes from. -/
def rows (o : Output) : List (LineKind × Text) :=
  o.classified.flatMap fun (kind, line) => (line.splitAt '\n').map (kind, ·)

theorem ext_lines {o o' : Output} (h : o.lines = o'.lines) : o = o' := by
  cases o; cases o'
  exact congrArg _ (Array.toList_inj.1 h)

@[simp] theorem lines_empty : ({} : Output).lines = [] := rfl

@[simp] theorem lines_push (o : Output) (l : Text) : (o.push l).lines = o.lines ++ [l] := by
  simp [lines, push]

@[simp] theorem length_lines (o : Output) : o.lines.length = o.length := rfl

@[simp] theorem lines_clear (o : Output) : o.clear.lines = [] := rfl

@[simp] theorem endsWithError_push (o : Output) (l : Text) :
    (o.push l).endsWithError = (LineKind.classify l == .error) := by
  simp [endsWithError]

end Output

end ScriptPad
