import ScriptPad.Text.Line

/-!
The text being edited, addressed by line and column. A position is the start of a line plus a
column, and the column may run past the end of its line into later ones. Access outside the text is
an error that names what was asked for; deleting at the end of the text is not an error and deletes
nothing.
-/

namespace ScriptPad

/-- A line or a character position that a text does not have. -/
inductive OutOfRange
  | line (index : Nat)
  | position (index : Nat)
  deriving DecidableEq, Repr

structure Buffer where
  text : Text := []
  deriving DecidableEq, Repr

namespace Buffer

def lineCount (b : Buffer) : Nat := b.text.lineCount

/-- Line `i` with the characters that end it. -/
def line (b : Buffer) (i : Nat) : Except OutOfRange Text :=
  match b.text.lines[i]? with
  | some l => .ok l
  | none => .error (.line i)

/-- The length of line `i`, not counting a final LF. -/
def lineLength (b : Buffer) (i : Nat) : Except OutOfRange Nat :=
  (b.line i).map fun l => l.dropFinalNewline.length

/-- The character position of a line and column. The line after the last is the end of the text. -/
def offset (b : Buffer) (line col : Nat) : Except OutOfRange Nat :=
  if line ≤ b.lineCount then .ok (b.text.lineStart line + col) else .error (.line line)

/-- Inserts `s` before the character at position `i`. -/
def insertAt (b : Buffer) (i : Nat) (s : Text) : Except OutOfRange Buffer :=
  if i ≤ b.text.length then .ok ⟨b.text.take i ++ s ++ b.text.drop i⟩ else .error (.position i)

/-- Removes the character at position `i`. -/
def eraseAt (b : Buffer) (i : Nat) : Except OutOfRange Buffer :=
  if i < b.text.length then .ok ⟨b.text.eraseIdx i⟩ else .error (.position i)

/-- Inserts a text at a line and column. -/
def insert (b : Buffer) (line col : Nat) (s : Text) : Except OutOfRange Buffer := do
  let i ← b.offset line col
  b.insertAt i s

/-- Removes the character at a line and column, joining lines at a line end; says whether there was
one. -/
def deleteForward (b : Buffer) (line col : Nat) : Except OutOfRange (Bool × Buffer) := do
  let i ← b.offset line col
  if i < b.text.length then (true, ·) <$> b.eraseAt i else pure (false, b)

/-- Removes the character before a line and column; says whether there was one. -/
def deleteBackward (b : Buffer) (line col : Nat) : Except OutOfRange (Bool × Buffer) := do
  let i ← b.offset line col
  if 0 < i then (true, ·) <$> b.eraseAt (i - 1) else pure (false, b)

theorem lineCount_pos (b : Buffer) : 0 < b.lineCount := Text.lineCount_pos b.text

theorem line_eq_ok_iff {b : Buffer} {i : Nat} {l : Text} :
    b.line i = .ok l ↔ b.text.lines[i]? = some l := by
  unfold line
  split <;> simp_all

theorem insertAt_of_le {b : Buffer} {i : Nat} (h : i ≤ b.text.length) (s : Text) :
    b.insertAt i s = .ok ⟨b.text.take i ++ s ++ b.text.drop i⟩ := by
  simp [insertAt, h]

theorem eraseAt_of_lt {b : Buffer} {i : Nat} (h : i < b.text.length) :
    b.eraseAt i = .ok ⟨b.text.eraseIdx i⟩ := by
  simp [eraseAt, h]

end Buffer

end ScriptPad
