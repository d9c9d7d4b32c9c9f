import ScriptPad.Diagnostic.Marker
import ScriptPad.Document.Buffer
import ScriptPad.Highlight.Token

/-!
The editing widget: a buffer, the cursor in it, the first line in view, the markers over its lines
and the language it is coloured in. Movement and editing follow the cursor; each edit says whether
the text changed.
-/

namespace ScriptPad

/-- A place in a text by line and column, counted from zero. -/
structure Cursor where
  line : Nat := 0
  col : Nat := 0
  deriving DecidableEq, Repr

namespace Cursor

def left (c : Cursor) : Cursor := { c with col := c.col - 1 }

/-- One column on, at most to the end of a line of the given length. -/
def right (c : Cursor) (lineLength : Nat) : Cursor := { c with col := min (c.col + 1) lineLength }

def up (c : Cursor) : Cursor := { c with line := c.line - 1 }

/-- One line on, at most to the last of the given number of lines. -/
def down (c : Cursor) (lineCount : Nat) : Cursor :=
  { c with line := min (c.line + 1) (lineCount - 1) }

/-- Keeps the column inside a line of the given length. -/
def keepInLine (c : Cursor) (lineLength : Nat) : Cursor := { c with col := min c.col lineLength }

end Cursor

structure Pane where
  buffer : Buffer
  cursor : Cursor := {}
  /-- The first line in view. -/
  scroll : Nat := 0
  markers : List Marker := []
  language : Option Language := none
  tabWidth : Nat
  tabWidth_pos : 0 < tabWidth

namespace Pane

/-- A pane on a text. A tab is at least one column wide. -/
def ofText (text : Text) (tabWidth : Nat) : Pane where
  buffer := ⟨text⟩
  tabWidth := max tabWidth 1
  tabWidth_pos := by omega

def text (p : Pane) : Text := p.buffer.text

/-- Moves the view just as far as it takes to have the cursor line among `height` lines. -/
def scrollToCursor (p : Pane) (height : Nat) : Pane :=
  let scroll := min p.scroll p.cursor.line
  if 0 < height ∧ scroll + height ≤ p.cursor.line then
    { p with scroll := p.cursor.line + 1 - height }
  else { p with scroll := scroll }

/-- The marker shown for line `i`, counted from zero. -/
def marker? (p : Pane) (i : Nat) : Option Marker := Marker.mostSevere? p.markers (i + 1)

def errorCount (p : Pane) : Nat := Marker.countOf .error p.markers

def warningCount (p : Pane) : Nat := Marker.countOf .warning p.markers

/-- The coloured words of a line; none until a language is registered. -/
def tokens (p : Pane) (line : Text) : List Token := (p.language.map (·.tokens line)).getD []

/-- The coloured stretches of a line; none until a language is registered. -/
def pieces (p : Pane) (line : Text) : List Piece := (p.language.map (·.pieces line)).getD []

def withLanguage (p : Pane) (l : Language) : Pane := { p with language := some l }

def withMarkers (p : Pane) (ms : List Marker) : Pane := { p with markers := ms }

/-! ### Movement -/

/-- The length of the line the cursor is on. -/
def cursorLineLength (p : Pane) : Except OutOfRange Nat := p.buffer.lineLength p.cursor.line

def keepCursorInLine (p : Pane) : Except OutOfRange Pane := do
  let n ← p.cursorLineLength
  pure { p with cursor := p.cursor.keepInLine n }

def goLeft (p : Pane) : Pane := { p with cursor := p.cursor.left }

def goRight (p : Pane) : Except OutOfRange Pane := do
  let n ← p.cursorLineLength
  pure { p with cursor := p.cursor.right n }

def goUp (p : Pane) : Except OutOfRange Pane := keepCursorInLine { p with cursor := p.cursor.up }

def goDown (p : Pane) : Except OutOfRange Pane :=
  keepCursorInLine { p with cursor := p.cursor.down p.buffer.lineCount }

def goToLineStart (p : Pane) : Pane := { p with cursor.col := 0 }

def goToLineEnd (p : Pane) : Except OutOfRange Pane := do
  let n ← p.cursorLineLength
  pure { p with cursor.col := n }

/-! ### Editing -/

/-- Inserts a text that stays on the line and puts the cursor after it. -/
def insertInLine (p : Pane) (s : Text) : Except OutOfRange (Bool × Pane) := do
  let b ← p.buffer.insert p.cursor.line p.cursor.col s
  pure (true, { p with buffer := b, cursor.col := p.cursor.col + s.length })

def typeChar (p : Pane) (c : Char) : Except OutOfRange (Bool × Pane) := p.insertInLine [c]

/-- A tab is typed as spaces. -/
def indent (p : Pane) : Except OutOfRange (Bool × Pane) :=
  p.insertInLine (List.replicate p.tabWidth ' ')

def breakLine (p : Pane) : Except OutOfRange (Bool × Pane) := do
  let b ← p.buffer.insert p.cursor.line p.cursor.col ['\n']
  pure (true, { p with buffer := b, cursor := ⟨p.cursor.line + 1, 0⟩ })

/-- Removes the character before the cursor; at the start of a line, joins it to the line before. -/
def deleteBackward (p : Pane) : Except OutOfRange (Bool × Pane) :=
  if 0 < p.cursor.col then do
    let (_, b) ← p.buffer.deleteBackward p.cursor.line p.cursor.col
    pure (true, { p with buffer := b, cursor.col := p.cursor.col - 1 })
  else if 0 < p.cursor.line then do
    let n ← p.buffer.lineLength (p.cursor.line - 1)
    let (_, b) ← p.buffer.deleteBackward p.cursor.line 0
    pure (true, { p with buffer := b, cursor := ⟨p.cursor.line - 1, n⟩ })
  else pure (false, p)

/-- Removes the character at the cursor. -/
def deleteForward (p : Pane) : Except OutOfRange (Bool × Pane) := do
  let (changed, b) ← p.buffer.deleteForward p.cursor.line p.cursor.col
  pure (changed, { p with buffer := b })

@[simp] theorem text_ofText (t : Text) (w : Nat) : (ofText t w).text = t := rfl

@[simp] theorem text_scrollToCursor (p : Pane) (h : Nat) : (p.scrollToCursor h).text = p.text := by
  unfold scrollToCursor; dsimp only; split <;> rfl

@[simp] theorem cursor_scrollToCursor (p : Pane) (h : Nat) :
    (p.scrollToCursor h).cursor = p.cursor := by
  unfold scrollToCursor; dsimp only; split <;> rfl

@[simp] theorem markers_scrollToCursor (p : Pane) (h : Nat) :
    (p.scrollToCursor h).markers = p.markers := by
  unfold scrollToCursor; dsimp only; split <;> rfl

@[simp] theorem text_withLanguage (p : Pane) (l : Language) :
    (p.withLanguage l).text = p.text := rfl

@[simp] theorem text_withMarkers (p : Pane) (ms : List Marker) : (p.withMarkers ms).text = p.text := rfl

end Pane

end ScriptPad
