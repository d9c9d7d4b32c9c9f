import ScriptPad.Playground
import ScriptPad.Screen.Draw
import ScriptPad.Screen.Layout

/-!
Drawing a playground on a screen. A frame repaints every row: the editor with its gutter, the
separator with the run state, the last rows of the output, and the status line. Texts are clipped
and filled up by characters, one cell for each.
-/

namespace ScriptPad

structure Screen where
  width : UInt16
  height : UInt16
  deriving DecidableEq, Repr

namespace Screen

def layout (s : Screen) (p : Playground) : Layout := .ofHeight s.height p.settings.outputHeight

/-- The rows that the editor has on this screen. -/
def editorRows (s : Screen) (p : Playground) : Nat := (s.layout p).editorHeight.toNat

/-- The columns before the text: a sign, a line number if wanted, and a space. -/
def gutter (lineNumbers : Bool) : UInt16 := if lineNumbers then 6 else 2

/-- `n` spaces. -/
def blank (n : Nat) : Text := List.replicate n ' '

/-! ### The editor -/

/-- A row below the last line. -/
def drawFiller (theme : Theme) (width : Nat) : List Draw :=
  [.foreground theme.lineNumber, .print (Text.padRight width ['~'])]

def drawSign (theme : Theme) : Option Marker → List Draw
  | some m => [.foreground (theme.ofSeverity m.severity), .print [m.severity.sign]]
  | none => [.print [' ']]

def drawLineNumber (theme : Theme) (active : Bool) (n : Nat) : List Draw :=
  [.foreground (if active then theme.activeLineNumber else theme.lineNumber),
    .print (Text.padLeft 4 (Text.ofNat n))]

/-- A tab is shown as one space. -/
def showTab (c : Char) : Char := if c = '\t' then ' ' else c

/-- The pieces of a line in their colours until the row is full, then spaces. -/
def drawPieces (theme : Theme) : Nat → List Piece → List Draw
  | 0, _ => [.print []]
  | remaining, [] => [.print (blank remaining)]
  | remaining, piece :: rest =>
    let shown := (piece.text.map showTab).take remaining
    .foreground (theme.ofWord piece.kind) :: .print shown ::
      drawPieces theme (remaining - shown.length) rest

/-- The text of a line on a row of the given width. An empty line, or one without a language, is
shown as it is. -/
def drawContent (theme : Theme) (width : Nat) (pieces : List Piece) (content : Text) : List Draw :=
  if pieces = [] then
    let shown := content.take width
    [.foreground theme.foreground, .print shown, .print (blank (width - shown.length))]
  else drawPieces theme width pieces

/-- One row of the editor, the first one being row zero. -/
def drawEditorRow (s : Screen) (p : Playground) (row : Nat) : List Draw :=
  let i := row + p.pane.scroll
  let start : List Draw := [.moveTo 0 (UInt16.ofNat row), .background p.theme.background]
  match p.pane.buffer.text.lines[i]? with
  | none => start ++ drawFiller p.theme s.width.toNat
  | some line =>
    let content := line.trimLineEnd
    let width := (Layout.monus s.width (gutter p.settings.showLineNumbers)).toNat
    start ++ drawSign p.theme (p.pane.marker? i) ++
      (if p.settings.showLineNumbers then
        drawLineNumber p.theme (i = p.pane.cursor.line) (i + 1) else []) ++
      [.print [' ']] ++ drawContent p.theme width (p.pane.pieces content) content

def drawEditor (s : Screen) (p : Playground) : List Draw :=
  (List.range (s.editorRows p)).flatMap (s.drawEditorRow p)

/-! ### Below the editor -/

def drawSeparator (s : Screen) (p : Playground) : List Draw :=
  let title := "── Output [".toList ++ p.runState.label ++ "] ".toList
  [.moveTo 0 (s.layout p).separatorRow, .background p.theme.background,
    .foreground p.theme.separator, .print title,
    .print (List.replicate (s.width.toNat - title.length) '─')]

def drawOutputRow (theme : Theme) (width : Nat) : Option (LineKind × Text) → List Draw
  | some (kind, text) =>
    let shown := text.take width
    [.foreground (theme.ofOutput kind), .print shown, .print (blank (width - shown.length))]
  | none => [.print (blank width)]

/-- The last rows of the output, as many as there is room for. -/
def drawOutput (s : Screen) (p : Playground) : List Draw :=
  let layout := s.layout p
  let rows := p.output.rows
  let skip := rows.length - layout.outputHeight.toNat
  (List.range layout.outputHeight.toNat).flatMap fun row =>
    [.moveTo 0 (layout.outputTop + UInt16.ofNat row), .background p.theme.background] ++
      drawOutputRow p.theme s.width.toNat rows[skip + row]?

/-- The keys named at the right end of the status line. -/
def keyHelp : Text := "Ctrl-R run  Ctrl-Q quit ".toList

/-- What the status line is about: the message, or else the marker of the cursor line. -/
def statusDetail (p : Playground) : Text :=
  (p.message.or ((p.pane.marker? p.pane.cursor.line).map (·.message))).getD []

def statusLeft (p : Playground) : Text :=
  let language := ((p.pane.language.map (·.name)).getD "text".toList).map Char.toUpper
  ' ' :: language ++ " | ".toList ++ p.runState.label ++ " | ".toList ++
    Text.ofNat p.pane.errorCount ++ " error(s) ".toList ++ Text.ofNat p.pane.warningCount ++
    " warning(s) | ".toList ++ statusDetail p

/-- The status line on a row of the given width. -/
def statusLine (p : Playground) (width : Nat) : Text :=
  let room := width - keyHelp.length
  (Text.padRight room ((statusLeft p).take room) ++ keyHelp).take width

def drawStatus (s : Screen) (p : Playground) : List Draw :=
  [.moveTo 0 (s.layout p).statusRow, .background p.theme.statusBackground,
    .foreground p.theme.statusForeground, .bold, .print (statusLine p s.width.toNat), .resetStyle]

/-! ### The whole frame -/

/-- Where the terminal cursor goes: over the cursor of the pane, or the last column. -/
def cursorCell (s : Screen) (p : Playground) : UInt16 × UInt16 :=
  let col := (gutter p.settings.showLineNumbers).toNat + p.pane.cursor.col
  (UInt16.ofNat (min col (Layout.monus s.width 1).toNat),
    UInt16.ofNat (p.pane.cursor.line - p.pane.scroll))

def frame (s : Screen) (p : Playground) : List Draw :=
  let (col, row) := s.cursorCell p
  [.hideCursor, .background p.theme.background] ++ s.drawEditor p ++ s.drawSeparator p ++
    s.drawOutput p ++ s.drawStatus p ++ [.moveTo col row, .steadyBar, .showCursor]

end Screen

end ScriptPad
