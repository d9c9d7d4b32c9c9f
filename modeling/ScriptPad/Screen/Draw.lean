import ScriptPad.Theme

/-!
The commands a screen is drawn with, and the escape sequences they are sent as. Columns and rows
count from zero in a command and from one on the wire.
-/

namespace ScriptPad

inductive Draw
  | moveTo (col row : UInt16)
  | foreground (c : Colour)
  | background (c : Colour)
  | print (t : Text)
  | bold
  | resetStyle
  | hideCursor
  | showCursor
  | steadyBar
  deriving DecidableEq, Repr

namespace Draw

/-- An escape sequence with the usual introducer. -/
def escape (body : Text) : Text := '\x1b' :: '[' :: body

/-- The three parts of a colour, set apart by semicolons. -/
def colourParts (c : Colour) : Text :=
  Text.ofNat c.red.toNat ++ ';' :: Text.ofNat c.green.toNat ++ ';' :: Text.ofNat c.blue.toNat

def encode : Draw → Text
  | moveTo col row =>
    escape (Text.ofNat (row.toNat + 1) ++ ';' :: Text.ofNat (col.toNat + 1) ++ ['H'])
  | foreground c => escape ("38;2;".toList ++ colourParts c ++ ['m'])
  | background c => escape ("48;2;".toList ++ colourParts c ++ ['m'])
  | print t => t
  | bold => escape "1m".toList
  | resetStyle => escape "0m".toList
  | hideCursor => escape "?25l".toList
  | showCursor => escape "?25h".toList
  | steadyBar => escape "6 q".toList

/-- Everything that is sent for a list of commands. -/
def encodeAll (ds : List Draw) : Text := ds.flatMap encode

/-- What is sent when the pad takes over the terminal. -/
def enter : Text := ["?1049h", "?7l", "?25l", "2J"].flatMap fun s => escape s.toList

/-- What is sent when the pad gives the terminal back. -/
def leave : Text := ["0 q", "?25h", "?7h", "?1049l"].flatMap fun s => escape s.toList

end Draw

end ScriptPad
