import ScriptPad.Text.Line

/-!
Places in a script. Lines and columns count from one; only LF starts a new line.
-/

namespace ScriptPad.Script

structure Position where
  line : Nat := 1
  column : Nat := 1
  deriving DecidableEq, Repr

namespace Position

/-- The place after a character. -/
def next (p : Position) (c : Char) : Position :=
  if c = '\n' then ⟨p.line + 1, 1⟩ else ⟨p.line, p.column + 1⟩

/-- The place after a text. -/
def after (p : Position) (t : Text) : Position := t.foldl next p

/-- How an error message names a place. -/
def render (p : Position) : Text :=
  " (line ".toList ++ Text.ofNat p.line ++ ", position ".toList ++ Text.ofNat p.column ++ [')']

end Position

end ScriptPad.Script
