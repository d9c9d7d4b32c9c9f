import ScriptPad.Text.Line

/-!
The quoted form of a text: between double quotes, with a backslash before quotes and backslashes
and letters for the usual control characters.
-/

namespace ScriptPad.Text

/-- A hexadecimal number in lower-case digits. -/
def hex (n : Nat) : Text := Nat.toDigits 16 n

/-- One character between the given quotes. -/
def escapeIn (quote c : Char) : Text :=
  if c = quote ∨ c = '\\' then ['\\', c]
  else if c = '\n' then ['\\', 'n']
  else if c = '\r' then ['\\', 'r']
  else if c = '\t' then ['\\', 't']
  else if c = '\x00' then ['\\', '0']
  else if c.toNat < 32 ∨ c.toNat = 127 then
    '\\' :: 'u' :: '\x7b' :: hex c.toNat ++ ['\x7d']
  else [c]

/-- A text between double quotes. -/
def quoted (t : Text) : Text := '"' :: t.flatMap (escapeIn '"') ++ ['"']

/-- A character between single quotes. -/
def quotedChar (c : Char) : Text := '\'' :: escapeIn '\'' c ++ ['\'']

end ScriptPad.Text
