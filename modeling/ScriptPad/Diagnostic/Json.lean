import ScriptPad.Diagnostic.Marker
import ScriptPad.Text.Quoted

/-!
Markers as JSON: a list with one field a line, indented by two columns a level.
-/

namespace ScriptPad

namespace Marker

/-- A character inside a JSON string. -/
def jsonChar (c : Char) : Text :=
  if c = '"' ∨ c = '\\' then ['\\', c]
  else if c = '\n' then ['\\', 'n']
  else if c = '\r' then ['\\', 'r']
  else if c = '\t' then ['\\', 't']
  else if c = '\x08' then ['\\', 'b']
  else if c = '\x0c' then ['\\', 'f']
  else if c.toNat < 32 then
    "\\u".toList ++ List.replicate (4 - (Text.hex c.toNat).length) '0' ++ Text.hex c.toNat
  else [c]

def jsonString (t : Text) : Text := '"' :: t.flatMap jsonChar ++ ['"']

def severityName : Severity → Text
  | .error => "Error".toList
  | .warning => "Warning".toList

/-- The fields of a marker and their values, in order. -/
def jsonFields (m : Marker) : List (Text × Text) :=
  [("startLine".toList, Text.ofNat m.startLine), ("endLine".toList, Text.ofNat m.endLine),
    ("startColumn".toList, Text.ofNat m.startColumn), ("endColumn".toList, Text.ofNat m.endColumn),
    ("message".toList, jsonString m.message),
    ("severity".toList, jsonString (severityName m.severity))]

/-- Lines with a comma after each but the last. -/
def withCommas : List Text → List Text
  | [] => []
  | [l] => [l]
  | l :: ls => (l ++ [',']) :: withCommas ls

/-- Items between brackets, each on lines of its own. -/
def bracketed (opening closing : Char) (items : List Text) : Text :=
  opening :: '\n' :: (withCommas items).flatMap (· ++ ['\n']) ++ [closing]

/-- A marker, as an item of a list. -/
def json (m : Marker) : Text :=
  "  \x7b\n".toList ++
    (withCommas (m.jsonFields.map fun (k, v) =>
      "    ".toList ++ jsonString k ++ ": ".toList ++ v)).flatMap
      (· ++ ['\n']) ++
    "  \x7d".toList

/-- A list of markers, one field a line. -/
def jsonList (ms : List Marker) : Text :=
  if ms = [] then "[]".toList else bracketed '[' ']' (ms.map json)

end Marker

end ScriptPad
