import ScriptPad.Diagnostic.Marker
import ScriptPad.Highlight.Language
import ScriptPad.Run.Output

/-!
Colours for everything on the screen, and the two themes that come with the pad.
-/

namespace ScriptPad

structure Colour where
  red : UInt8
  green : UInt8
  blue : UInt8
  deriving DecidableEq, Repr

structure Theme where
  name : Text
  background : Colour
  foreground : Colour
  lineNumber : Colour
  activeLineNumber : Colour
  statusBackground : Colour
  statusForeground : Colour
  separator : Colour
  error : Colour
  warning : Colour
  outputPlain : Colour
  outputResult : Colour
  keyword : Colour
  predefined : Colour
  string : Colour
  number : Colour
  comment : Colour
  identifier : Colour
  deriving DecidableEq, Repr

namespace Theme

def ofWord (t : Theme) : WordKind → Colour
  | .comment => t.comment
  | .string => t.string
  | .keyword => t.keyword
  | .predefined => t.predefined
  | .number => t.number
  | .identifier => t.identifier
  | .plain => t.foreground

def ofSeverity (t : Theme) : Severity → Colour
  | .error => t.error
  | .warning => t.warning

def ofOutput (t : Theme) : LineKind → Colour
  | .plain => t.outputPlain
  | .result => t.outputResult
  | .error => t.error

def gruvboxDark : Theme where
  name := "gruvbox-dark".toList
  background := ⟨0x28, 0x28, 0x28⟩
  foreground := ⟨0xeb, 0xdb, 0xb2⟩
  lineNumber := ⟨0x7c, 0x6f, 0x64⟩
  activeLineNumber := ⟨0xfa, 0xbd, 0x2f⟩
  statusBackground := ⟨0x50, 0x49, 0x45⟩
  statusForeground := ⟨0xeb, 0xdb, 0xb2⟩
  separator := ⟨0x66, 0x5c, 0x54⟩
  error := ⟨0xfb, 0x49, 0x34⟩
  warning := ⟨0xfa, 0xbd, 0x2f⟩
  outputPlain := ⟨0xd5, 0xc4, 0xa1⟩
  outputResult := ⟨0xb8, 0xbb, 0x26⟩
  keyword := ⟨0xfb, 0x49, 0x34⟩
  predefined := ⟨0x8e, 0xc0, 0x7c⟩
  string := ⟨0xb8, 0xbb, 0x26⟩
  number := ⟨0xd3, 0x86, 0x9b⟩
  comment := ⟨0x92, 0x83, 0x74⟩
  identifier := ⟨0x83, 0xa5, 0x98⟩

def nord : Theme where
  name := "nord".toList
  background := ⟨0x2e, 0x34, 0x40⟩
  foreground := ⟨0xd8, 0xde, 0xe9⟩
  lineNumber := ⟨0x4c, 0x56, 0x6a⟩
  activeLineNumber := ⟨0x88, 0xc0, 0xd0⟩
  statusBackground := ⟨0x3b, 0x42, 0x52⟩
  statusForeground := ⟨0xe5, 0xe9, 0xf0⟩
  separator := ⟨0x43, 0x4c, 0x5e⟩
  error := ⟨0xbf, 0x61, 0x6a⟩
  warning := ⟨0xeb, 0xcb, 0x8b⟩
  outputPlain := ⟨0xe5, 0xe9, 0xf0⟩
  outputResult := ⟨0xa3, 0xbe, 0x8c⟩
  keyword := ⟨0x81, 0xa1, 0xc1⟩
  predefined := ⟨0x88, 0xc0, 0xd0⟩
  string := ⟨0xa3, 0xbe, 0x8c⟩
  number := ⟨0xb4, 0x8e, 0xad⟩
  comment := ⟨0x61, 0x6e, 0x88⟩
  identifier := ⟨0xd8, 0xde, 0xe9⟩

/-- The themes that come with the pad; the first is the one used when none fits. -/
def builtin : List Theme := [gruvboxDark, nord]

def names : List Text := builtin.map (·.name)

/-- The theme of a name, spelled exactly. -/
def find? (name : Text) : Option Theme := builtin.find? (·.name == name)

/-- The theme of a name, or the first one. -/
def named (name : Text) : Theme := (find? name).getD gruvboxDark

end Theme

end ScriptPad
