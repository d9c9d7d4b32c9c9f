import ScriptPad.Highlight.Pattern

/-!
Languages for colouring: a name, the file extensions and an ordered table of word patterns, of
which the first that matches decides. The one language of the pad is `Language.rhai`.
-/

namespace ScriptPad

/-- What a word of a line is coloured as. -/
inductive WordKind
  | comment
  | string
  | keyword
  | predefined
  | number
  | identifier
  | plain
  deriving DecidableEq, Repr

structure WordRule where
  pattern : Pattern
  kind : WordKind
  deriving DecidableEq, Repr

structure Language where
  name : Text
  extensions : List Text
  rules : List WordRule
  deriving DecidableEq, Repr

namespace Language

/-- Whether a file extension belongs to the language; upper and lower case ASCII are the same. -/
def hasExtension (l : Language) (ext : Text) : Bool :=
  l.extensions.any fun known => known.map Char.toLower == ext.map Char.toLower

def keywords : List Text :=
  ["let", "const", "if", "else", "switch", "do", "while", "until", "loop", "for", "in", "continue",
    "break", "return", "throw", "try", "catch", "fn", "private", "import", "export", "as", "global",
    "this", "true", "false"].map String.toList

def predefinedNames : List Text :=
  ["print", "println", "p", "debug", "type_of", "is_def_var", "is_def_fn"].map String.toList

/-- One of the words, followed by no further word character. -/
def wholeWord (words : List Text) : Pattern :=
  .seq (.group (.choice (words.map .literal))) .wordBoundary

def lineComment : Pattern := .seq (.literal ['/', '/']) (.many .any)

/-- One character of a text in the given quotes, with the backslash that protects it. -/
def quotedUnit (quote : Char) : Pattern :=
  .group (.alt (.noneOf [.one quote, .one '\\']) (.seq (.char '\\') .any))

/-- A text in the given quotes; the closing quote may be missing. -/
def quoted (quote : Char) : Pattern :=
  .concat [.char quote, .many (quotedUnit quote), .optional (.char quote)]

def decimalDigit : Pattern := .oneOf [.range '0' '9']

def decimalTail : Pattern := .oneOf [.range '0' '9', .one '_']

def fraction : Pattern := .group (.seq (.char '.') (.some decimalTail))

def exponent : Pattern :=
  .group (.concat [.oneOf [.one 'e', .one 'E'], .optional (.oneOf [.one '+', .one '-']),
    .some decimalDigit])

def decimal : Pattern :=
  .concat [decimalDigit, .many decimalTail, .optional fraction, .optional exponent]

def numeral : Pattern :=
  .group (.choice [
    .seq (.literal ['0', 'x'])
      (.some (.oneOf [.range '0' '9', .range 'a' 'f', .range 'A' 'F', .one '_'])),
    .seq (.literal ['0', 'b']) (.some (.oneOf [.one '0', .one '1', .one '_'])),
    .seq (.literal ['0', 'o']) (.some (.oneOf [.range '0' '7', .one '_'])),
    decimal])

def identifierStart : Pattern := .oneOf [.range 'A' 'Z', .range 'a' 'z', .one '_']

def identifierPart : Pattern := .oneOf [.range 'A' 'Z', .range 'a' 'z', .range '0' '9', .one '_']

def identifier : Pattern := .seq identifierStart (.many identifierPart)

/-- The language of the scripts. -/
def rhai : Language where
  name := "rhai".toList
  extensions := ["rhai".toList]
  rules := [
    ⟨lineComment, .comment⟩,
    ⟨quoted '"', .string⟩,
    ⟨quoted '\'', .string⟩,
    ⟨wholeWord keywords, .keyword⟩,
    ⟨wholeWord predefinedNames, .predefined⟩,
    ⟨numeral, .number⟩,
    ⟨identifier, .identifier⟩]

end Language

end ScriptPad
