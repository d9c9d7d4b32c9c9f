import ScriptPad.Script.Position
import ScriptPad.Text.Word

/-!
The words of a script and how a text is cut into them. The longest symbol wins; names are ASCII. A
comment in stars may hold others and may be left open. The first thing that is no word ends the list
with the error it is.
-/

namespace ScriptPad.Script

/-- Why a text cannot be cut into words. -/
inductive LexError
  | unexpected (t : Text)
  | openString
  | badEscape (t : Text)
  | badCharacter (t : Text)
  | badName (t : Text)
  | badNumber (t : Text)
  deriving DecidableEq, Repr

def LexError.message : LexError → Text
  | unexpected t => "Unexpected '".toList ++ t ++ ['\'']
  | openString => "Open string is not terminated".toList
  | badEscape t => "Invalid escape sequence: '".toList ++ t ++ ['\'']
  | badCharacter t => "Invalid character: '".toList ++ t ++ ['\'']
  | badName t => "Variable name is not proper: '".toList ++ t ++ ['\'']
  | badNumber t => "Invalid number: '".toList ++ t ++ ['\'']

inductive Token
  | name (t : Text)
  /-- A word or symbol kept back for later versions of the language, or for its own functions. -/
  | reserved (t : Text)
  | keyword (w : String)
  | symbol (s : String)
  | integer (n : Int)
  | float (digits : Text)
  | character (c : Char)
  | string (t : Text)
  | bad (e : LexError)
  | endOfText
  deriving DecidableEq, Repr

namespace Token

def keywords : List String :=
  ["let", "const", "if", "else", "switch", "do", "while", "until", "loop", "for", "in", "break",
    "continue", "return", "throw", "try", "catch", "fn", "private", "import", "export", "as", "true",
    "false"]

/-- Reserved names that may be called as functions. -/
def callable : List String :=
  ["print", "debug", "type_of", "eval", "Fn", "call", "curry", "is_def_var", "is_def_fn",
    "is_shared"]

def reservedNames : List String :=
  callable ++ ["this", "var", "static", "shared", "goto", "exit", "match", "case", "public",
    "protected", "new", "use", "with", "is", "module", "package", "super", "thread", "spawn", "go",
    "await", "async", "sync", "yield", "default", "void", "null", "nil"]

/-- The symbols of the language, longer ones before those they begin with. -/
def symbols : List String :=
  ["**=", "<<=", ">>=", "..=", "()", "#\x7b", "==", "!=", "<=", ">=", "&&", "||", "+=", "-=", "*=",
    "/=", "%=", "&=", "|=", "^=", "..", "::", "=>", "**", "<<", ">>", "??", "?.", "?[", "\x7b",
    "\x7d", "(", ")", "[", "]", ",", ";", ".", "+", "-", "*", "/", "%", "=", "<", ">", "!", ":", "|",
    "&", "^"]

/-- Symbols that are kept back, longer ones before those they begin with. -/
def reservedSymbols : List String :=
  ["===", "!==", "...", "..<", ":::", "::<", "->", "<-", ":=", ":;", "++", "--", "<|", "|>", "(*",
    "*)", "!.", "#!", "~", "@", "$", "#", "?"]

/-- The word that a name is: a keyword, a reserved name or a name proper. -/
def ofWord (t : Text) : Token :=
  let w := String.ofList t
  if w ∈ keywords then .keyword w
  else if w ∈ reservedNames then .reserved t
  else if (t.dropWhile (· == '_')).head?.any Char.isAlpha then .name t
  else .bad (.badName t)

/-- Blank characters of any script. -/
def isBlank (c : Char) : Bool :=
  (9 ≤ c.toNat && c.toNat ≤ 13) || c == ' ' || c == '\u0085' || c == '\u00a0' || c == '\u1680' ||
    (0x2000 ≤ c.toNat && c.toNat ≤ 0x200a) || c == '\u2028' || c == '\u2029' || c == '\u202f' ||
    c == '\u205f' || c == '\u3000'

/-- What a text begins with, and the number of characters it takes. -/
inductive Scanned
  | token (t : Token) (length : Nat)
  | skip (length : Nat)
  /-- An error, and how far into the text it is. -/
  | error (e : LexError) (offset : Nat)
  deriving DecidableEq, Repr

/-! ### Texts in quotes -/

/-- The value of hexadecimal digits. -/
def hexValue (t : Text) : Option Nat :=
  t.foldl
    (fun n c => n.bind fun n =>
      if c.isDigit then some (16 * n + (c.toNat - '0'.toNat))
      else if 'a' ≤ c ∧ c ≤ 'f' then some (16 * n + (c.toNat - 'a'.toNat + 10))
      else if 'A' ≤ c ∧ c ≤ 'F' then some (16 * n + (c.toNat - 'A'.toNat + 10))
      else none)
    (some 0)

/-- The character that a backslash and what follows it stand for, and the number of characters
after the backslash; or how much of it is read before it turns out to be wrong. -/
def escape (quote : Char) (t : Text) : Except Nat (Char × Nat) :=
  let code (digits : Nat) : Except Nat (Char × Nat) :=
    match hexValue ((t.drop 1).take digits) with
    | some n =>
      if n.isValidChar ∧ digits < t.length then .ok (Char.ofNat n, digits + 1)
      else .error (digits + 1)
    | none => .error (((t.drop 1).takeWhile fun c => (hexValue [c]).isSome).length + 2)
  match t with
  | 'n' :: _ => .ok ('\n', 1)
  | 't' :: _ => .ok ('\t', 1)
  | 'r' :: _ => .ok ('\r', 1)
  | '\\' :: _ => .ok ('\\', 1)
  | 'x' :: _ => code 2
  | 'u' :: _ => code 4
  | 'U' :: _ => code 8
  | c :: _ => if c = quote then .ok (quote, 1) else .error 1
  | [] => .error 0

/-- Reads up to the closing quote: the text and the number of characters, opening quote included.
A quote written twice stands for one. `offset` characters have been read. -/
def quotedFrom (quote : Char) : Nat → Nat → Text → Text → Except (LexError × Nat) (Text × Nat)
  | 0, _, _, _ => .error (.openString, 0)
  | _ + 1, _, _, [] => .error (.openString, 0)
  | fuel + 1, offset, done, c :: rest =>
    if c = quote then
      if rest.head? = some quote then quotedFrom quote fuel (offset + 2) (quote :: done) (rest.drop 1)
      else .ok (done.reverse, offset + 1)
    else if c = '\n' then .error (.openString, 0)
    else if c = '\\' then
      match escape quote rest with
      | .ok (x, n) => quotedFrom quote fuel (offset + n + 1) (x :: done) (rest.drop n)
      | .error n =>
        if rest.length < n ∨ n = 0 ∨ '\n' ∈ rest.take n then .error (.openString, 0)
        else .error (.badEscape ('\\' :: rest.take n), offset + n)
    else quotedFrom quote fuel (offset + 1) (c :: done) rest

/-- A text in quotes; `rest` follows the opening one. -/
def scanQuoted (quote : Char) (rest : Text) : Scanned :=
  if quote = '\'' ∧ rest.head? = some '\'' then .error (.badCharacter []) 0
  else
    match quotedFrom quote (rest.length + 1) 1 [] rest with
    | .error (e, offset) => .error e offset
    | .ok (t, n) =>
      if quote = '"' then .token (.string t) n
      else
        match t with
        | [c] => .token (.character c) n
        | t => .error (.badCharacter t) 0

/-! ### Numbers -/

/-- Digits of a base, with underscores between them. -/
def takeDigits (isDigit : Char → Bool) (t : Text) : Text := t.takeWhile fun c => isDigit c || c == '_'

/-- The number that digits stand for. -/
def natOf (base : Nat) (digits : Text) : Nat :=
  digits.foldl (fun n c => base * n + (hexValue [c]).getD 0) 0

/-- Digits without the underscores between them. -/
def plainDigits (t : Text) : Text := t.filter (· != '_')

/-- An integer of another base, as the word that its bits make. -/
def scanBits (base : Nat) (isDigit : Char → Bool) (t : Text) : Scanned :=
  let taken := takeDigits isDigit (t.drop 2)
  let digits := plainDigits taken
  let n := natOf base digits
  if digits = [] ∨ UInt64.size ≤ n then .error (.badNumber (t.take 2 ++ digits)) 0
  else .token (.integer (Int64.ofNat n).toInt) (taken.length + 2)

/-- The characters of an exponent at the start of a text, or none. -/
def exponentLength (t : Text) : Nat :=
  match t with
  | 'e' :: c :: rest =>
    if c.isDigit then 1 + (takeDigits Char.isDigit (c :: rest)).length
    else if (c = '+' ∨ c = '-') ∧ rest.head?.any Char.isDigit then
      2 + (takeDigits Char.isDigit rest).length
    else 0
  | _ => 0

/-- The characters of a point and a fraction at the start of a text, or none. A point before a name
or another point is not part of the number. -/
def fractionLength (t : Text) : Nat :=
  match t with
  | '.' :: c :: rest =>
    if c.isDigit then 1 + (takeDigits Char.isDigit (c :: rest)).length
    else if c.isAlpha ∨ c = '_' ∨ c = '.' then 0
    else 1
  | _ => 0

def scanNumber (t : Text) : Scanned :=
  match t with
  | '0' :: 'x' :: _ | '0' :: 'X' :: _ => scanBits 16 (fun c => (hexValue [c]).isSome) t
  | '0' :: 'o' :: _ | '0' :: 'O' :: _ => scanBits 8 (fun c => '0' ≤ c && c ≤ '7') t
  | '0' :: 'b' :: _ | '0' :: 'B' :: _ => scanBits 2 (fun c => c == '0' || c == '1') t
  | t =>
    let whole := takeDigits Char.isDigit t
    let fraction := fractionLength (t.drop whole.length)
    let exponent := exponentLength (t.drop (whole.length + fraction))
    let length := whole.length + fraction + exponent
    if fraction = 0 ∧ exponent = 0 then .token (.integer (natOf 10 (plainDigits whole))) length
    else .token (.float (plainDigits (t.take length))) length

/-! ### Comments and symbols -/

/-- The length of a comment in stars, its nested ones included; `level` of them are open. -/
def commentLength : Nat → Text → Nat
  | _, [] => 0
  | level, [_] => if level = 0 then 0 else 1
  | 0, _ => 0
  | level + 1, '*' :: '/' :: rest => 2 + commentLength level rest
  | level + 1, '/' :: '*' :: rest => 2 + commentLength (level + 2) rest
  | level + 1, _ :: rest => 1 + commentLength (level + 1) rest

/-- The first of some symbols that a text begins with. -/
def longest (ss : List String) (t : Text) : Option String := ss.find? fun s => s.toList.isPrefixOf t

def scanSymbol (t : Text) : Scanned :=
  let own := longest symbols t
  let kept := longest reservedSymbols t
  match own, kept with
  | some s, some r =>
    if s.length < r.length then .token (.reserved r.toList) r.length
    else .token (.symbol s) s.length
  | some s, none => .token (.symbol s) s.length
  | none, some r => .token (.reserved r.toList) r.length
  | none, none => .error (.unexpected (t.take 1)) 0

def isNameStart (c : Char) : Bool := c.isAlpha || c == '_'

/-- What a text that is not empty begins with. -/
def scan (t : Text) : Scanned :=
  match t with
  | [] => .token .endOfText 0
  | c :: rest =>
    if isBlank c then .skip 1
    else if ['/', '/'].isPrefixOf t then .skip (t.takeWhile (· ≠ '\n')).length
    else if ['/', '*'].isPrefixOf t then .skip (2 + commentLength 1 (rest.drop 1))
    else if c.isDigit then scanNumber t
    else if isNameStart c then
      let word := t.takeWhile Text.isAsciiWord
      match ofWord word with
      | .bad e => .error e 0
      | token => .token token word.length
    else if c = '"' ∨ c = '\'' then scanQuoted c rest
    else scanSymbol t

/-- The words of a text that starts at a place, with their places. Every round takes a character, so
the length of the text bounds the rounds. -/
def scanFrom : Nat → Position → Text → List (Token × Position)
  | 0, p, _ => [(.endOfText, p)]
  | _ + 1, p, [] => [(.endOfText, p)]
  | fuel + 1, p, c :: rest =>
    match scan (c :: rest) with
    | .token t n => (t, p) :: scanFrom fuel (p.after ((c :: rest).take n)) ((c :: rest).drop n)
    | .skip n => scanFrom fuel (p.after ((c :: rest).take n)) ((c :: rest).drop n)
    | .error e offset => [(.bad e, p.after ((c :: rest).take offset))]

/-- The words of a script, with their places; the end of the text is the last of them. -/
def ofText (t : Text) : List (Token × Position) := scanFrom t.length {} t

end Token

end ScriptPad.Script
