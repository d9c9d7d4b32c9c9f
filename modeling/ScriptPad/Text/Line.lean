/-!
Texts and their lines. Seven characters end a line: LF, VT, FF, CR, NEL, LS and PS. A CR directly
before an LF does not end a line of its own, so the pair counts once. A text therefore has one line
more than it has line ends, and its lines, ends included, concatenate to the text.
-/

namespace ScriptPad

/-- A text is a list of Unicode scalar values, so that positions count characters. -/
abbrev Text := List Char

namespace Text

/-- The characters that end a line. -/
def isBreak (c : Char) : Bool :=
  c == '\n' || c == '\x0b' || c == '\x0c' || c == '\r' || c == '\u0085' || c == '\u2028' ||
    c == '\u2029'

/-- Whether a line ends between `c` and the text after it. -/
def breaksAfter (c : Char) (rest : Text) : Bool :=
  isBreak c && !(c == '\r' && rest.head? == some '\n')

/-- Puts a character in front of the first line. -/
def consFirst (c : Char) : List Text → List Text
  | [] => [[c]]
  | l :: ls => (c :: l) :: ls

/-- The lines of a text, each with the characters that end it. -/
def lines : Text → List Text
  | [] => [[]]
  | c :: rest => if breaksAfter c rest then [c] :: lines rest else consFirst c (lines rest)

@[simp] theorem flatten_consFirst (c : Char) (ls : List Text) :
    (consFirst c ls).flatten = c :: ls.flatten := by
  cases ls <;> simp [consFirst]

@[simp] theorem consFirst_ne_nil (c : Char) (ls : List Text) : consFirst c ls ≠ [] := by
  cases ls <;> simp [consFirst]

/-- The lines of a text concatenate to it. -/
@[simp] theorem flatten_lines (t : Text) : (lines t).flatten = t := by
  induction t with
  | nil => rfl
  | cons c rest ih => by_cases h : breaksAfter c rest <;> simp [lines, h, ih]

@[simp] theorem lines_ne_nil (t : Text) : lines t ≠ [] := by
  cases t with
  | nil => simp [lines]
  | cons c rest => by_cases h : breaksAfter c rest <;> simp [lines, h]

/-- The number of lines; never zero. -/
def lineCount (t : Text) : Nat := (lines t).length

theorem lineCount_pos (t : Text) : 0 < lineCount t :=
  List.length_pos_iff.2 (lines_ne_nil t)

/-- The number of characters before line `i`; the whole length once the lines run out. -/
def lineStart (t : Text) (i : Nat) : Nat := ((lines t).take i).flatten.length

@[simp] theorem lineStart_zero (t : Text) : lineStart t 0 = 0 := by simp [lineStart]

/-- A line without the LF that ends it. Only one final LF is dropped: a CR stays. -/
def dropFinalNewline (l : Text) : Text :=
  if l.getLast? = some '\n' then l.dropLast else l

/-- A text split at each occurrence of a character; always at least one piece. -/
def splitAt (sep : Char) : Text → List Text
  | [] => [[]]
  | c :: rest => if c = sep then [] :: splitAt sep rest else consFirst c (splitAt sep rest)

@[simp] theorem splitAt_ne_nil (sep : Char) (t : Text) : splitAt sep t ≠ [] := by
  cases t with
  | nil => simp [splitAt]
  | cons c rest => by_cases h : c = sep <;> simp [splitAt, h]

/-- The number of LF-separated lines, where a final LF ends a line and starts none. -/
def sourceLineCount (t : Text) : Nat :=
  t.count '\n' + if t = [] ∨ t.getLast? = some '\n' then 0 else 1

/-- A text without the LF and CR characters at its end. -/
def trimLineEnd (t : Text) : Text :=
  (t.reverse.dropWhile fun c => c == '\n' || c == '\r').reverse

/-- A text filled up with spaces to at least `width` characters. -/
def padRight (width : Nat) (t : Text) : Text := t ++ List.replicate (width - t.length) ' '

/-- A text moved right by spaces to at least `width` characters. -/
def padLeft (width : Nat) (t : Text) : Text := List.replicate (width - t.length) ' ' ++ t

@[simp] theorem length_padRight (width : Nat) (t : Text) :
    (padRight width t).length = max width t.length := by
  simp [padRight]; omega

@[simp] theorem length_padLeft (width : Nat) (t : Text) :
    (padLeft width t).length = max width t.length := by
  simp [padLeft]; omega

/-- The number of bytes of a text in UTF-8. -/
def byteLength (t : Text) : Nat := t.foldr (fun c n => c.utf8Size + n) 0

@[simp] theorem byteLength_nil : byteLength [] = 0 := rfl

@[simp] theorem byteLength_cons (c : Char) (t : Text) :
    byteLength (c :: t) = c.utf8Size + byteLength t := rfl

@[simp] theorem byteLength_append (s t : Text) :
    byteLength (s ++ t) = byteLength s + byteLength t := by
  induction s with
  | nil => simp
  | cons c s ih => simp [ih, Nat.add_assoc]

/-- Whether a text comes no later than another by the numbers of their characters. -/
def isAtMost : Text → Text → Bool
  | [], _ => true
  | _ :: _, [] => false
  | c :: s, d :: t => c.toNat < d.toNat || (c == d && isAtMost s t)

/-- A number in decimal digits. -/
def ofNat (n : Nat) : Text := Nat.toDigits 10 n

/-- A signed number in decimal digits, with a minus sign below zero. -/
def ofInt : Int → Text
  | .ofNat n => ofNat n
  | .negSucc n => '-' :: ofNat (n + 1)

end Text

end ScriptPad
