import ScriptPad.Document.Input

/-!
The bytes that a terminal sends for its keys, and the events they stand for. A key that is no
character comes as an escape sequence; the bytes of one key are read until they say which it is.
-/

namespace ScriptPad.Keys

/-- What the bytes of a key amount to so far. -/
inductive Reading
  | incomplete
  | done (e : Event)
  deriving DecidableEq, Repr

def escapeByte : UInt8 := 0x1b

/-- A key without the control key. -/
def plain (k : Key) : Reading := .done (.key { key := k })

/-- A key of the alphabet with the control key, counted from one. -/
def controlled (n : UInt8) : Reading :=
  .done (.key { key := .char (Char.ofNat (n.toNat + 96)), control := true })

/-- The key that an escape sequence ends with a letter for. -/
def ofLetter (b : UInt8) : Key :=
  match Char.ofNat b.toNat with
  | 'A' => .up
  | 'B' => .down
  | 'C' => .right
  | 'D' => .left
  | 'F' => .endKey
  | 'H' => .home
  | _ => .other

/-- The key that an escape sequence gives the number of. -/
def ofNumber (digits : List UInt8) : Key :=
  match digits.map fun b => Char.ofNat b.toNat with
  | ['1'] | ['7'] => .home
  | ['3'] => .delete
  | ['4'] | ['8'] => .endKey
  | ['1', '5'] => .function 5
  | _ => .other

/-- Parameters stand before the last byte of an escape sequence. -/
def isParameter (b : UInt8) : Bool := b < 0x40

/-- Reads an escape sequence behind its introducer. -/
def readSequence (bytes : List UInt8) : Reading :=
  match bytes.dropWhile isParameter with
  | [] => .incomplete
  | b :: _ =>
    plain (if b = 0x7e then ofNumber (bytes.takeWhile isParameter) else ofLetter b)

/-- Reads a character, which has at most four bytes; what is no character has no meaning. -/
def readChar (bytes : List UInt8) : Reading :=
  match (String.fromUTF8? ⟨bytes.toArray⟩).map String.toList with
  | some (c :: _) => plain (.char c)
  | _ => if bytes.length < 4 then .incomplete else plain .other

/-- Reads a key that does not begin with an escape. -/
def readKey : List UInt8 → Reading
  | [] => .incomplete
  | bytes@(b :: _) =>
    if b = 0x0d then plain .enter
    else if b = 0x09 then plain .tab
    else if b = 0x7f then plain .backspace
    else if 1 ≤ b ∧ b ≤ 26 then controlled b
    else readChar bytes

/-- Reads the bytes of a key. An escape in front of a key that has no sequence leaves it as it is. -/
def read : List UInt8 → Reading
  | [] => .incomplete
  | b :: rest =>
    if b = escapeByte then
      match rest with
      | [] => .incomplete
      | b :: rest =>
        if b = 0x5b ∨ b = 0x4f then readSequence rest
        else if b = escapeByte then plain .other
        else readKey (b :: rest)
    else readKey (b :: rest)

end ScriptPad.Keys
