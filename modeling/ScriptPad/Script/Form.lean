import ScriptPad.Script.Operator
import ScriptPad.Script.Reader

/-!
What words and terms make together: operators and how tightly they bind, places that can be
assigned to, conditions and indices, and the literals that none of these can be.
-/

namespace ScriptPad.Script.Reader

/-- What a literal of another type than wanted is called. -/
def literalKind? : Term → Option Text
  | .constant .unit => some "()".toList
  | .constant (.int _) | .constant (.float _) => some "a number".toList
  | .constant (.char _) => some "a character".toList
  | .constant (.text _) => some "a string".toList
  | .apply .array _ => some "an array".toList
  | .apply (.map _) _ => some "an object map".toList
  | _ => none

/-- A term used as a condition must not be a literal of another type. -/
def asCondition (t : Term) (p : Position) : Reader Term :=
  match literalKind? t with
  | some kind => refuse (.mismatch "a boolean expression".toList kind) p
  | none => pure t

/-- The text of a word where no expression can begin. -/
def wordText : Token → Text
  | .name t | .reserved t | .string t | .float t => t
  | .keyword w => w.toList
  | .symbol s => s.toList
  | .integer n => Text.ofInt n
  | .character c => [c]
  | .bad _ | .endOfText => []

/-- The integer of a literal, or a number with a fraction if it does not fit. -/
def numberOf (n : Int) : Value :=
  match int64? n with
  | some m => .int m
  | none => .float (Text.ofInt n ++ ['.', '0'])

/-- How tightly a symbol binds as an operator; zero if it is none. -/
def precedence : Token → Nat
  | .symbol "||" => 30
  | .symbol "&&" => 60
  | .symbol "==" | .symbol "!=" => 90
  | .symbol "<" | .symbol "<=" | .symbol ">" | .symbol ">=" => 130
  | .symbol ".." | .symbol "..=" => 140
  | .symbol "+" | .symbol "-" => 150
  | .symbol "*" | .symbol "/" | .symbol "%" => 180
  | _ => 0

def binaryOp? : Token → Option BinaryOp
  | .symbol "==" => some .eq
  | .symbol "!=" => some .ne
  | .symbol "<" => some .lt
  | .symbol "<=" => some .le
  | .symbol ">" => some .gt
  | .symbol ">=" => some .ge
  | .symbol "+" => some .add
  | .symbol "-" => some .sub
  | .symbol "*" => some .mul
  | .symbol "/" => some .div
  | .symbol "%" => some .mod
  | _ => none

/-- The operator of an assignment: none for a plain one. -/
def assignment? : Token → Option (Option BinaryOp)
  | .symbol "=" => some none
  | .symbol "+=" => some (some .add)
  | .symbol "-=" => some (some .sub)
  | .symbol "*=" => some (some .mul)
  | .symbol "/=" => some (some .div)
  | .symbol "%=" => some (some .mod)
  | _ => none

/-- The place that a term stands for, and the indices it takes. -/
def place? : Term → Option (Place × List Term)
  | .variable name p => some (⟨name, p, []⟩, [])
  | .apply (.item p) [t, i] =>
    (place? t).map fun (place, is) => ({ place with path := place.path ++ [.item p] }, is ++ [i])
  | .apply (.property name p) [t] =>
    (place? t).map fun (place, is) => ({ place with path := place.path ++ [.field name p] }, is)
  | _ => none

/-- A call of a method, on a place if the target is one. -/
def methodCall (target : Term) (name : Text) (p : Position) (args : List Term) : Term :=
  match place? target with
  | some (place, indices) => .apply (.methodAt place name p) (indices ++ args)
  | none => .apply (.method name p) (target :: args)

/-- The term of an operator between two operands. -/
def binary (w : Token) (p : Position) (a b : Term) (pa pb : Position) : Reader Term :=
  match w with
  | .symbol "||" => do
    let b ← asCondition b pb
    pure (.either (← asCondition a pa) b p)
  | .symbol "&&" => do
    let b ← asCondition b pb
    pure (.both (← asCondition a pa) b p)
  | .symbol "..=" => pure (.apply (.range true p) [a, b])
  | .symbol ".." => pure (.apply (.range false p) [a, b])
  | w =>
    match binaryOp? w with
    | some op => pure (.apply (.binary op p) [a, b])
    | none => refuse (.unknownOperator (wordText w)) p

/-- A symbol kept back is no operator. -/
def notReservedSymbol : Token × Position → Reader Unit
  | (.reserved t, p) => if t.all Text.isAsciiWord then pure () else refuse (.unknownOperator t) p
  | _ => pure ()

/-- What an assignment to a term stores into, or why it cannot be assigned to. -/
def assignable (t : Term) (start : Position) (op : Option BinaryOp) (opPlace : Position) :
    Reader (Place × List Term) :=
  match place? t with
  | some (place, indices) => do
    if place.path = [] ∧ (← isConstant place.root) then
      refuse (.constantAssigned (some place.root)) place.position
    else pure (place, indices)
  | none =>
    match t with
    | .constant _ => refuse (.constantAssigned none) start
    | .both _ _ _ | .either _ _ _ =>
      if op = none then refuse .assignmentAsCondition opPlace else refuse .notAssignable start
    | .apply (.item _) (base :: _) | .apply (.property _ _) (base :: _) =>
      refuse .notAssignable (base.position?.getD start)
    | t => refuse .notAssignable (t.position?.getD start)

/-- Whether an index literal fits the literal that is indexed. -/
def checkIndex (base index : Term) (p : Position) : Reader Unit :=
  let reason? : Option Text :=
    match base with
    | .apply (.map _) _ =>
      match index with
      | .constant (.int _) => some "Object map expects string index, not a number".toList
      | .constant (.float _) => some "Object map expects string index, not a float".toList
      | .constant (.char _) => some "Object map expects string index, not a character".toList
      | .constant .unit => some "Object map expects string index, not ()".toList
      | .constant (.bool _) | .both _ _ _ | .either _ _ _ =>
        some "Object map expects string index, not a boolean".toList
      | _ => none
    | .constant (.int _) | .constant (.text _) | .apply .array _ =>
      match index with
      | .constant (.text _) =>
        some "Array, string or bit-field expects numeric index, not a string".toList
      | .constant (.float _) =>
        some "Array, string or bit-field expects integer index, not a float".toList
      | .constant (.char _) =>
        some "Array, string or bit-field expects numeric index, not a character".toList
      | .constant .unit => some "Array, string or bit-field expects numeric index, not ()".toList
      | .constant (.bool _) | .both _ _ _ | .either _ _ _ =>
        some "Array, string or bit-field expects numeric index, not a boolean".toList
      | _ => none
    | _ => none
  match reason? with
  | some reason => refuse (.malformedIndex reason) p
  | none => pure ()

/-- Words that begin a statement and no expression: after them a return has no value. -/
def beginsStatement : Token → Bool
  | .keyword w =>
    w ∈ ["let", "const", "return", "throw", "break", "continue", "fn", "private", "import", "export",
      "try", "catch", "else", "in", "as", "until"]
  | _ => false

/-- Whether a return or throw at this word has no value. -/
def endsStatement (c : Context) (w : Token) : Bool :=
  match w with
  | .endOfText | .symbol ";" => true
  | .symbol "\x7d" => !c.global
  | w => beginsStatement w

/-- Tells a missing operand at the end of the text from any other word that begins no expression. -/
def noExpression {α : Type} (w : Token) (p : Position) : Reader α :=
  match w with
  | .endOfText => refuse .incomplete p
  | .bad e => refuse (.lexical e) p
  | w => refuse (.lexical (.unexpected (wordText w))) p

end ScriptPad.Script.Reader
