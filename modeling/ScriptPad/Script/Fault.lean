import ScriptPad.Script.Position
import ScriptPad.Script.Value

/-!
What can go wrong while a script runs: the cause, the place, and the calls it happened in. Running
out of operations or of call levels is a fault of the system: a script cannot catch it and it is
reported at the outermost call.
-/

namespace ScriptPad.Script

/-- The operators between two values that are not short-circuited. -/
inductive BinaryOp
  | add
  | sub
  | mul
  | div
  | mod
  | eq
  | ne
  | lt
  | le
  | gt
  | ge
  deriving DecidableEq, Repr

namespace BinaryOp

def symbol : BinaryOp → Text
  | add => ['+']
  | sub => ['-']
  | mul => ['*']
  | div => ['/']
  | mod => ['%']
  | eq => ['=', '=']
  | ne => ['!', '=']
  | lt => ['<']
  | le => ['<', '=']
  | gt => ['>']
  | ge => ['>', '=']

/-- What an operator fails at when its result is no 64-bit number. -/
def failure : BinaryOp → Text
  | add => "Addition overflow".toList
  | sub => "Subtraction overflow".toList
  | mul => "Multiplication overflow".toList
  | div => "Division overflow".toList
  | _ => "Modulo division by zero or overflow".toList

end BinaryOp

inductive Cause
  /-- The result of an operator is no 64-bit number. -/
  | overflow (op : BinaryOp) (a b : Int64)
  | divisionByZero (a b : Int64)
  | negationOverflow (a : Int64)
  | unknownVariable (name : Text)
  | unknownFunction (name : Text) (types : List Text)
  | unknownProperty (name type : Text)
  | readOnlyProperty (name type : Text)
  | arrayBounds (index : Int64) (size : Nat)
  | textBounds (index : Int64) (size : Nat)
  | notIndexable (type indexType : Text)
  | wrongType (wanted actual : Text)
  | notIterable
  | thrown (v : Value)
  | tooManyCalls
  | tooManyOperations
  deriving Repr

namespace Cause

/-- How many items there are, in words. -/
def onlyItems (size : Nat) (one many what : Text) : Text :=
  match size with
  | 0 => what ++ " is empty".toList
  | 1 => "only 1 ".toList ++ one ++ " in ".toList ++ what
  | n => "only ".toList ++ Text.ofNat n ++ [' '] ++ many ++ " in ".toList ++ what

def message : Cause → Text
  | overflow op a b =>
    op.failure ++ ": ".toList ++ Text.ofInt a.toInt ++ [' '] ++ op.symbol ++ [' '] ++
      Text.ofInt b.toInt
  | divisionByZero a b =>
    "Division by zero: ".toList ++ Text.ofInt a.toInt ++ " / ".toList ++ Text.ofInt b.toInt
  | negationOverflow a => "Negation overflow: -".toList ++ Text.ofInt a.toInt
  | unknownVariable name => "Variable not found: ".toList ++ name
  | unknownFunction name types =>
    "Function not found: ".toList ++ name ++ " (".toList ++ Value.joined types ++ [')']
  | unknownProperty name type =>
    "Unknown property '".toList ++ name ++ "' - a getter is not registered for type '".toList ++
      type ++ ['\'']
  | readOnlyProperty name type =>
    "Unknown property '".toList ++ name ++ "' - a setter is not registered for type '".toList ++
      type ++ ['\'']
  | arrayBounds index size =>
    "Array index ".toList ++ Text.ofInt index.toInt ++ " out of bounds: ".toList ++
      onlyItems size "element".toList "elements".toList "array".toList
  | textBounds index size =>
    "String index ".toList ++ Text.ofInt index.toInt ++ " out of bounds: ".toList ++
      onlyItems size "character".toList "characters".toList "string".toList
  | notIndexable type indexType =>
    "Indexer unavailable: ".toList ++ type ++ " [".toList ++ indexType ++ [']']
  | wrongType wanted actual =>
    "Data type incorrect: ".toList ++ actual ++ " (expecting ".toList ++ wanted ++ [')']
  | notIterable => "For loop expects iterable type".toList
  | thrown v =>
    if v.render = [] then "Runtime error".toList else "Runtime error: ".toList ++ v.render
  | tooManyCalls => "Stack overflow".toList
  | tooManyOperations => "Too many operations".toList

/-- A fault that a script cannot catch. -/
def isSystem : Cause → Bool
  | tooManyCalls | tooManyOperations => true
  | _ => false

end Cause

structure Fault where
  cause : Cause
  position : Position
  /-- The script functions it passed through and where they were called, innermost first. -/
  calls : List (Text × Position) := []
  deriving Repr

namespace Fault

def renderCall (c : Text × Position) : Text :=
  "\nin call to function '".toList ++ c.1 ++ ['\''] ++ c.2.render

def message (f : Fault) : Text :=
  f.cause.message ++ f.position.render ++ f.calls.flatMap renderCall

/-- A fault as it leaves a script function that was called at a place. -/
def leaving (f : Fault) (name : Text) (position : Position) : Fault :=
  if f.cause.isSystem then { f with position := position }
  else { f with calls := f.calls ++ [(name, position)] }

/-- What a script binds when it catches the fault: the value thrown, or a description. -/
def caught (f : Fault) : Value :=
  match f.cause with
  | .thrown v => v
  | cause =>
    Value.ofEntries [
      ("message".toList, .text cause.message),
      ("line".toList, .int (Int64.ofNat f.position.line)),
      ("position".toList, .int (Int64.ofNat f.position.column))]

end Fault

end ScriptPad.Script
