import ScriptPad.Script.Token

/-!
Why a script is refused before it runs. Most refusals name the word that was wanted and what for.
-/

namespace ScriptPad.Script

inductive Refusal
  | lexical (e : LexError)
  | incomplete
  /-- A word is missing; `purpose` says what it is for. -/
  | missing (word purpose : Text)
  | variableExpected
  | propertyExpected
  | booleanExpected
  /-- A literal of another type stands where one type is wanted. -/
  | mismatch (wanted actual : Text)
  | functionNameExpected
  | parametersExpected (function : Text)
  | bodyExpected (function : Text)
  | duplicateParameter (name function : Text)
  | duplicateFunction (name : Text) (arity : Nat)
  | duplicateProperty (name : Text)
  | duplicateVariable (name : Text)
  | nestedFunction
  | reserved (word : Text)
  | unknownOperator (symbol : Text)
  | constantAssigned (name : Option Text)
  | notAssignable
  | assignmentAsCondition
  | malformedIndex (reason : Text)
  | breakOutsideLoop
  | thisOutsideFunction
  | tooDeep
  deriving DecidableEq, Repr

namespace Refusal

/-- How many parameters a function has, in words. -/
def arityWords : Nat → Text
  | 0 => "no parameters".toList
  | 1 => "1 parameter".toList
  | n => Text.ofNat n ++ " parameters".toList

def message : Refusal → Text
  | lexical e => e.message
  | incomplete => "Script is incomplete".toList
  | missing word purpose => "Expecting '".toList ++ word ++ "' ".toList ++ purpose
  | variableExpected => "Expecting name of a variable".toList
  | propertyExpected => "Expecting name of a property".toList
  | booleanExpected => "Expecting a boolean expression".toList
  | mismatch wanted actual => "Expecting ".toList ++ wanted ++ ", not ".toList ++ actual
  | functionNameExpected => "Expecting function name in function declaration".toList
  | parametersExpected f => "Expecting parameters for function ".toList ++ f
  | bodyExpected f => "Expecting body statement block for function ".toList ++ f
  | duplicateParameter name f =>
    "Duplicated parameter ".toList ++ name ++ " for function ".toList ++ f
  | duplicateFunction name arity =>
    "Function ".toList ++ name ++ " with ".toList ++ arityWords arity ++
      " already exists".toList
  | duplicateProperty name => "Duplicated property for object map literal: ".toList ++ name
  | duplicateVariable name => "Duplicated variable name: ".toList ++ name
  | nestedFunction =>
    ("Function definitions must be at global level and cannot be inside a block or another " ++
      "function").toList
  | reserved word =>
    ['\''] ++ word ++
      (if word.all Text.isAsciiWord then "' is a reserved keyword".toList
       else "' is a reserved symbol".toList)
  | unknownOperator s => "Unknown operator: '".toList ++ s ++ ['\'']
  | constantAssigned none => "Cannot assign to a constant value".toList
  | constantAssigned (some name) => "Cannot assign to constant ".toList ++ name
  | notAssignable => "Expression cannot be assigned to".toList
  | assignmentAsCondition => "Possibly a typo of '=='?".toList
  | malformedIndex reason => reason
  | breakOutsideLoop => "Break statement should only be used inside a loop".toList
  | thisOutsideFunction => "'this' can only be used in functions".toList
  | tooDeep => "Expression exceeds maximum complexity".toList

end Refusal

structure ParseError where
  refusal : Refusal
  position : Position
  deriving DecidableEq, Repr

/-- The text of a refusal with its place. -/
def ParseError.message (e : ParseError) : Text := e.refusal.message ++ e.position.render

end ScriptPad.Script
