import ScriptPad.Script.Fault

/-!
Scripts as the parser leaves them: expressions and statements are one kind of term, since every
statement has a value. What is computed from evaluated operands, with no choice of what to evaluate,
is one form of term with an operation to perform on them.
-/

namespace ScriptPad.Script

/-- One step from a value to a part of it. An index is an operand of its own. -/
inductive PathStep
  | item (position : Position)
  | field (name : Text) (position : Position)
  deriving DecidableEq, Repr

/-- A part of a variable's value, which can be changed. -/
structure Place where
  root : Text
  position : Position
  path : List PathStep
  deriving DecidableEq, Repr

namespace Place

/-- The number of operands that the place takes. -/
def indexCount (p : Place) : Nat :=
  p.path.countP fun
    | .item _ => true
    | .field _ _ => false

end Place

/-- What is done with operands once they are values. -/
inductive Operation
  | array
  | map (keys : List Text)
  | binary (op : BinaryOp) (position : Position)
  | negate (position : Position)
  | complement (position : Position)
  | range (inclusive : Bool) (position : Position)
  | item (position : Position)
  | property (name : Text) (position : Position)
  | call (name : Text) (position : Position)
  /-- A method on its first operand. -/
  | method (name : Text) (position : Position)
  /-- A method on a place; the indices of the place come before the arguments. -/
  | methodAt (place : Place) (name : Text) (position : Position)
  /-- Stores the first operand in a place, after an operator on the old value if there is one. -/
  | store (place : Place) (op : Option BinaryOp) (position : Position)
  deriving DecidableEq, Repr

inductive Term
  | constant (v : Value)
  | variable (name : Text) (position : Position)
  | apply (op : Operation) (operands : List Term)
  | both (a b : Term) (position : Position)
  | either (a b : Term) (position : Position)
  | choose (condition yes no : Term) (position : Position)
  | block (body : List Term) (position : Position)
  /-- Repeats the body while the condition holds, or without end if there is none. -/
  | repeatWhile (condition : Option Term) (body : Term) (position : Position)
  | forEach (name : Text) (counter : Option Text) (items body : Term) (position : Position)
  | declare (name : Text) (value : Term)
  | leaveLoop (value : Option Term)
  | nextRound
  | giveBack (value : Option Term)
  | throwValue (value : Option Term) (position : Position)
  | guarded (body : Term) (name : Option Text) (handler : Term)
  deriving Repr, Inhabited

/-- A function that a script defines. -/
structure Function where
  name : Text
  parameters : List Text
  body : Term
  deriving Repr

structure Program where
  body : List Term
  functions : List Function
  deriving Repr

namespace Operation

def position? : Operation → Option Position
  | array | map _ => none
  | binary _ p | negate p | complement p | range _ p | item p | property _ p | call _ p
  | method _ p | methodAt _ _ p | store _ _ p => some p

end Operation

namespace Term

def position? : Term → Option Position
  | .variable _ p | .both _ _ p | .either _ _ p | .choose _ _ _ p | .block _ p
  | .repeatWhile _ _ p | .forEach _ _ _ _ p | .throwValue _ p => some p
  | .apply op _ => op.position?
  | _ => none

mutual

/-- Whether evaluating the term can do nothing but give a value. -/
def isIdle : Term → Bool
  | .constant _ | .variable _ _ => true
  | .apply .array ts | .apply (.map _) ts | .block ts _ => allIdle ts
  | .both a b _ | .either a b _ | .forEach _ _ a b _ | .guarded a _ b => a.isIdle && b.isIdle
  | .choose c yes no _ => c.isIdle && yes.isIdle && no.isIdle
  | _ => false

def allIdle : List Term → Bool
  | [] => true
  | t :: ts => t.isIdle && allIdle ts

end

mutual

/-- The term when nobody asks for its value: statements that do nothing are left out. -/
def unused : Term → Term
  | .block body p => .block (allUnused body) p
  | .choose c yes no p => .choose c yes.unused no.unused p
  | t => t

def allUnused : List Term → List Term
  | [] => []
  | t :: ts => if t.isIdle then allUnused ts else t.unused :: allUnused ts

end

/-- Statements whose last value counts: the ones before it that do nothing are left out. -/
def statements : List Term → List Term
  | [] => []
  | [t] => [t]
  | t :: ts => if t.isIdle then statements ts else t :: statements ts

end Term

/-- The function of a name and number of parameters. -/
def Program.function? (p : Program) (name : Text) (arity : Nat) : Option Function :=
  p.functions.find? fun f => f.name == name && f.parameters.length == arity

end ScriptPad.Script
