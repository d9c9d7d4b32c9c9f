import ScriptPad.Script.ParseError
import ScriptPad.Script.Term

/-!
Readers of scripts. A reader takes words from the front of those to come, or refuses the script at
one of them. Beside the words it knows the functions read so far and the variables in scope, and it
is told where its form stands.
-/

namespace ScriptPad.Script

/-- What the readers share: the words to come, the functions read so far, and the variables in
scope with whether each is constant. -/
structure Reading where
  words : List (Token × Position)
  functions : List Function := []
  names : List (Text × Bool) := []

abbrev Reader := StateT Reading (Except ParseError)

/-- Where a form stands. -/
structure Context where
  /-- How deep expressions may nest; zero is no limit. -/
  maxDepth : Nat
  depth : Nat := 0
  /-- Outside every block and function. -/
  global : Bool := true
  /-- Inside the body of a loop. -/
  looping : Bool := false

namespace Reader

def refuse {α : Type} (r : Refusal) (p : Position) : Reader α := throw { refusal := r, position := p }

/-- The next word and its place. -/
def peek : Reader (Token × Position) := do
  match (← get).words with
  | w :: _ => pure w
  | [] => pure (.endOfText, {})

/-- Takes the next word; the end of the text stays. -/
def next : Reader (Token × Position) := do
  match (← get).words with
  | [] => pure (.endOfText, {})
  | [w] => pure w
  | w :: rest =>
    modify fun s => { s with words := rest }
    pure w

/-- Takes the next word if it is the one given. -/
def accept (t : Token) : Reader Bool := do
  let (w, _) ← peek
  if w = t then
    let _ ← next
    pure true
  else pure false

/-- Refuses a word that is not the one wanted, unless it is no word at all. -/
def refuseWord {α : Type} (w : Token) (p : Position) (r : Refusal) : Reader α :=
  match w with
  | .bad e => refuse (.lexical e) p
  | _ => refuse r p

/-- One level deeper into an expression. -/
def deeper (c : Context) (p : Position) : Reader Context :=
  if c.maxDepth ≠ 0 ∧ c.maxDepth < c.depth + 1 then refuse .tooDeep p
  else pure { c with depth := c.depth + 1 }

def declare (name : Text) (constant : Bool) : Reader Unit :=
  modify fun s => { s with names := (name, constant) :: s.names }

/-- Reads with variables of its own, which are forgotten afterwards. -/
def isolated {α : Type} (r : Reader α) : Reader α := do
  let names := (← get).names
  let a ← r
  modify fun s => { s with names := names }
  pure a

/-- Whether a name stands for a constant. -/
def isConstant (name : Text) : Reader Bool := do
  pure (((← get).names.find? (·.1 == name)).any (·.2))

/-- The name of a variable. -/
def variableName : Reader (Text × Position) := do
  match ← next with
  | (.name t, p) => pure (t, p)
  | (.reserved t, p) => refuse (.reserved t) p
  | (w, p) => refuseWord w p .variableExpected

/-- A condition must not begin with a block. -/
def notBlock : Reader Unit := do
  match ← peek with
  | (.symbol "\x7b", p) => refuse .booleanExpected p
  | _ => pure ()

/-- A condition must not be followed by an assignment. -/
def notAssignment : Reader Unit := do
  match ← peek with
  | (.symbol "=", p) => refuse .assignmentAsCondition p
  | _ => pure ()

end Reader

end ScriptPad.Script
