import ScriptPad.Script.Operator
import ScriptPad.Script.Term

/-!
Running a script, one step at a time. The machine holds what it is about to do, what waits for the
result, the variables, and the state of the host. Only a call of a host function touches the host's
state, so whatever a host's functions keep, every step keeps. Operations are counted where a term is
taken up, and the count is what ends a script that would run on.
-/

namespace ScriptPad.Script

/-- The functions that the host adds to a script. A call with arguments that no function takes is
not an error of the host. -/
structure Host (σ : Type) where
  call : Text → List Value → σ → Option (Value × σ)

/-- What does not change while a script runs. -/
structure Engine (σ : Type) where
  host : Host σ
  program : Program
  /-- The operations a script may take; zero is no limit. -/
  maxOperations : Nat

/-- How deep the calls of script functions may nest. -/
def callLimit : Nat := 8

/-- The variables in scope, the newest first. -/
abbrev Scope := List (Text × Value)

namespace Scope

def assign (name : Text) (v : Value) : Scope → Scope
  | [] => []
  | (n, w) :: rest => if n = name then (n, v) :: rest else (n, w) :: assign name v rest

/-- The scope as it was when it held `height` variables. -/
def rewind (s : Scope) (height : Nat) : Scope := s.drop (s.length - height)

end Scope

/-- What a loop still goes through. -/
inductive Supply
  | items (vs : List Value)
  | numbers (next : Int) (count : Nat)
  deriving Repr

namespace Supply

def of? : Value → Option Supply
  | .array vs => some (.items vs)
  | .text t => some (.items (t.map .char))
  | .range lo hi inclusive =>
    some (.numbers lo.toInt (hi.toInt - lo.toInt + if inclusive then 1 else 0).toNat)
  | _ => none

def next? : Supply → Option (Value × Supply)
  | items [] => none
  | items (v :: vs) => some (v, items vs)
  | numbers _ 0 => none
  | numbers n (count + 1) => some (.int (Int64.ofInt n), numbers (n + 1) count)

end Supply

/-- Ways of leaving a term other than by its value. -/
inductive Exit
  | leaveLoop (v : Value)
  | nextRound
  | giveBack (v : Value)
  | fault (f : Fault)
  deriving Repr

inductive Control
  | eval (t : Term)
  | value (v : Value)
  | exit (x : Exit)
  deriving Repr

/-- What waits for a value. A frame that ends a scope knows its height. -/
inductive Frame
  /-- Operands, evaluated ones last first, and those still to be evaluated. -/
  | operands (op : Operation) (done : List Value) (pending : List Term)
  | bothRight (b : Term) (position : Position)
  | eitherRight (b : Term) (position : Position)
  | truth (position : Position)
  | branch (yes no : Term) (position : Position)
  | sequence (rest : List Term) (height : Nat)
  | condition (condition body : Term) (position : Position)
  | round (condition : Option Term) (body : Term) (position : Position) (height : Nat)
  | supply (name : Text) (counter : Option Text) (body : Term) (position : Position)
  | pass (name : Text) (counter : Option Text) (rest : Supply) (count : Nat) (body : Term)
      (height : Nat)
  | declare (name : Text)
  | leaveLoop
  | giveBack
  | throwValue (position : Position)
  | guarded (name : Option Text) (handler : Term) (height : Nat)
  | handled (height : Nat)
  | call (name : Text) (position : Position) (scope : Scope)
  deriving Repr

structure Machine (σ : Type) where
  control : Control
  frames : List Frame := []
  scope : Scope := []
  /-- The operations taken so far. -/
  operations : Nat := 0
  /-- The script functions being carried out. -/
  depth : Nat := 0
  /-- The place of the term last taken up. -/
  reached : Position := {}
  host : σ

/-- One step into a value, with the index it takes. -/
inductive Access
  | item (index : Value) (position : Position)
  | field (name : Text) (position : Position)
  deriving Repr

namespace Access

def get : Access → Value → Except (Cause × Position) Value
  | item i p, v => (v.item i).mapError (·, p)
  | field n p, v => (v.property n).mapError (·, p)

def set : Access → Value → Value → Except (Cause × Position) Value
  | item i p, v, new => (v.setItem i new).mapError (·, p)
  | field n p, v, new => (v.setProperty n new).mapError (·, p)

/-- The part of a value at the end of a path. -/
def fetch : List Access → Value → Except (Cause × Position) Value
  | [], v => .ok v
  | a :: path, v => do fetch path (← a.get v)

/-- A value with the part at the end of a path replaced. -/
def update : List Access → Value → Value → Except (Cause × Position) Value
  | [], _, new => .ok new
  | [a], v, new => a.set v new
  | a :: path, v, new => do
    let part ← a.get v
    a.set v (← update path part new)

/-- A path with its indices filled in. -/
def ofPath : List PathStep → List Value → List Access
  | [], _ => []
  | .field n p :: path, vs => field n p :: ofPath path vs
  | .item p :: path, v :: vs => item v p :: ofPath path vs
  | .item p :: path, [] => item .unit p :: ofPath path []

end Access

namespace Machine

variable {σ : Type}

def give (m : Machine σ) (v : Value) : Machine σ := { m with control := .value v }

def leave (m : Machine σ) (x : Exit) : Machine σ := { m with control := .exit x }

def fail (m : Machine σ) (cause : Cause) (position : Position) : Machine σ :=
  m.leave (.fault { cause := cause, position := position })

def take (m : Machine σ) (t : Term) : Machine σ := { m with control := .eval t }

/-- Takes up a term whose value a frame waits for. -/
def into (m : Machine σ) (f : Frame) (t : Term) : Machine σ :=
  { m with control := .eval t, frames := f :: m.frames }

def rewind (m : Machine σ) (height : Nat) : Machine σ := { m with scope := m.scope.rewind height }

def bind (m : Machine σ) (name : Text) (v : Value) : Machine σ :=
  { m with scope := (name, v) :: m.scope }

/-- Goes on with a result, or fails at a place. -/
def settle (m : Machine σ) (position : Position) : Except Cause Value → Machine σ
  | .ok v => m.give v
  | .error cause => m.fail cause position

/-! ### Operations -/

/-- Calls a function of the script, of the host, or of every script, in that order. -/
def callNamed (e : Engine σ) (m : Machine σ) (name : Text) (args : List Value) (p : Position) :
    Machine σ :=
  match e.program.function? name args.length with
  | some f =>
    if callLimit ≤ m.depth then m.fail .tooManyCalls p
    else
      { m with
        control := .eval f.body
        frames := .call name p m.scope :: m.frames
        scope := (f.parameters.zip args).reverse
        depth := m.depth + 1 }
  | none =>
    match e.host.call name args m.host with
    | some (v, host) => { m with control := .value v, host := host }
    | none =>
      match Value.builtin? name args with
      | some v => m.give v
      | none => m.fail (.unknownFunction name (args.map Value.typeName)) p

/-- Calls a method that does not change its value; `call` carries out a closure. -/
def callMethod (e : Engine σ) (m : Machine σ) (v : Value) (name : Text) (args : List Value)
    (p : Position) : Machine σ :=
  match v with
  | .closure function =>
    if name = "call".toList then m.callNamed e function args p else m.callNamed e name (v :: args) p
  | v => m.callNamed e name (v :: args) p

/-- Runs a function on the value of a place, which may be changed. -/
def atPlace (m : Machine σ) (place : Place) (indices : List Value)
    (f : List Access → Value → Value → Machine σ) : Machine σ :=
  match Value.lookup place.root m.scope with
  | none => m.fail (.unknownVariable place.root) place.position
  | some root =>
    let path := Access.ofPath place.path indices
    match Access.fetch path root with
    | .ok part => f path root part
    | .error (cause, p) => m.fail cause p

/-- Replaces the part of a variable at the end of a path. -/
def write (m : Machine σ) (name : Text) (path : List Access) (root new : Value) : Machine σ :=
  match Access.update path root new with
  | .ok v => { m with control := .value .unit, scope := Scope.assign name v m.scope }
  | .error (cause, p) => m.fail cause p

/-- Stores a value in a place. Without an operator the old value is not asked for. -/
def store (m : Machine σ) (place : Place) (op : Option BinaryOp) (p : Position) (v : Value)
    (indices : List Value) : Machine σ :=
  match op with
  | none =>
    match Value.lookup place.root m.scope with
    | none => m.fail (.unknownVariable place.root) place.position
    | some root => m.write place.root (Access.ofPath place.path indices) root v
  | some op =>
    m.atPlace place indices fun path root old =>
      match op.eval old v with
      | .ok new => m.write place.root path root new
      | .error cause => m.fail cause p

def perform (e : Engine σ) (m : Machine σ) (op : Operation) (args : List Value) : Machine σ :=
  match op, args with
  | .array, vs => m.give (.array vs)
  | .map keys, vs => m.give (Value.ofEntries (keys.zip vs))
  | .binary op p, [a, b] => m.settle p (op.eval a b)
  | .negate p, [a] => m.settle p a.negate
  | .complement p, [a] => m.settle p a.complement
  | .range inclusive p, [a, b] => m.settle p (a.makeRange inclusive b)
  | .item p, [v, i] => m.settle p (v.item i)
  | .property name p, [v] => m.settle p (v.property name)
  | .call name p, vs => m.callNamed e name vs p
  | .method name p, v :: vs =>
    match v.changing? name vs with
    | some _ => m.give .unit
    | none => m.callMethod e v name vs p
  | .methodAt place name p, vs =>
    m.atPlace place (vs.take place.indexCount) fun path root v =>
      let args := vs.drop place.indexCount
      match v.changing? name args with
      | some new => m.write place.root path root new
      | none => m.callMethod e v name args p
  | .store place op p, v :: indices => m.store place op p v indices
  | _, _ => m.give .unit

/-! ### Taking up a term -/

/-- Begins a round of a loop, or asks whether there is one. -/
def beginRound (m : Machine σ) (condition : Option Term) (body : Term) (p : Position) : Machine σ :=
  match condition with
  | none => m.into (.round none body p m.scope.length) body
  | some c => m.into (.condition c body p) c

/-- Goes through the next item of a loop, or ends it. -/
def nextPass (m : Machine σ) (name : Text) (counter : Option Text) (rest : Supply) (count : Nat)
    (body : Term) : Machine σ :=
  match rest.next? with
  | none => m.give .unit
  | some (v, rest) =>
    let height := m.scope.length
    let m :=
      match counter with
      | some c => m.bind c (.int (Int64.ofNat count))
      | none => m
    (m.bind name v).into (.pass name counter rest (count + 1) body height) body

def evaluate (e : Engine σ) (m : Machine σ) : Term → Machine σ
  | .constant v => m.give v
  | .variable name p =>
    match Value.lookup name m.scope with
    | some v => m.give v
    | none => m.fail (.unknownVariable name) p
  | .apply op [] => m.perform e op []
  | .apply op (t :: ts) => m.into (.operands op [] ts) t
  | .both a b p => m.into (.bothRight b p) a
  | .either a b p => m.into (.eitherRight b p) a
  | .choose c yes no p => m.into (.branch yes no p) c
  | .block [] _ => m.give .unit
  | .block (t :: ts) _ => m.into (.sequence ts m.scope.length) t
  | .repeatWhile c body p => m.beginRound c body p
  | .forEach name counter items body p => m.into (.supply name counter body p) items
  | .declare name t => m.into (.declare name) t
  | .leaveLoop none => m.leave (.leaveLoop .unit)
  | .leaveLoop (some t) => m.into .leaveLoop t
  | .nextRound => m.leave .nextRound
  | .giveBack none => m.leave (.giveBack .unit)
  | .giveBack (some t) => m.into .giveBack t
  | .throwValue none p => m.fail (.thrown .unit) p
  | .throwValue (some t) p => m.into (.throwValue p) t
  | .guarded body name handler => m.into (.guarded name handler m.scope.length) body

/-- Counts the operation of taking up a term, and takes it up if there is one left. -/
def begin (e : Engine σ) (m : Machine σ) (t : Term) : Machine σ :=
  let m := { m with operations := m.operations + 1, reached := t.position?.getD m.reached }
  if e.maxOperations ≠ 0 ∧ e.maxOperations < m.operations then m.fail .tooManyOperations m.reached
  else m.evaluate e t

/-! ### Going on with a value -/

/-- Goes on with a truth value; anything else is of the wrong type. -/
def onTruth (m : Machine σ) (v : Value) (p : Position) (f : Bool → Machine σ) : Machine σ :=
  match v with
  | .bool b => f b
  | v => m.fail (.wrongType "bool".toList v.typeName) p

/-- Goes on with a value that a frame has waited for. -/
def resume (e : Engine σ) (m : Machine σ) (v : Value) : Frame → Machine σ
  | .operands op done [] => m.perform e op (done.reverse ++ [v])
  | .operands op done (t :: ts) => m.into (.operands op (v :: done) ts) t
  | .bothRight b p =>
    m.onTruth v p fun yes => if yes then m.into (.truth p) b else m.give (.bool false)
  | .eitherRight b p =>
    m.onTruth v p fun yes => if yes then m.give (.bool true) else m.into (.truth p) b
  | .truth p => m.onTruth v p fun b => m.give (.bool b)
  | .branch yes no p => m.onTruth v p fun b => m.take (if b then yes else no)
  | .sequence [] height => (m.rewind height).give v
  | .sequence (t :: ts) height => m.into (.sequence ts height) t
  | .condition c body p =>
    m.onTruth v p fun yes =>
      if yes then m.into (.round (some c) body p m.scope.length) body else m.give .unit
  | .round c body p height => (m.rewind height).beginRound c body p
  | .supply name counter body p =>
    match Supply.of? v with
    | some rest => m.nextPass name counter rest 0 body
    | none => m.fail .notIterable p
  | .pass name counter rest count body height =>
    (m.rewind height).nextPass name counter rest count body
  | .declare name => (m.bind name v).give .unit
  | .leaveLoop => m.leave (.leaveLoop v)
  | .giveBack => m.leave (.giveBack v)
  | .throwValue p => m.fail (.thrown v) p
  | .guarded _ _ height => (m.rewind height).give .unit
  | .handled height => (m.rewind height).give .unit
  | .call _ _ scope => { m with control := .value v, scope := scope, depth := m.depth - 1 }

/-! ### Leaving -/

/-- Leaves through a frame: the innermost loop, function or handler that it is meant for. -/
def unwind (m : Machine σ) (x : Exit) : Frame → Machine σ
  | .round c body p height =>
    match x with
    | .leaveLoop v => (m.rewind height).give v
    | .nextRound => (m.rewind height).beginRound c body p
    | x => m.leave x
  | .pass name counter rest count body height =>
    match x with
    | .leaveLoop v => (m.rewind height).give v
    | .nextRound => (m.rewind height).nextPass name counter rest count body
    | x => m.leave x
  | .guarded name handler height =>
    match x with
    | .fault f =>
      if f.cause.isSystem then m.leave x
      else
        let m := m.rewind height
        let m :=
          match name with
          | some n => m.bind n f.caught
          | none => m
        m.into (.handled height) handler
    | x => m.leave x
  | .call name p scope =>
    let m := { m with scope := scope, depth := m.depth - 1 }
    match x with
    | .giveBack v => m.give v
    | .fault f => m.leave (.fault (f.leaving name p))
    | x => m.leave x
  | _ => m.leave x

/-! ### Steps -/

/-- One step; a machine with nothing left to do stays as it is. -/
def step (e : Engine σ) (m : Machine σ) : Machine σ :=
  match m.control, m.frames with
  | .eval t, _ => m.begin e t
  | .value v, f :: frames => resume e { m with frames := frames } v f
  | .exit x, f :: frames => unwind { m with frames := frames } x f
  | .value _, [] | .exit _, [] => m

/-- How the script has ended, if it has. -/
def ending? (m : Machine σ) : Option (Except Fault Value) :=
  match m.control, m.frames with
  | .value v, [] => some (.ok v)
  | .exit (.fault f), [] => some (.error f)
  | .exit (.giveBack v), [] => some (.ok v)
  | .exit (.leaveLoop _), [] | .exit .nextRound, [] => some (.ok .unit)
  | _, _ => none

/-- At most `n` steps. -/
def run (e : Engine σ) : Nat → Machine σ → Machine σ
  | 0, m => m
  | n + 1, m => if m.ending?.isSome then m else run e n (m.step e)

/-- A machine about to run a program. -/
def start (p : Program) (host : σ) : Machine σ := { control := .eval (.block p.body {}), host := host }

end Machine

end ScriptPad.Script
