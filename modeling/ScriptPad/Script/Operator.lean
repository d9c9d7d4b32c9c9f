import ScriptPad.Script.Fault

/-!
The operators and the functions every script has. Integer arithmetic is exact or fails; a text on
either side of a plus joins texts; values of different types are never equal and never in order.
-/

namespace ScriptPad.Script

/-- A whole number as a 64-bit word, if it fits. -/
def int64? (n : Int) : Option Int64 :=
  if Int64.minValue.toInt ≤ n ∧ n ≤ Int64.maxValue.toInt then some (Int64.ofInt n) else none

namespace BinaryOp

/-- A result that has to fit a 64-bit word. -/
def fitting (op : BinaryOp) (a b : Int64) (n : Int) : Except Cause Value :=
  match int64? n with
  | some r => .ok (.int r)
  | none => .error (.overflow op a b)

/-- Whether a comparison holds of two values in an order. -/
def holds (op : BinaryOp) (o : Ordering) : Bool :=
  match op with
  | eq => o.isEq
  | ne => !o.isEq
  | lt => o.isLT
  | le => o.isLE
  | gt => o.isGT
  | ge => o.isGE
  | _ => false

def onInts (op : BinaryOp) (a b : Int64) : Except Cause Value :=
  match op with
  | add => op.fitting a b (a.toInt + b.toInt)
  | sub => op.fitting a b (a.toInt - b.toInt)
  | mul => op.fitting a b (a.toInt * b.toInt)
  | div => if b = 0 then .error (.divisionByZero a b) else op.fitting a b (a.toInt.tdiv b.toInt)
  | mod =>
    if b = 0 ∨ (b = -1 ∧ int64? (-a.toInt) = none) then .error (.overflow op a b)
    else op.fitting a b (a.toInt.tmod b.toInt)
  | _ => .ok (.bool (op.holds (compare a.toInt b.toInt)))

def orderTexts (a b : Text) : Ordering := if a = b then .eq else if a < b then .lt else .gt

/-- What an operator gives on values that it has no rule for. -/
def elsewhere (op : BinaryOp) (a b : Value) : Except Cause Value :=
  match op with
  | eq | lt | le | gt | ge => .ok (.bool false)
  | ne => .ok (.bool true)
  | _ => .error (.unknownFunction op.symbol [a.typeName, b.typeName])

/-- What an operator gives on two values that are equal or not, and not in any order. -/
def onUnordered (op : BinaryOp) (a b : Value) : Except Cause Value :=
  match op with
  | eq => .ok (.bool (a == b))
  | ne => .ok (.bool (a != b))
  | _ => op.elsewhere a b

def onTexts (op : BinaryOp) (s t : Text) (a b : Value) : Except Cause Value :=
  match op with
  | add => .ok (.text (s ++ t))
  | sub | mul | div | mod => op.elsewhere a b
  | _ => .ok (.bool (op.holds (orderTexts s t)))

def eval (op : BinaryOp) (a b : Value) : Except Cause Value :=
  match a, b with
  | .int m, .int n => op.onInts m n
  | .text s, .text t => op.onTexts s t a b
  | .char c, .char d => op.onTexts [c] [d] a b
  | .text s, _ => if op = add then .ok (.text (s ++ b.render)) else op.elsewhere a b
  | _, .text t => if op = add then .ok (.text (a.render ++ t)) else op.elsewhere a b
  | .array xs, .array ys => if op = add then .ok (.array (xs ++ ys)) else op.onUnordered a b
  | .bool _, .bool _ | .unit, .unit | .map _, .map _ | .float _, .float _ => op.onUnordered a b
  | _, _ => op.elsewhere a b

end BinaryOp

namespace Value

def negate : Value → Except Cause Value
  | int n =>
    match int64? (-n.toInt) with
    | some r => .ok (.int r)
    | none => .error (.negationOverflow n)
  | float ('-' :: digits) => .ok (.float digits)
  | float digits => .ok (.float ('-' :: digits))
  | v => .error (.unknownFunction ['-'] [v.typeName])

def complement : Value → Except Cause Value
  | bool b => .ok (.bool !b)
  | v => .error (.unknownFunction ['!'] [v.typeName])

def makeRange (inclusive : Bool) : Value → Value → Except Cause Value
  | int lo, int hi => .ok (.range lo hi inclusive)
  | a, b =>
    .error (.unknownFunction (if inclusive then "..=".toList else "..".toList)
      [a.typeName, b.typeName])

/-- The place that an index means among `size` items; a negative index counts from the end. -/
def place? (index : Int64) (size : Nat) : Option Nat :=
  let i := if index < 0 then index.toInt + size else index.toInt
  if 0 ≤ i ∧ i < size then some i.toNat else none

/-- The item of a value at an index. -/
def item (v index : Value) : Except Cause Value :=
  match v, index with
  | array items, int i =>
    match (place? i items.length).bind (items[·]?) with
    | some x => .ok x
    | none => .error (.arrayBounds i items.length)
  | text t, int i =>
    match (place? i t.length).bind (t[·]?) with
    | some c => .ok (.char c)
    | none => .error (.textBounds i t.length)
  | map entries, text key => .ok ((lookup key entries).getD .unit)
  | v, i => .error (.notIndexable v.typeName i.typeName)

/-- A value with the item at an index replaced. -/
def setItem (v index new : Value) : Except Cause Value :=
  match v, index with
  | array items, int i =>
    match place? i items.length with
    | some n => .ok (.array (items.set n new))
    | none => .error (.arrayBounds i items.length)
  | text t, int i =>
    match place? i t.length, new with
    | some n, char c => .ok (.text (t.set n c))
    | some _, _ => .error (.wrongType "char".toList new.typeName)
    | none, _ => .error (.textBounds i t.length)
  | map entries, text key => .ok (.map (put key new entries))
  | v, i => .error (.notIndexable v.typeName i.typeName)

/-- The number of items of a value that has any. -/
def size? : Value → Option Nat
  | array items => some items.length
  | map entries => some entries.length
  | text t => some t.length
  | _ => none

/-- A property of a value. What a map does not have is the unit value. -/
def property (v : Value) (name : Text) : Except Cause Value :=
  match v with
  | map entries => .ok ((lookup name entries).getD .unit)
  | v =>
    match v.size? with
    | some n =>
      if name = "len".toList then .ok (.int (Int64.ofNat n))
      else .error (.unknownProperty name v.typeName)
    | none => .error (.unknownProperty name v.typeName)

def setProperty (v : Value) (name : Text) (new : Value) : Except Cause Value :=
  match v with
  | map entries => .ok (.map (put name new entries))
  | v => .error (.readOnlyProperty name v.typeName)

/-- The functions that every script has. -/
def builtin? (name : Text) (args : List Value) : Option Value :=
  match args with
  | [v] => if name = "len".toList then v.size?.map fun n => .int (Int64.ofNat n) else none
  | _ => none

/-- The methods that change the value they are called on. -/
def changing? (name : Text) (v : Value) (args : List Value) : Option Value :=
  match v, args with
  | array items, [x] => if name = "push".toList then some (.array (items ++ [x])) else none
  | _, _ => none

end Value

end ScriptPad.Script
