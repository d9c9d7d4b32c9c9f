import ScriptPad.Text.Quoted

/-!
The values a script computes with, their type names and their text. Integers are 64-bit words. The
entries of a map are kept in the order of their keys. At the top level a text shows as itself and
the unit value as nothing; inside an array or a map both show in their written form.
-/

namespace ScriptPad.Script

inductive Value
  | unit
  | bool (b : Bool)
  | int (n : Int64)
  /-- A number with a fraction, known by its digits alone. -/
  | float (digits : Text)
  | char (c : Char)
  | text (t : Text)
  | array (items : List Value)
  | map (entries : List (Text × Value))
  | range (lo hi : Int64) (inclusive : Bool)
  /-- A function without a name of its own, by the name it is kept under. -/
  | closure (name : Text)
  deriving Repr, BEq, Inhabited

namespace Value

/-- The name of a value's type as error messages give it. -/
def typeName : Value → Text
  | unit => "()".toList
  | bool _ => "bool".toList
  | int _ => "i64".toList
  | float _ => "f64".toList
  | char _ => "char".toList
  | text _ => "&str | ImmutableString | String".toList
  | array _ => "array".toList
  | map _ => "map".toList
  | range _ _ _ => "range".toList
  | closure _ => "Fn".toList

def renderBool (b : Bool) : Text := if b then "true".toList else "false".toList

/-- Texts one after another with a comma and a space between. -/
def joined : List Text → Text
  | [] => []
  | [t] => t
  | t :: ts => t ++ ", ".toList ++ joined ts

mutual

/-- The written form of a value, as it shows inside an array or a map. -/
def written : Value → Text
  | unit => "()".toList
  | bool b => renderBool b
  | int n => Text.ofInt n.toInt
  | float digits => digits
  | char c => Text.quotedChar c
  | text t => t.quoted
  | array items => '[' :: joined (writtenItems items) ++ [']']
  | map entries => '#' :: '\x7b' :: joined (writtenEntries entries) ++ ['\x7d']
  | range lo hi inclusive =>
    Text.ofInt lo.toInt ++ (if inclusive then "..=".toList else "..".toList) ++ Text.ofInt hi.toInt
  | closure name => "Fn(".toList ++ name ++ [')']

def writtenItems : List Value → List Text
  | [] => []
  | v :: vs => written v :: writtenItems vs

def writtenEntries : List (Text × Value) → List Text
  | [] => []
  | (k, v) :: es => (k.quoted ++ ':' :: ' ' :: written v) :: writtenEntries es

end

/-- The text of a value that is printed or joined to a text. -/
def render : Value → Text
  | unit => []
  | text t => t
  | char c => [c]
  | v => v.written

/-- The text of the value a script ends with. -/
def renderResult : Value → Text
  | unit => "()".toList
  | v => v.render

/-- The value under a key. -/
def lookup (key : Text) : List (Text × Value) → Option Value
  | [] => none
  | (k, v) :: rest => if k = key then some v else lookup key rest

/-- Puts a value under a key, in place of the one that is there. -/
def put (key : Text) (value : Value) : List (Text × Value) → List (Text × Value)
  | [] => [(key, value)]
  | (k, v) :: rest =>
    if k = key then (key, value) :: rest
    else if key < k then (key, value) :: (k, v) :: rest
    else (k, v) :: put key value rest

/-- A map of keys and values, later ones winning. -/
def ofEntries (entries : List (Text × Value)) : Value :=
  map (entries.foldl (fun m e => put e.1 e.2 m) [])

end Value

end ScriptPad.Script
