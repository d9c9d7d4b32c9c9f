import ScriptPad.Script.Form

/-!
Reading a script. Each form of the language has one reader, which takes the words it is made of and
refuses the first that does not fit. Readers call one another one level down a counter that is as
large as the words can need; how deep an expression nests is counted apart, against a limit of the
language.
-/

namespace ScriptPad.Script

namespace Reader

mutual

/-- An expression. -/
def expression : Nat → Context → Reader Term
  | 0, _ => do refuse .tooDeep (← peek).2
  | fuel + 1, c => do
    let (_, p) ← peek
    let c ← deeper c p
    let t ← operand fuel c
    operators fuel c 1 t p

/-- The operators after an operand that bind more tightly than the one before it. -/
def operators : Nat → Context → Nat → Term → Position → Reader Term
  | 0, _, _, t, _ => pure t
  | fuel + 1, c, least, a, start => do
    let w ← peek
    notReservedSymbol w
    let level := precedence w.1
    if level ≤ least then pure a
    else
      let (op, p) ← next
      let (_, pb) ← peek
      let b ← operand fuel c
      let following ← peek
      notReservedSymbol following
      let b ←
        if level < precedence following.1 then operators fuel (← deeper c following.2) level b pb
        else pure b
      let c ← deeper c p
      operators fuel c least (← binary op p a b start pb) start

/-- An operand: signs and what they stand before. -/
def operand : Nat → Context → Reader Term
  | 0, _ => do refuse .tooDeep (← peek).2
  | fuel + 1, c => do
    match ← peek with
    | (.symbol "-", p) =>
      let _ ← next
      let (w, q) ← peek
      let t ← operand fuel (← deeper c q)
      match w, t with
      | .integer n, .constant _ =>
        if q = p.next '-' then pure (.constant (numberOf (-n)))
        else
          match numberOf n with
          | .int _ => pure (.constant (numberOf (-n)))
          | v => pure (.constant (v.negate.toOption.getD v))
      | _, .constant (.int n) =>
        match int64? (-n.toInt) with
        | some m => pure (.constant (.int m))
        | none => pure (.constant (numberOf (-n.toInt)))
      | _, .constant (.float x) =>
        pure (.constant ((Value.float x).negate.toOption.getD (.float x)))
      | _, t => pure (.apply (.negate p) [t])
    | (.symbol "+", p) =>
      let _ ← next
      let t ← operand fuel (← deeper c p)
      match t with
      | .constant (.int _) | .constant (.float _) => pure t
      | t => pure (.apply (.call ['+'] p) [t])
    | (.symbol "!", p) =>
      let _ ← next
      let t ← operand fuel (← deeper c p)
      pure (.apply (.complement p) [t])
    | _ => primary fuel c

/-- A literal, a name, a form in brackets, or a statement used as an expression, with what follows
it. -/
def primary : Nat → Context → Reader Term
  | 0, _ => do refuse .tooDeep (← peek).2
  | fuel + 1, c => do
    let (w, p) ← peek
    match w with
    | .integer n => do
      let _ ← next
      suffixes fuel c (.constant (numberOf n))
    | .float x => do
      let _ ← next
      suffixes fuel c (.constant (.float x))
    | .character x => do
      let _ ← next
      suffixes fuel c (.constant (.char x))
    | .string x => do
      let _ ← next
      suffixes fuel c (.constant (.text x))
    | .keyword "true" => do
      let _ ← next
      suffixes fuel c (.constant (.bool true))
    | .keyword "false" => do
      let _ ← next
      suffixes fuel c (.constant (.bool false))
    | .symbol "()" => do
      let _ ← next
      suffixes fuel c (.constant .unit)
    | .symbol "(" => do
      let _ ← next
      suffixes fuel c (← parenthesis fuel (← deeper c p))
    | .symbol "[" => do
      let _ ← next
      suffixes fuel c (.apply .array (← items fuel c))
    | .symbol "#\x7b" => do
      let _ ← next
      let entries ← entries fuel c []
      suffixes fuel c (.apply (.map (entries.map (·.1))) (entries.map (·.2)))
    | .symbol "\x7b" => do suffixes fuel c (← block fuel { c with global := false })
    | .keyword "if" => do suffixes fuel c (← conditional fuel c)
    | .keyword "while" | .keyword "loop" | .keyword "for" => do suffixes fuel c (← loop fuel c)
    | .symbol "|" | .symbol "||" => do suffixes fuel c (← closure fuel c)
    | .name t => do
      let _ ← next
      match ← peek with
      | (.symbol "(", _) | (.symbol "()", _) => do
        suffixes fuel c (.apply (.call t p) (← arguments fuel c t))
      | _ => suffixes fuel c (.variable t p)
    | .reserved t => do
      let _ ← next
      match ← peek with
      | (.symbol "(", _) | (.symbol "()", _) =>
        if String.ofList t ∈ Token.callable then
          suffixes fuel c (.apply (.call t p) (← arguments fuel c t))
        else refuse (.reserved t) p
      | _ =>
        if t = "this".toList then refuse .thisOutsideFunction p else refuse (.reserved t) p
    | w => noExpression w p

/-- An expression after an opening parenthesis. -/
def parenthesis : Nat → Context → Reader Term
  | 0, _ => do refuse .tooDeep (← peek).2
  | fuel + 1, c => do
    if ← accept (.symbol ")") then pure (.constant .unit)
    else
      let t ← expression fuel c
      match ← next with
      | (.symbol ")", _) => pure t
      | (w, p) =>
        refuseWord w p (.missing [')'] "for a matching ( in this expression".toList)

/-- Indices, properties and method calls after a term. -/
def suffixes : Nat → Context → Term → Reader Term
  | 0, _, t => pure t
  | fuel + 1, c, t => do
    match ← peek with
    | (.symbol "[", _) => do
      let _ ← next
      let (_, p) ← peek
      let c' ← deeper c p
      let index ← expression fuel c'
      checkIndex t index p
      match ← next with
      | (.symbol "]", _) => suffixes fuel c' (.apply (.item p) [t, index])
      | (w, q) =>
        refuseWord w q (.missing [']'] "for a matching [ in this index expression".toList)
    | (.symbol ".", p) => do
      let _ ← next
      let c' ← deeper c p
      let property (name : Text) (q : Position) : Reader Term := do
        match ← peek with
        | (.symbol "(", _) | (.symbol "()", _) => do
          suffixes fuel c' (methodCall t name q (← arguments fuel c' name))
        | _ => suffixes fuel c' (.apply (.property name q) [t])
      match ← next with
      | (.name name, q) => property name q
      | (.reserved name, q) =>
        if String.ofList name ∈ Token.callable then property name q else refuse (.reserved name) q
      | (w, q) => refuseWord w q .propertyExpected
    | _ => pure t

/-- The arguments of a call, from the opening parenthesis on. -/
def arguments : Nat → Context → Text → Reader (List Term)
  | 0, _, _ => do refuse .tooDeep (← peek).2
  | fuel + 1, c, name => do
    match ← next with
    | (.symbol "()", _) => pure []
    | _ => do
      let close : Refusal :=
        .missing [')'] ("to close the arguments list of this function call '".toList ++ name ++ ['\''])
      match ← peek with
      | (.endOfText, p) => refuse close p
      | (.bad e, p) => refuse (.lexical e) p
      | (.symbol ")", _) => do
        let _ ← next
        pure []
      | (_, p) => moreArguments fuel (← deeper c p) name close

/-- Arguments up to the closing parenthesis, which may follow a comma. -/
def moreArguments : Nat → Context → Text → Refusal → Reader (List Term)
  | 0, _, _, _ => do refuse .tooDeep (← peek).2
  | fuel + 1, c, name, close => do
    if ← accept (.symbol ")") then pure []
    else
      let t ← expression fuel c
      match ← next with
      | (.symbol ")", _) => pure [t]
      | (.symbol ",", _) => do pure (t :: (← moreArguments fuel c name close))
      | (.endOfText, p) => refuse close p
      | (w, p) =>
        refuseWord w p
          (.missing [','] ("to separate the arguments to function call '".toList ++ name ++ ['\'']))

/-- The items of an array up to the closing bracket. -/
def items : Nat → Context → Reader (List Term)
  | 0, _ => do refuse .tooDeep (← peek).2
  | fuel + 1, c => do
    let close : Refusal := .missing [']'] "to end this array literal".toList
    match ← peek with
    | (.symbol "]", _) => do
      let _ ← next
      pure []
    | (.endOfText, p) => refuse close p
    | (_, p) => do
      let t ← expression fuel (← deeper c p)
      match ← peek with
      | (.symbol ",", _) => do
        let _ ← next
        pure (t :: (← items fuel c))
      | (.symbol "]", _) => do pure (t :: (← items fuel c))
      | (.endOfText, p) => refuse close p
      | (w, p) =>
        refuseWord w p (.missing [','] "to separate the items of this array literal".toList)

/-- The entries of a map up to the closing brace; `seen` are the keys so far. -/
def entries : Nat → Context → List Text → Reader (List (Text × Term))
  | 0, _, _ => do refuse .tooDeep (← peek).2
  | fuel + 1, c, seen => do
    let close : Refusal := .missing ['\x7d'] "to end this object map literal".toList
    let entry (key : Text) (p : Position) : Reader (List (Text × Term)) := do
      if key ∈ seen then refuse (.duplicateProperty key) p
      match ← next with
      | (.symbol ":", _) => pure ()
      | (w, q) =>
        refuseWord w q
          (.missing [':']
            ("to follow the property '".toList ++ key ++ "' in this object map literal".toList))
      let (_, q) ← peek
      let t ← expression fuel (← deeper c q)
      match ← peek with
      | (.symbol ",", _) => do
        let _ ← next
        pure ((key, t) :: (← entries fuel c (key :: seen)))
      | (.symbol "\x7d", _) => do pure ((key, t) :: (← entries fuel c (key :: seen)))
      | (.name _, q) =>
        refuse (.missing [','] "to separate the items of this object map literal".toList) q
      | (w, q) => refuseWord w q close
    match ← next with
    | (.symbol "\x7d", _) => pure []
    | (.name key, p) | (.string key, p) => entry key p
    | (.reserved t, p) => refuse (.reserved t) p
    | (.endOfText, p) => refuse close p
    | (w, p) => refuseWord w p (if seen = [] then close else .propertyExpected)

/-- A block in braces. -/
def block : Nat → Context → Reader Term
  | 0, _ => do refuse .tooDeep (← peek).2
  | fuel + 1, c => do
    match ← next with
    | (.symbol "\x7b", p) => do
      let c ← deeper { c with global := false } p
      let body ← isolated (blockItems fuel c)
      pure (.block (Term.statements body) p)
    | (w, p) => refuseWord w p (.missing ['\x7b'] "to start a statement block".toList)

/-- Statements up to the closing brace. -/
def blockItems : Nat → Context → Reader (List Term)
  | 0, _ => do refuse .tooDeep (← peek).2
  | fuel + 1, c => do
    match ← peek with
    | (.symbol "\x7d", _) => do
      let _ ← next
      pure []
    | (.endOfText, p) => refuse (.missing ['\x7d'] "to terminate this block".toList) p
    | _ => do
      match ← statement fuel c with
      | none => blockItems fuel c
      | some (t, closed) => do
        match ← peek with
        | (.symbol "\x7d", _) => pure ()
        | (.symbol ";", _) => let _ ← next
        | (w, p) =>
          if closed then pure ()
          else refuseWord w p (.missing [';'] "to terminate this statement".toList)
        pure (t :: (← blockItems fuel c))

/-- One statement, if there is one, and whether it needs no semicolon after it. -/
def statement : Nat → Context → Reader (Option (Term × Bool))
  | 0, _ => do refuse .tooDeep (← peek).2
  | fuel + 1, c => do
    let (w, p) ← peek
    match w with
    | .endOfText => pure none
    | .symbol ";" => do
      let _ ← next
      pure none
    | .symbol "\x7b" => do pure (some (← block fuel c, true))
    | .keyword "fn" | .keyword "private" => do
      if !c.global then refuse .nestedFunction p
      let _ ← next
      if w = .keyword "private" then
        match ← next with
        | (.keyword "fn", _) => pure ()
        | (_, q) => refuse (.missing "fn".toList "following 'private'".toList) q
      function fuel c
      pure none
    | .keyword "if" => do pure (some (← conditional fuel c, true))
    | .keyword "while" | .keyword "loop" | .keyword "for" => do pure (some (← loop fuel c, true))
    | .keyword "continue" => do
      if !c.looping then refuse .breakOutsideLoop p
      let _ ← next
      pure (some (.nextRound, false))
    | .keyword "break" => do
      if !c.looping then refuse .breakOutsideLoop p
      let _ ← next
      match (← peek).1 with
      | .endOfText | .symbol ";" | .symbol "\x7d" => pure (some (.leaveLoop none, false))
      | _ => do pure (some (.leaveLoop (some (← expression fuel (← deeper c p))), false))
    | .keyword "return" => do
      let _ ← next
      if endsStatement c (← peek).1 then pure (some (.giveBack none, false))
      else pure (some (.giveBack (some (← expression fuel (← deeper c p))), false))
    | .keyword "throw" => do
      let _ ← next
      if endsStatement c (← peek).1 then pure (some (.throwValue none p, false))
      else pure (some (.throwValue (some (← expression fuel (← deeper c p))) p, false))
    | .keyword "try" => do pure (some (← guarded fuel c, true))
    | .keyword "let" => do pure (some (← declaration fuel c false, false))
    | .keyword "const" => do pure (some (← declaration fuel c true, false))
    | _ => do
      let t ← expression fuel c
      let (w, q) ← peek
      match assignment? w with
      | none => pure (some (t, false))
      | some op => do
        let _ ← next
        let value ← expression fuel c
        let (place, indices) ← assignable t p op q
        pure (some (.apply (.store place op q) (value :: indices), false))

/-- A declaration of a variable or a constant. -/
def declaration : Nat → Context → Bool → Reader Term
  | 0, _, _ => do refuse .tooDeep (← peek).2
  | fuel + 1, c, constant => do
    let (_, p) ← next
    let c ← deeper c p
    let (name, _) ← variableName
    let value ← if ← accept (.symbol "=") then expression fuel c else pure (.constant .unit)
    declare name constant
    pure (.declare name value)

/-- A conditional, with its branches. -/
def conditional : Nat → Context → Reader Term
  | 0, _ => do refuse .tooDeep (← peek).2
  | fuel + 1, c => do
    let (_, p) ← next
    let c ← deeper c p
    notBlock
    let (_, q) ← peek
    let condition ← asCondition (← expression fuel c) q
    notAssignment
    let yes ← block fuel c
    let no ←
      if ← accept (.keyword "else") then
        match ← peek with
        | (.keyword "if", _) => conditional fuel c
        | _ => block fuel c
      else pure (.constant .unit)
    pure (.choose condition yes no q)

/-- A loop of one of the three kinds. -/
def loop : Nat → Context → Reader Term
  | 0, _ => do refuse .tooDeep (← peek).2
  | fuel + 1, c => do
    let (w, p) ← next
    let c ← deeper c p
    let inside := { c with looping := true }
    match w with
    | .keyword "while" => do
      notBlock
      let (_, q) ← peek
      let condition ← asCondition (← expression fuel c) q
      notAssignment
      let body ← block fuel inside
      match condition with
      | .constant (.bool true) => pure (.repeatWhile none body.unused q)
      | condition => pure (.repeatWhile (some condition) body.unused q)
    | .keyword "for" => do
      let (name, counter) ←
        if ← accept (.symbol "(") then do
          let (name, _) ← variableName
          match ← next with
          | (.symbol ",", _) => pure ()
          | (w, q) => refuseWord w q (.missing [','] "after the iteration variable name".toList)
          let (counter, r) ← variableName
          if counter = name then refuse (.duplicateVariable counter) r
          match ← next with
          | (.symbol ")", _) => pure ()
          | (w, q) => refuseWord w q (.missing [')'] "to close the iteration variable".toList)
          pure (name, some counter)
        else do
          let (name, _) ← variableName
          pure (name, none)
      match ← next with
      | (.keyword "in", _) => pure ()
      | (w, q) => refuseWord w q (.missing "in".toList "after the iteration variable".toList)
      notBlock
      let (_, q) ← peek
      let items ← expression fuel c
      match items with
      | .constant (.bool _) => refuse (.mismatch "an iterable value".toList "a boolean".toList) q
      | .constant (.text _) | .apply .array _ => pure ()
      | items =>
        match literalKind? items with
        | some kind => refuse (.mismatch "an iterable value".toList kind) q
        | none => pure ()
      let body ← isolated do
        if let some n := counter then declare n false
        declare name false
        block fuel inside
      pure (.forEach name counter items body.unused q)
    | _ => do pure (.repeatWhile none (← block fuel inside).unused p)

/-- A block with a handler for what goes wrong in it. -/
def guarded : Nat → Context → Reader Term
  | 0, _ => do refuse .tooDeep (← peek).2
  | fuel + 1, c => do
    let (_, p) ← next
    let c ← deeper c p
    let body ← block fuel c
    match ← next with
    | (.keyword "catch", _) => pure ()
    | (_, q) => refuse (.missing "catch".toList "for the 'try' statement".toList) q
    let name ←
      if ← accept (.symbol "(") then do
        let (name, _) ← variableName
        match ← next with
        | (.symbol ")", _) => pure (some name)
        | (w, q) => refuseWord w q (.missing [')'] "to enclose the catch variable".toList)
      else pure none
    let handler ← isolated do
      if let some n := name then declare n false
      block fuel c
    pure (.guarded body.unused name handler.unused)

/-- A function after its keyword. It sees its parameters and no other variables. -/
def function : Nat → Context → Reader Unit
  | 0, _ => do refuse .tooDeep (← peek).2
  | fuel + 1, c => do
    let (w, p) ← next
    let name ←
      match w with
      | .name t => pure t
      | .reserved t =>
        if String.ofList t ∈ Token.callable then pure t else refuse (.reserved t) p
      | _ => refuse .functionNameExpected p
    let (w, q) ← peek
    let ps ←
      match w with
      | .symbol "()" => do
        let _ ← next
        pure []
      | .symbol "(" => do
        let _ ← next
        parameters fuel name ")" []
      | _ => refuse (.parametersExpected name) q
    match ← peek with
    | (.symbol "\x7b", _) => pure ()
    | (_, q) => refuse (.bodyExpected name) q
    let outside := (← get).names
    modify fun s => { s with names := ps.map (·, false) }
    let body ← block fuel { maxDepth := c.maxDepth, global := false }
    modify fun s => { s with names := outside }
    if (← get).functions.any fun f => f.name == name && f.parameters.length == ps.length then
      refuse (.duplicateFunction name ps.length) p
    modify fun s => { s with functions := s.functions ++ [⟨name, ps, body⟩] }

/-- Parameters up to the closing symbol; `seen` are the ones so far, last first. -/
def parameters : Nat → Text → String → List Text → Reader (List Text)
  | 0, _, _, _ => do refuse .tooDeep (← peek).2
  | fuel + 1, name, close, seen => do
    let owner : Text := " of function '".toList ++ name ++ ['\'']
    match ← next with
    | (.name t, p) => do
      if t ∈ seen then refuse (.duplicateParameter t name) p
      match ← next with
      | (.symbol s, q) =>
        if s = close then pure (t :: seen).reverse
        else if s = "," then parameters fuel name close (t :: seen)
        else refuse (.missing [','] ("to separate the parameters".toList ++ owner)) q
      | (w, q) => refuseWord w q (.missing [','] ("to separate the parameters".toList ++ owner))
    | (w, p) =>
      if w = .symbol close then pure seen.reverse
      else
        refuseWord w p (.missing close.toList ("to close the parameters list".toList ++ owner))

/-- A function without a name, kept under one that no script can write. -/
def closure : Nat → Context → Reader Term
  | 0, _ => do refuse .tooDeep (← peek).2
  | fuel + 1, c => do
    let (w, p) ← next
    let name := "anon$".toList ++ Text.ofNat (← get).functions.length
    let ps ← if w = .symbol "||" then pure [] else parameters fuel name "|" []
    let outside := (← get).names
    modify fun s => { s with names := ps.map (·, false) }
    let body ← statement fuel { maxDepth := c.maxDepth, global := false }
    modify fun s => { s with names := outside }
    match body with
    | some (t, _) =>
      modify fun s => { s with functions := s.functions ++ [⟨name, ps, t⟩] }
      pure (.constant (.closure name))
    | none => refuse .incomplete p

end

/-- The statements of a whole script. -/
def script : Nat → Context → Reader (List Term)
  | 0, _ => do refuse .tooDeep (← peek).2
  | fuel + 1, c => do
    match ← peek with
    | (.endOfText, _) => pure []
    | _ => do
      match ← statement (16 * (fuel + 1)) c with
      | none => script fuel c
      | some (t, closed) => do
        match ← peek with
        | (.endOfText, _) => pure ()
        | (.symbol ";", _) => if !closed then let _ ← next
        | (w, p) =>
          if closed then pure ()
          else refuseWord w p (.missing [';'] "to terminate this statement".toList)
        pure (t :: (← script fuel c))

end Reader

/-- The program of a script, or why it is refused. Expressions and functions may nest as deep as
`maxDepth`; zero is no limit. -/
def Program.ofText (maxDepth : Nat) (source : Text) : Except ParseError Program := do
  let words := Token.ofText source
  let (body, s) ← (Reader.script (words.length + 1) { maxDepth := maxDepth }).run { words := words }
  pure ⟨Term.statements body, s.functions⟩

end ScriptPad.Script
