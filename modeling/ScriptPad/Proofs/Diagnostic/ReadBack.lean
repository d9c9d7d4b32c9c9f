import Mathlib.Data.List.TakeWhile
import ScriptPad.Diagnostic.Json

/-!
What a reader of JSON makes of printed markers. The reader knows nothing of how markers are printed: it
skips blanks wherever they may stand, undoes escapes, takes records of texts and numbers as they come, and
looks for the fields of a marker by their names. It finds the markers that were printed, in order, so a
printed list stands for these and for no others.

Each printer has its reader. That the one undoes the other is said with any text after what is printed
(`Json.Reads`), and so it passes from the parts to the whole.
-/

namespace ScriptPad

namespace Json

inductive Value
  | text (t : Text)
  | number (n : Nat)
  deriving DecidableEq, Repr

abbrev Record := List (Text × Value)

/-- What is read at the start of a text, and the rest. -/
abbrev Reader (α : Type) := Text → Option (α × Text)

/-! ### The reader -/

def isBlank (c : Char) : Bool := c == ' ' || c == '\n' || c == '\r' || c == '\t'

def skip (t : Text) : Text := t.dropWhile isBlank

/-- The text after a sign, with blanks before it. -/
def sign? (c : Char) (t : Text) : Option Text :=
  match skip t with
  | [] => none
  | d :: t => if d = c then some t else none

def hexDigit? (c : Char) : Option Nat :=
  if c.isDigit then some (c.toNat - '0'.toNat)
  else if 'a' ≤ c ∧ c ≤ 'f' then some (c.toNat - 'a'.toNat + 10)
  else if 'A' ≤ c ∧ c ≤ 'F' then some (c.toNat - 'A'.toNat + 10)
  else none

/-- What a character stands for after a backslash. -/
def escaped? (c : Char) : Option Char :=
  if c = '"' ∨ c = '\\' ∨ c = '/' then some c
  else if c = 'n' then some '\n'
  else if c = 'r' then some '\r'
  else if c = 't' then some '\t'
  else if c = 'b' then some '\x08'
  else if c = 'f' then some '\x0c'
  else none

/-- Where a reader is in a text between quotes: between two characters, after a backslash, or in the
number of a character, with some digits to come after the next. -/
inductive Place
  | between
  | backslash
  | code (more value : Nat)

def prepend (c : Char) : Text × Text → Text × Text := Prod.map (c :: ·) id

/-- The text up to the closing quote. -/
def body : Place → Reader Text
  | _, [] => none
  | .between, c :: t =>
    if c = '"' then some ([], t)
    else if c = '\\' then body .backslash t
    else (body .between t).map (prepend c)
  | .backslash, c :: t =>
    if c = 'u' then body (.code 3 0) t
    else (escaped? c).bind fun e => (body .between t).map (prepend e)
  | .code more value, c :: t =>
    (hexDigit? c).bind fun d =>
      match more with
      | 0 => (body .between t).map (prepend (Char.ofNat (16 * value + d)))
      | more + 1 => body (.code more (16 * value + d)) t

def number (t : Text) : Option (Nat × Text) :=
  if t.takeWhile Char.isDigit = [] then none
  else some (Nat.ofDigitChars 10 (t.takeWhile Char.isDigit) 0, t.dropWhile Char.isDigit)

def value (t : Text) : Option (Value × Text) :=
  match sign? '"' t with
  | some t => (body .between t).map (Prod.map .text id)
  | none => (number (skip t)).map (Prod.map .number id)

def member (t : Text) : Option ((Text × Value) × Text) := do
  let t ← sign? '"' t
  let (key, t) ← body .between t
  let t ← sign? ':' t
  let (v, t) ← value t
  pure ((key, v), t)

variable {α : Type}

/-- The items after the first one, each after a comma, and the closing sign. At most `n` signs are
read. -/
def more (item : Reader α) (closing : Char) : Nat → Reader (List α)
  | 0, _ => none
  | n + 1, t =>
    match sign? ',' t with
    | some t => do
      let (a, t) ← item t
      let (as, t) ← more item closing n t
      pure (a :: as, t)
    | none => (sign? closing t).map ([], ·)

def list (item : Reader α) (opening closing : Char) (t : Text) : Option (List α × Text) := do
  let t ← sign? opening t
  match sign? closing t with
  | some t => pure ([], t)
  | none =>
    let (a, t) ← item t
    let (as, t) ← more item closing t.length t
    pure (a :: as, t)

def record : Reader Record := list member '\x7b' '\x7d'

/-- A text that is a list of records and nothing else. -/
def records? (t : Text) : Option (List Record) :=
  match list record '[' ']' t with
  | some (rs, t) => if skip t = [] then some rs else none
  | none => none

/-- The text of a field. -/
def textOf? (key : Text) (r : Record) : Option Text :=
  match r.lookup key with
  | some (.text t) => some t
  | _ => none

/-- The number of a field. -/
def numberOf? (key : Text) (r : Record) : Option Nat :=
  match r.lookup key with
  | some (.number n) => some n
  | _ => none

end Json

namespace Marker

def severity? (t : Text) : Option Severity :=
  if t = "Error".toList then some .error
  else if t = "Warning".toList then some .warning
  else none

/-- The marker whose fields a record has. -/
def ofRecord? (r : Json.Record) : Option Marker := do
  let startLine ← Json.numberOf? "startLine".toList r
  let endLine ← Json.numberOf? "endLine".toList r
  let startColumn ← Json.numberOf? "startColumn".toList r
  let endColumn ← Json.numberOf? "endColumn".toList r
  let message ← Json.textOf? "message".toList r
  let severity ← (Json.textOf? "severity".toList r).bind severity?
  pure { startLine, endLine, startColumn, endColumn, message, severity }

/-- The markers of a text that is a list of them and nothing else. -/
def read? (t : Text) : Option (List Marker) := (Json.records? t).bind (·.mapM ofRecord?)

end Marker

namespace Json

variable {α : Type}

/-! ### Blanks and signs -/

theorem skip_cons {c : Char} (h : isBlank c = false) (t : Text) : skip (c :: t) = c :: t := by
  rw [skip, List.dropWhile_cons_of_neg (by simp [h])]

@[simp] theorem sign?_space (c : Char) (t : Text) : sign? c (' ' :: t) = sign? c t := rfl

@[simp] theorem sign?_newline (c : Char) (t : Text) : sign? c ('\n' :: t) = sign? c t := rfl

theorem sign?_cons {c d : Char} (h : isBlank d = false) (t : Text) :
    sign? c (d :: t) = if d = c then some t else none := by
  rw [sign?, skip_cons h]

theorem sign?_self {c : Char} (h : isBlank c = false) (t : Text) : sign? c (c :: t) = some t := by
  rw [sign?_cons h, if_pos rfl]

theorem sign?_of_ne {c d : Char} (h : isBlank d = false) (hne : d ≠ c) (t : Text) :
    sign? c (d :: t) = none := by
  rw [sign?_cons h, if_neg hne]

/-! ### Reading back -/

/-- Nothing of a number comes next. -/
def Ends (rest : Text) : Prop := ∀ c ∈ rest.head?, c.isDigit = false

theorem ends_cons {c : Char} (h : c.isDigit = false) (t : Text) : Ends (c :: t) := by
  intro d hd
  obtain rfl := Option.some.inj hd
  exact h

/-- The reader takes all of the printed text and gives `a`, whatever comes after. -/
def Reads (r : Reader α) (printed : Text) (a : α) : Prop :=
  ∀ rest, Ends rest → r (printed ++ rest) = some (a, rest)

theorem hexDigit?_digitChar {d : Nat} (h : d < 16) : hexDigit? d.digitChar = some d := by
  revert d
  decide

theorem padded_hex {n : Nat} (h : n < 32) :
    List.replicate (4 - (Text.hex n).length) '0' ++ Text.hex n =
      ['0', '0', (n / 16).digitChar, (n % 16).digitChar] := by
  revert n
  decide

theorem body_code {n : Nat} (h : n < 32) (t : Text) :
    body .backslash ('u' :: '0' :: '0' :: (n / 16).digitChar :: (n % 16).digitChar :: t) =
      (body .between t).map (prepend (Char.ofNat n)) := by
  have hzero : hexDigit? '0' = some 0 := by decide
  have hhigh : hexDigit? (n / 16).digitChar = some (n / 16) := hexDigit?_digitChar (by omega)
  have hlow : hexDigit? (n % 16).digitChar = some (n % 16) := hexDigit?_digitChar (by omega)
  have hn : 16 * (n / 16) + n % 16 = n := Nat.div_add_mod n 16
  simp [body, hzero, hhigh, hlow, hn]

theorem body_jsonChar (c : Char) (t : Text) :
    body .between (Marker.jsonChar c ++ t) = (body .between t).map (prepend c) := by
  unfold Marker.jsonChar
  split_ifs with hquote hn hr ht hb hf hcode
  · rcases hquote with rfl | rfl <;> rfl
  · obtain rfl := hn
    rfl
  · obtain rfl := hr
    rfl
  · obtain rfl := ht
    rfl
  · obtain rfl := hb
    rfl
  · obtain rfl := hf
    rfl
  · rw [List.append_assoc "\\u".toList, padded_hex hcode]
    exact (body_code hcode t).trans (by rw [Char.ofNat_toNat])
  · obtain ⟨hclose, hback⟩ := not_or.1 hquote
    rw [List.singleton_append, body, if_neg hclose, if_neg hback]

theorem body_jsonString (t rest : Text) :
    body .between (t.flatMap Marker.jsonChar ++ '"' :: rest) = some (t, rest) := by
  induction t with
  | nil => rfl
  | cons c t ih =>
      rw [List.flatMap_cons, List.append_assoc, body_jsonChar, ih]
      rfl

theorem reads_number (n : Nat) : Reads number (Text.ofNat n) n := by
  intro rest hrest
  have hdigits : ∀ c ∈ Text.ofNat n, c.isDigit = true := fun c hc =>
    Nat.isDigit_of_mem_toDigits (by decide) (by decide) hc
  have htake : rest.takeWhile Char.isDigit = [] := by
    cases rest with
    | nil => rfl
    | cons c rest => exact List.takeWhile_cons_of_neg (by simp [hrest c rfl])
  have hdrop : rest.dropWhile Char.isDigit = rest := by
    cases rest with
    | nil => rfl
    | cons c rest => exact List.dropWhile_cons_of_neg (by simp [hrest c rfl])
  have hne : Text.ofNat n ≠ [] := Nat.toDigits_ne_nil
  have hvalue : Nat.ofDigitChars 10 (Text.ofNat n) 0 = n := Nat.ofDigitChars_ten_toDigits
  rw [number, List.takeWhile_append_of_pos hdigits, List.dropWhile_append_of_pos hdigits, htake, hdrop,
    List.append_nil, if_neg hne, hvalue]

theorem not_blank_of_isDigit {c : Char} (h : c.isDigit = true) : isBlank c = false ∧ c ≠ '"' := by
  refine ⟨Bool.eq_false_iff.2 fun hblank => ?_, ?_⟩
  · simp only [isBlank, Bool.or_eq_true, beq_iff_eq] at hblank
    rcases hblank with ((rfl | rfl) | rfl) | rfl <;> cases h
  · rintro rfl
    cases h

/-- How a value is printed. -/
def Value.printed : Value → Text
  | .text t => Marker.jsonString t
  | .number n => Text.ofNat n

theorem reads_value (v : Value) : Reads value v.printed v := by
  intro rest hrest
  cases v with
  | text t =>
      show value ('"' :: t.flatMap Marker.jsonChar ++ ['"'] ++ rest) = _
      rw [List.append_assoc, List.cons_append, value, sign?_self (by decide)]
      show (body .between (t.flatMap Marker.jsonChar ++ '"' :: rest)).map _ = _
      rw [body_jsonString]
      rfl
  | number n =>
      obtain ⟨d, ds, hds⟩ : ∃ d ds, Text.ofNat n = d :: ds :=
        List.exists_cons_of_ne_nil Nat.toDigits_ne_nil
      have hdigit : d.isDigit = true :=
        Nat.isDigit_of_mem_toDigits (b := 10) (n := n) (by decide) (by decide) (by
          rw [show Nat.toDigits 10 n = d :: ds from hds]
          exact List.mem_cons_self)
      obtain ⟨hblank, hquote⟩ := not_blank_of_isDigit hdigit
      have hnumber := reads_number n rest hrest
      show value (Text.ofNat n ++ rest) = _
      rw [hds, List.cons_append] at hnumber ⊢
      rw [value, sign?_of_ne hblank hquote, skip_cons hblank, hnumber]
      rfl

/-- How a member of a record is printed. -/
def printedMember (f : Text × Value) : Text :=
  "    ".toList ++ Marker.jsonString f.1 ++ ": ".toList ++ f.2.printed

theorem reads_member (f : Text × Value) : Reads member (printedMember f) f := by
  intro rest hrest
  obtain ⟨key, v⟩ := f
  have hprinted : printedMember (key, v) ++ rest = ' ' :: ' ' :: ' ' :: ' ' :: '"' ::
      (key.flatMap Marker.jsonChar ++ '"' :: ':' :: ' ' :: (v.printed ++ rest)) := by
    simp [printedMember, Marker.jsonString]
  have hvalue : value (' ' :: (v.printed ++ rest)) = some (v, rest) := reads_value v rest hrest
  rw [hprinted]
  simp [member, sign?_self (show isBlank '"' = false by decide), body_jsonString,
    sign?_self (show isBlank ':' = false by decide), hvalue]

/-! ### Lists -/

/-- Lines with commas, as a first one and what each further one adds to it. -/
theorem rows_cons (p : Text) (ps : List Text) :
    (Marker.withCommas (p :: ps)).flatMap (· ++ ['\n']) =
      p ++ (ps.flatMap fun q => ',' :: '\n' :: q) ++ ['\n'] := by
  induction ps generalizing p with
  | nil => simp [Marker.withCommas]
  | cons q ps ih => simp [Marker.withCommas, ih q]

theorem length_le_further (ps : List Text) :
    ps.length ≤ (ps.flatMap fun q => ',' :: '\n' :: q).length := by
  induction ps with
  | nil => exact Nat.le_refl 0
  | cons p ps ih =>
      rw [List.flatMap_cons, List.length_append, List.length_cons, List.length_cons, List.length_cons]
      omega

theorem ends_further (ps : List Text) (last : Text) :
    Ends ((ps.flatMap fun q => ',' :: '\n' :: q) ++ '\n' :: last) := by
  cases ps with
  | nil => exact ends_cons (by decide) _
  | cons p ps => exact ends_cons (by decide) _

section List

variable {α β : Type} {item : Reader β} {print : α → Text} {given : α → β} {opening closing : Char}
  {last rest : Text}

/-- The items after the first one. The text that follows them, `last`, begins with the closing sign. -/
theorem more_printed (hitem : ∀ a, Reads item (print a) (given a)) (hline : ∀ t, item ('\n' :: t) = item t)
    (hlast : sign? closing last = some rest) (hcomma : sign? ',' last = none) (as : List α) {n : Nat}
    (hn : as.length < n) :
    more item closing n ((as.map print).flatMap (fun q => ',' :: '\n' :: q) ++ '\n' :: last) =
      some (as.map given, rest) := by
  induction as generalizing n with
  | nil =>
      obtain ⟨n, rfl⟩ := Nat.exists_eq_succ_of_ne_zero (Nat.ne_of_gt hn)
      simp [more, hcomma, hlast]
  | cons a as ih =>
      obtain ⟨n, rfl⟩ := Nat.exists_eq_succ_of_ne_zero (Nat.ne_zero_of_lt hn)
      have hrest := ih (Nat.lt_of_succ_lt_succ hn)
      have hfirst := hitem a _ (ends_further (as.map print) last)
      rw [List.map_cons, List.flatMap_cons, List.cons_append, List.cons_append, List.append_assoc,
        List.cons_append, more, sign?_self (by decide)]
      simp only [hline, hfirst, hrest, Option.bind_eq_bind, Option.bind_some, Option.pure_def, List.map_cons]

theorem list_printed (hitem : ∀ a, Reads item (print a) (given a)) (hline : ∀ t, item ('\n' :: t) = item t)
    (hopening : isBlank opening = false) (hclosing : ∀ a t, sign? closing (print a ++ t) = none)
    (hlast : sign? closing last = some rest) (hcomma : sign? ',' last = none) {as : List α}
    (hne : as ≠ []) :
    list item opening closing
        (opening :: '\n' :: ((Marker.withCommas (as.map print)).flatMap (· ++ ['\n']) ++ last)) =
      some (as.map given, rest) := by
  obtain ⟨a, as, rfl⟩ := List.exists_cons_of_ne_nil hne
  have hfirst := hitem a _ (ends_further (as.map print) last)
  rw [List.map_cons, rows_cons, List.append_assoc, List.append_assoc, List.singleton_append, list,
    sign?_self hopening]
  have hfuel : as.length <
      ((as.map print).flatMap (fun q => ',' :: '\n' :: q) ++ '\n' :: last).length := by
    have hle := length_le_further (as.map print)
    rw [List.length_map] at hle
    rw [List.length_append, List.length_cons]
    omega
  have hrest := more_printed hitem hline hlast hcomma as hfuel
  simp only [Option.bind_eq_bind, Option.bind_some, Option.pure_def, sign?_newline, hclosing, hline,
    hfirst, hrest, List.map_cons]

end List

end Json

/-! ### Markers -/

namespace Marker

/-- A marker as a record. -/
def record (m : Marker) : Json.Record :=
  [("startLine".toList, .number m.startLine), ("endLine".toList, .number m.endLine),
    ("startColumn".toList, .number m.startColumn), ("endColumn".toList, .number m.endColumn),
    ("message".toList, .text m.message),
    ("severity".toList, .text (match m.severity with
      | .error => "Error".toList
      | .warning => "Warning".toList))]

theorem json_eq (m : Marker) : m.json = "  \x7b\n".toList ++
    (withCommas (m.record.map Json.printedMember)).flatMap (· ++ ['\n']) ++ "  \x7d".toList := by
  cases m with
  | mk _ _ _ _ _ severity => cases severity <;> rfl

theorem reads_json (m : Marker) : Json.Reads Json.record m.json m.record := by
  intro rest hrest
  let last : Text := ' ' :: ' ' :: '\x7d' :: rest
  have hlast : Json.sign? '\x7d' last = some rest := rfl
  have hcomma : Json.sign? ',' last = none := rfl
  have hmember : ∀ f t, Json.sign? '\x7d' (Json.printedMember f ++ t) = none := fun f t => rfl
  have hlist := Json.list_printed Json.reads_member (fun t => rfl)
    (show Json.isBlank '\x7b' = false by decide) hmember hlast hcomma
    (show m.record ≠ [] by simp [record])
  rw [List.map_id'] at hlist
  have hjson : m.json ++ rest = ' ' :: ' ' :: '\x7b' :: '\n' ::
      ((withCommas (m.record.map Json.printedMember)).flatMap (· ++ ['\n']) ++ last) := by
    simp [json_eq, last]
  rw [hjson]
  exact hlist

/-- A printed list of markers, on a line, is read as the records of its markers, in order. -/
theorem records?_jsonList (ms : List Marker) :
    Json.records? (jsonList ms ++ ['\n']) = some (ms.map record) := by
  cases ms with
  | nil => decide
  | cons m ms =>
      have hlast : Json.sign? ']' [']', '\n'] = some ['\n'] := rfl
      have hcomma : Json.sign? ',' [']', '\n'] = none := rfl
      have hrecord : ∀ m t, Json.sign? ']' (json m ++ t) = none := fun m t => rfl
      have hlist := Json.list_printed reads_json (fun t => rfl)
        (show Json.isBlank '[' = false by decide) hrecord hlast hcomma (List.cons_ne_nil m ms)
      have hjson : jsonList (m :: ms) ++ ['\n'] = '[' :: '\n' ::
          ((withCommas ((m :: ms).map json)).flatMap (· ++ ['\n']) ++ [']', '\n']) := by
        simp [jsonList, bracketed]
      rw [hjson, Json.records?, hlist]
      rfl

theorem ofRecord?_record (m : Marker) : ofRecord? m.record = some m := by
  cases m with
  | mk _ _ _ _ _ severity => cases severity <;> rfl

/-- A printed list of markers, on a line, is read as the list that it was. -/
theorem read?_jsonList (ms : List Marker) : read? (jsonList ms ++ ['\n']) = some ms := by
  have hmarkers : (ms.map record).mapM ofRecord? = some ms := by
    induction ms with
    | nil => rfl
    | cons m ms ih =>
        rw [List.map_cons, List.mapM_cons, ofRecord?_record, ih]
        rfl
  rw [read?, records?_jsonList, Option.bind_some, hmarkers]

end Marker

end ScriptPad
