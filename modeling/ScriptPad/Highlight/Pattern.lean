import ScriptPad.Text.Word

/-!
Regular expressions for the words of a language: how one is written and what it matches. Matching
is by preference: an alternative written first is tried first and a repetition takes as much as it
can, so the ends of the matches from one place come in order of preference and the first is the
match. A match never looks at what stands before the place where it starts.
-/

namespace ScriptPad

/-- One character, or a closed range of characters, of a bracketed class. -/
inductive ClassItem
  | one (c : Char)
  | range (lo hi : Char)
  deriving DecidableEq, Repr

def ClassItem.contains : ClassItem → Char → Bool
  | .one c, x => x == c
  | .range lo hi, x => lo.val ≤ x.val && x.val ≤ hi.val

inductive Pattern
  /-- Matches the empty text. -/
  | nothing
  | char (c : Char)
  /-- Any character except LF. -/
  | any
  | oneOf (items : List ClassItem)
  | noneOf (items : List ClassItem)
  /-- A place with a word character on exactly one side. -/
  | wordBoundary
  | seq (p q : Pattern)
  | alt (p q : Pattern)
  | many (p : Pattern)
  | some (p : Pattern)
  | optional (p : Pattern)
  | group (p : Pattern)
  deriving DecidableEq, Repr

namespace Pattern

/-- A fixed text. -/
def literal : Text → Pattern
  | [] => nothing
  | [c] => char c
  | c :: rest => seq (char c) (literal rest)

/-- The patterns one after another. -/
def concat : List Pattern → Pattern
  | [] => nothing
  | [p] => p
  | p :: ps => seq p (concat ps)

/-- The first of the patterns that leads to a match. -/
def choice : List Pattern → Pattern
  | [] => nothing
  | [p] => p
  | p :: ps => alt p (choice ps)

/-! ### The written form -/

/-- A backslash stands before a character that would otherwise be an operator. -/
def escapeChar (c : Char) : Text :=
  if c ∈ ['\\', '.', '*', '+', '?', '|', '(', ')', '[', ']', '\x7b', '\x7d', '^', '$'] then ['\\', c]
  else [c]

def escapeInClass (c : Char) : Text := if c = '\\' ∨ c = ']' then ['\\', c] else [c]

def renderItem : ClassItem → Text
  | .one c => escapeInClass c
  | .range lo hi => escapeInClass lo ++ '-' :: escapeInClass hi

def render : Pattern → Text
  | nothing => []
  | char c => escapeChar c
  | any => ['.']
  | oneOf items => '[' :: items.flatMap renderItem ++ [']']
  | noneOf items => '[' :: '^' :: items.flatMap renderItem ++ [']']
  | wordBoundary => ['\\', 'b']
  | seq p q => render p ++ render q
  | alt p q => render p ++ '|' :: render q
  | many p => render p ++ ['*']
  | some p => render p ++ ['+']
  | optional p => render p ++ ['?']
  | group p => '(' :: '?' :: ':' :: render p ++ [')']

/-! ### Matching -/

/-- A place in a text: how many characters the match has passed, the last of them, and the text
after. -/
structure Place where
  passed : Nat := 0
  before : Option Char := none
  rest : Text
  deriving DecidableEq, Repr

namespace Place

/-- The places after one character that satisfies a test. -/
def step (accept : Char → Bool) (s : Place) : List Place :=
  match s.rest with
  | [] => []
  | c :: rest => if accept c then [⟨s.passed + 1, Option.some c, rest⟩] else []

/-- Whether exactly one of the neighbours is a word character. -/
def atWordBoundary (s : Place) : Bool := s.before.any Text.isWord != s.rest.head?.any Text.isWord

/-- The length of the text that the place is in. -/
def textLength (s : Place) : Nat := s.passed + s.rest.length

theorem textLength_of_mem_step {accept : Char → Bool} {s r : Place} (h : r ∈ s.step accept) :
    r.textLength = s.textLength := by
  obtain ⟨passed, before, rest⟩ := s
  cases rest with
  | nil => simp [step] at h
  | cons c rest =>
    by_cases hc : accept c
    · obtain rfl : r = ⟨passed + 1, Option.some c, rest⟩ := by simpa [step, hc] using h
      simp only [textLength, List.length_cons]
      omega
    · simp [step, hc] at h

end Place

/-- The ends of repeated matches, longest first, in front of less preferred ends. A round that takes
no character is not repeated, so there are at most as many rounds as characters left, and those are
counted down. -/
def repeated (one : Place → List Place) : Text → Place → List Place → List Place
  | [], s, others => s :: others
  | _ :: left, s, others =>
    (one s).foldr (fun r others => if s.passed < r.passed then repeated one left r others else others)
      (s :: others)

theorem repeated_eq_append (one : Place → List Place) (left : Text) (s : Place)
    (others : List Place) : repeated one left s others = repeated one left s [] ++ others := by
  induction left generalizing s others with
  | nil => rfl
  | cons c left ih =>
    have fold : ∀ (rs : List Place) (others : List Place),
        rs.foldr (fun r o => if s.passed < r.passed then repeated one left r o else o) (s :: others) =
          rs.foldr (fun r o => if s.passed < r.passed then repeated one left r o else o) [s] ++
            others := by
      intro rs others
      induction rs with
      | nil => rfl
      | cons r rs ihr =>
        rw [List.foldr_cons, List.foldr_cons, ihr]
        split
        · rw [ih r (_ ++ others), ih r (List.foldr _ _ rs), List.append_assoc]
        · rfl
    exact fold (one s) others

/-- The ends of all matches from a place, in order of preference. -/
def ends : Pattern → Place → List Place
  | nothing, s => [s]
  | char c, s => s.step (· == c)
  | any, s => s.step (· != '\n')
  | oneOf items, s => s.step fun c => items.any (·.contains c)
  | noneOf items, s => s.step fun c => !items.any (·.contains c)
  | wordBoundary, s => if s.atWordBoundary then [s] else []
  | seq p q, s => (ends p s).flatMap (ends q)
  | alt p q, s => ends p s ++ ends q s
  | many p, s => repeated (ends p) s.rest s []
  | some p, s => (ends p s).flatMap fun r => repeated (ends p) r.rest r []
  | optional p, s => ends p s ++ [s]
  | group p, s => ends p s

/-- The number of characters that the preferred match at the start of a text takes. -/
def matchLength (p : Pattern) (t : Text) : Option Nat :=
  (ends p { rest := t }).head?.map (·.passed)

theorem textLength_of_mem_repeated {one : Place → List Place}
    (hone : ∀ s, ∀ r ∈ one s, r.textLength = s.textLength) {left : Text} {s r : Place}
    (h : r ∈ repeated one left s []) : r.textLength = s.textLength := by
  induction left generalizing s with
  | nil =>
    obtain rfl : r = s := by simpa [repeated] using h
    rfl
  | cons c left ih =>
    have fold : ∀ rs : List Place, (∀ q ∈ rs, q.textLength = s.textLength) →
        r ∈ rs.foldr (fun q o => if s.passed < q.passed then repeated one left q o else o) [s] →
        r.textLength = s.textLength := by
      intro rs hrs h
      induction rs with
      | nil =>
        obtain rfl : r = s := by simpa using h
        rfl
      | cons q rs ihr =>
        have hrest := ihr fun q' hq' => hrs q' (List.mem_cons_of_mem q hq')
        rw [List.foldr_cons] at h
        split at h
        · rw [repeated_eq_append, List.mem_append] at h
          rcases h with h | h
          · rw [ih h, hrs q List.mem_cons_self]
          · exact hrest h
        · exact hrest h
    exact fold (one s) (hone s) h

/-- A match ends in the text it starts in. -/
theorem textLength_of_mem_ends {p : Pattern} {s r : Place} (h : r ∈ ends p s) :
    r.textLength = s.textLength := by
  induction p generalizing s r with
  | nothing =>
    obtain rfl : r = s := by simpa [ends] using h
    rfl
  | char | any | oneOf | noneOf => exact Place.textLength_of_mem_step h
  | wordBoundary =>
    obtain ⟨-, rfl⟩ : s.atWordBoundary ∧ r = s := by
      by_cases hs : s.atWordBoundary <;> simp_all [ends]
    rfl
  | seq p q ihp ihq =>
    obtain ⟨m, hm, hr⟩ := List.mem_flatMap.1 h
    rw [ihq hr, ihp hm]
  | alt p q ihp ihq =>
    rcases List.mem_append.1 h with h | h
    · exact ihp h
    · exact ihq h
  | many p ih => exact textLength_of_mem_repeated (fun s r hr => ih hr) h
  | some p ih =>
    obtain ⟨m, hm, hr⟩ := List.mem_flatMap.1 h
    rw [textLength_of_mem_repeated (fun s r hr => ih hr) hr, ih hm]
  | optional p ih =>
    rcases List.mem_append.1 h with h | h
    · exact ih h
    · rw [List.mem_singleton.1 h]
  | group p ih => exact ih h

theorem matchLength_le {p : Pattern} {t : Text} {n : Nat} (h : p.matchLength t = Option.some n) :
    n ≤ t.length := by
  obtain ⟨r, hr, rfl⟩ := Option.map_eq_some_iff.1 h
  have hlength := textLength_of_mem_ends (List.mem_of_mem_head? hr)
  simp only [Place.textLength] at hlength
  omega

end Pattern

end ScriptPad
