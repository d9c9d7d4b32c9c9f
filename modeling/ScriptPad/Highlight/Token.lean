import ScriptPad.Highlight.Language

/-!
Cutting a line into coloured words. A tokenizer is a table of matchers in order, each for a kind of
words; it does not matter how a matcher finds its matches. At each place the first matcher whose
match is not empty takes its match; characters that none takes are gathered into plain pieces. The
pieces concatenate to the line, and tokens are the pieces with their places counted in bytes.
-/

namespace ScriptPad

/-- A stretch of a line and what it is coloured as. -/
structure Piece where
  kind : WordKind
  text : Text
  deriving DecidableEq, Repr

/-- A piece by its place in the line, in UTF-8 bytes. -/
structure Token where
  start : Nat
  stop : Nat
  kind : WordKind
  deriving DecidableEq, Repr

/-- How many characters are matched at the start of a text, if there is a match. A match ends in the
text that it starts. -/
structure Matcher where
  matchLength : Text → Option Nat
  matchLength_le : ∀ {t : Text} {n : Nat}, matchLength t = some n → n ≤ t.length

def Pattern.matcher (p : Pattern) : Matcher := ⟨p.matchLength, Pattern.matchLength_le⟩

/-- The number of characters taken at the start of a text, if any are. -/
def Matcher.take? (m : Matcher) (t : Text) : Option Nat := (m.matchLength t).filter (0 < ·)

theorem Matcher.take?_eq_some_iff {m : Matcher} {t : Text} {n : Nat} :
    m.take? t = some n ↔ m.matchLength t = some n ∧ 0 < n := by
  simp [take?, Option.filter_eq_some_iff]

structure Tokenizer where
  rules : List (Matcher × WordKind)

namespace Tokenizer

/-- The first rule that takes characters at the start of a text: its kind and their number. -/
def firstTake? (z : Tokenizer) (t : Text) : Option (WordKind × Nat) :=
  z.rules.findSome? fun (m, kind) => (m.take? t).map (kind, ·)

theorem exists_of_firstTake? {z : Tokenizer} {t : Text} {k : WordKind} {n : Nat}
    (h : z.firstTake? t = some (k, n)) : ∃ m, (m, k) ∈ z.rules ∧ m.take? t = some n := by
  obtain ⟨⟨m, kind⟩, hmem, hr⟩ := List.exists_of_findSome?_eq_some h
  obtain ⟨j, hj, he⟩ := Option.map_eq_some_iff.1 hr
  obtain ⟨rfl, rfl⟩ := Prod.mk.inj he
  exact ⟨m, hmem, hj⟩

theorem firstTake?_pos {z : Tokenizer} {t : Text} {k : WordKind} {n : Nat}
    (h : z.firstTake? t = some (k, n)) : 0 < n := by
  obtain ⟨m, -, hm⟩ := exists_of_firstTake? h
  exact (Matcher.take?_eq_some_iff.1 hm).2

theorem firstTake?_le {z : Tokenizer} {t : Text} {k : WordKind} {n : Nat}
    (h : z.firstTake? t = some (k, n)) : n ≤ t.length := by
  obtain ⟨m, -, hm⟩ := exists_of_firstTake? h
  exact m.matchLength_le (Matcher.take?_eq_some_iff.1 hm).1

/-- Gathered characters, last first, as a piece; no piece if there are none. -/
def plainPiece : Text → List Piece
  | [] => []
  | gathered => [⟨.plain, gathered.reverse⟩]

/-- Cuts a text into pieces, after plain characters gathered last first. -/
def piecesFrom (z : Tokenizer) (gathered : Text) (t : Text) : List Piece :=
  match t with
  | [] => plainPiece gathered
  | c :: rest =>
    match _h : z.firstTake? (c :: rest) with
    | some (k, n) =>
      plainPiece gathered ++ ⟨k, (c :: rest).take n⟩ :: piecesFrom z [] ((c :: rest).drop n)
    | none => piecesFrom z (c :: gathered) rest
termination_by t.length
decreasing_by
  · have := firstTake?_pos _h
    simp only [List.length_drop, List.length_cons]
    omega
  · simp

theorem piecesFrom_of_firstTake? {z : Tokenizer} {word after : Text} {k : WordKind}
    (h : z.firstTake? (word ++ after) = some (k, word.length)) (gathered : Text) :
    z.piecesFrom gathered (word ++ after) = plainPiece gathered ++ ⟨k, word⟩ :: z.piecesFrom [] after := by
  cases hcut : word ++ after with
  | nil =>
    obtain ⟨rfl, rfl⟩ := List.append_eq_nil_iff.1 hcut
    exact absurd (firstTake?_pos h) (Nat.lt_irrefl 0)
  | cons c rest =>
    rw [hcut] at h
    rw [piecesFrom]
    split
    · next k' n h' =>
      obtain ⟨rfl, rfl⟩ := Prod.mk.inj (Option.some.inj (h.symm.trans h'))
      rw [← hcut, List.take_left, List.drop_left]
    · next h' => exact absurd (h.symm.trans h') (Option.some_ne_none _)

theorem piecesFrom_of_firstTake?_eq_none {z : Tokenizer} {c : Char} {rest : Text}
    (h : z.firstTake? (c :: rest) = none) (gathered : Text) :
    z.piecesFrom gathered (c :: rest) = z.piecesFrom (c :: gathered) rest := by
  rw [piecesFrom]
  split
  · next h' => exact absurd (h.symm.trans h') (Option.some_ne_none _).symm
  · rfl

/-- The pieces of a line. -/
def pieces (z : Tokenizer) (line : Text) : List Piece := piecesFrom z [] line

end Tokenizer

/-- Pieces by their places, the first one starting at `start`. -/
def Token.ofPieces (start : Nat) : List Piece → List Token
  | [] => []
  | p :: ps =>
    ⟨start, start + p.text.byteLength, p.kind⟩ :: Token.ofPieces (start + p.text.byteLength) ps

/-- The tokens of a line. -/
def Tokenizer.tokens (z : Tokenizer) (line : Text) : List Token := Token.ofPieces 0 (z.pieces line)

namespace Language

def tokenizer (l : Language) : Tokenizer := ⟨l.rules.map fun r => (r.pattern.matcher, r.kind)⟩

def pieces (l : Language) (line : Text) : List Piece := l.tokenizer.pieces line

def tokens (l : Language) (line : Text) : List Token := l.tokenizer.tokens line

end Language

end ScriptPad
