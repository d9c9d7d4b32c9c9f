import ScriptPad.Proofs.Highlight.Tiling

/-!
The tokens of a line as slices of it. A slice is given by two places in bytes, and there is none if a
place falls inside a character; a token is always the slice that its piece is. The pieces have every
character of the line in one of them, so each character is under one token.
-/

namespace ScriptPad

namespace Text

/-- Cuts a text at a place in bytes, if that is between two characters or at an end. -/
def splitAtByte? : Nat → Text → Option (Text × Text)
  | 0, t => some ([], t)
  | _ + 1, [] => none
  | n + 1, c :: t =>
    if c.utf8Size ≤ n + 1 then
      (splitAtByte? (n + 1 - c.utf8Size) t).map fun (a, b) => (c :: a, b)
    else none

/-- The slice of a text from one place in bytes to another. -/
def slice? (t : Text) (start stop : Nat) : Option Text :=
  if start ≤ stop then
    (splitAtByte? start t).bind fun (_, rest) => (splitAtByte? (stop - start) rest).map (·.1)
  else none

theorem splitAtByte?_append (a b : Text) : splitAtByte? (byteLength a) (a ++ b) = some (a, b) := by
  induction a with
  | nil => rw [byteLength_nil, List.nil_append, splitAtByte?]
  | cons c a ih =>
      obtain ⟨n, hn⟩ : ∃ n, c.utf8Size = n + 1 := ⟨_, (Nat.succ_pred_eq_of_pos c.utf8Size_pos).symm⟩
      have hbytes : byteLength (c :: a) = n + byteLength a + 1 := by
        rw [byteLength_cons]
        omega
      have hrest : n + byteLength a + 1 - c.utf8Size = byteLength a := by omega
      rw [hbytes, List.cons_append, splitAtByte?, if_pos (by omega), hrest, ih]
      rfl

/-- The slice between the places at the two ends of a word is the word. -/
theorem slice?_append (a word b : Text) :
    slice? (a ++ (word ++ b)) a.byteLength (a ++ word).byteLength = some word := by
  have hle : a.byteLength ≤ (a ++ word).byteLength := by
    rw [byteLength_append]
    exact Nat.le_add_right ..
  have hlength : (a ++ word).byteLength - a.byteLength = word.byteLength := by
    rw [byteLength_append]
    exact Nat.add_sub_cancel_left ..
  rw [slice?, if_pos hle, splitAtByte?_append, Option.bind_some]
  dsimp only
  rw [hlength, splitAtByte?_append]
  rfl

theorem byteLength_take_le (t : Text) (n : Nat) : byteLength (t.take n) ≤ byteLength t := by
  have hcut := congrArg byteLength (List.take_append_drop n t)
  rw [byteLength_append] at hcut
  omega

end Text

namespace Tokenizer

theorem flatMap_text_plainPiece (g : Text) : (plainPiece g).flatMap (·.text) = g.reverse := by
  cases g with
  | nil => rfl
  | cons c g => simp [plainPiece]

/-- The pieces concatenate to the line. -/
theorem flatMap_text_piecesFrom (z : Tokenizer) (g t : Text) :
    (z.piecesFrom g t).flatMap (·.text) = g.reverse ++ t := by
  induction g, t using piecesFrom.induct (z := z) with
  | case1 g => rw [piecesFrom, flatMap_text_plainPiece, List.append_nil]
  | case2 g c rest k n hfirst ih =>
      obtain ⟨word, after, hcut, rfl⟩ : ∃ word after, c :: rest = word ++ after ∧
          word.length = n :=
        ⟨_, _, (List.take_append_drop n _).symm, by
          rw [List.length_take, Nat.min_eq_left (firstTake?_le hfirst)]⟩
      rw [hcut] at hfirst ih ⊢
      rw [List.drop_left] at ih
      rw [piecesFrom_of_firstTake? hfirst, List.flatMap_append, flatMap_text_plainPiece,
        List.flatMap_cons, ih]
      rfl
  | case3 g c rest hnone ih =>
      rw [piecesFrom_of_firstTake?_eq_none hnone, ih]
      simp

end Tokenizer

theorem Language.flatMap_text_pieces (l : Language) (line : Text) :
    (l.pieces line).flatMap (·.text) = line :=
  l.tokenizer.flatMap_text_piecesFrom [] line

theorem Language.tiles_tokens (l : Language) (line : Text) :
    Tiles 0 (l.tokens line) line.byteLength :=
  (Tokenizer.reads_piecesFrom (z := l.tokenizer) [] [] line rfl (by simp)).tiles

/-! ### The token over a character -/

namespace Token

/-- The token goes over the character at index `i` of the line. -/
def Over (line : Text) (i : Nat) (t : Token) : Prop :=
  t.start ≤ Text.byteLength (line.take i) ∧ Text.byteLength (line.take (i + 1)) ≤ t.stop

theorem over_spanning {before word after : Text} {i : Nat} (hi : i < word.length) (kind : WordKind) :
    (spanning before word kind).Over (before ++ (word ++ after)) (before.length + i) := by
  have htake : ∀ j ≤ word.length,
      (before ++ (word ++ after)).take (before.length + j) = before ++ word.take j := by
    intro j hj
    rw [List.take_length_add_append, List.take_append_of_le_length hj]
  refine ⟨?_, ?_⟩
  · rw [htake i hi.le, Text.byteLength_append]
    exact Nat.le_add_right ..
  · rw [Nat.add_assoc, htake (i + 1) hi, Text.byteLength_append]
    exact Nat.add_le_add_left (Text.byteLength_take_le word (i + 1)) _

end Token

theorem Tiles.le_start {lo hi : Nat} {t : Token} {ts : List Token} (h : Tiles lo ts hi)
    (ht : t ∈ ts) : lo ≤ t.start := by
  induction ts generalizing lo with
  | nil => cases ht
  | cons u ts ih =>
      obtain ⟨hstart, hlt, hrest⟩ := h
      rcases List.mem_cons.1 ht with rfl | ht
      · exact hstart.ge
      · have hle := ih hrest ht
        omega

/-- Two tokens of a line with a place in common are the same. -/
theorem Tiles.eq_of_meet {lo hi p : Nat} {s t : Token} {ts : List Token} (h : Tiles lo ts hi)
    (hs : s ∈ ts) (ht : t ∈ ts) (hsp : s.start ≤ p ∧ p < s.stop) (htp : t.start ≤ p ∧ p < t.stop) :
    s = t := by
  induction ts generalizing lo with
  | nil => cases hs
  | cons u ts ih =>
      obtain ⟨hstart, hlt, hrest⟩ := h
      rcases List.mem_cons.1 hs with rfl | hs'
      · rcases List.mem_cons.1 ht with rfl | ht'
        · rfl
        · have hle := hrest.le_start ht'
          omega
      · rcases List.mem_cons.1 ht with rfl | ht'
        · have hle := hrest.le_start hs'
          omega
        · exact ih hrest hs' ht'

/-- A character is under one token. -/
theorem Tiles.eq_of_over {lo hi i : Nat} {s t : Token} {ts : List Token} {content : Text}
    (h : Tiles lo ts hi) (hi : i < content.length) (hs : s ∈ ts) (ht : t ∈ ts) (hsi : s.Over content i)
    (hti : t.Over content i) : s = t := by
  have hnext : Text.byteLength (content.take (i + 1)) =
      Text.byteLength (content.take i) + content[i].utf8Size := by
    rw [List.take_add_one, List.getElem?_eq_getElem hi, Text.byteLength_append]
    simp
  have hpos := content[i].utf8Size_pos
  obtain ⟨hs₁, hs₂⟩ := hsi
  obtain ⟨ht₁, ht₂⟩ := hti
  exact h.eq_of_meet hs ht ⟨hs₁, by omega⟩ ⟨ht₁, by omega⟩

end ScriptPad
