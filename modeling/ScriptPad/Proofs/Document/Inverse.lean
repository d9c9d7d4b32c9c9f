import ScriptPad.Proofs.Document.Change

/-!
A character inserted and deleted again. Both edits go by line and column, and the second one looks the line
up in the text that has the character, which may end other lines than before: a new one, the two halves of
a CRLF that it splits, or the whole of a CRLF that it completes. None of this matters after the place of the
edit, and before it one thing can happen. An LF that is put at the start of a line behind a CR belongs to
the end of the line before; then the line begins one character later, and the edit that should remove the
LF misses it.
-/

namespace ScriptPad

open Text (row col Straddles Spliced)

namespace Text

variable {a d e t t' old new : Text} {c : Char} {line k i j : Nat}

/-- An LF at the start of a line that a CR ends the line before. -/
def CompletesPair (t : Text) (line k : Nat) (c : Char) : Prop :=
  c = '\n' ∧ k = 0 ∧ (t.take (t.lineStart line)).getLast? = some '\r'

instance (t : Text) (line k : Nat) (c : Char) : Decidable (t.CompletesPair line k c) :=
  inferInstanceAs (Decidable (_ ∧ _))

/-- A splice changes nothing before its place. -/
theorem Spliced.getElem?_of_lt (h : Spliced t t' i old new) (hj : j < i) : t'[j]? = t[j]? := by
  obtain ⟨pre, post, rfl, rfl, rfl⟩ := h
  simp [List.getElem?_append_left, hj]

theorem straddles_insert_iff (h : ¬ Straddles a (d ++ e)) :
    Straddles a (d ++ c :: e) ↔ c = '\n' ∧ d.length = 0 ∧ a.getLast? = some '\r' := by
  cases d with
  | nil => simp [Straddles, and_comm]
  | cons x d =>
      have hx : ¬ Straddles a (x :: d ++ c :: e) := h
      simpa using hx

theorem col_append_crlf (a : Text) : col (a ++ ['\r'] ++ ['\n']) = 0 := by
  have hpair : lastLine (a ++ ['\r', '\n']) = lastLine ['\r', '\n'] :=
    (split_append_of_cons (not_straddles_cons (by decide)) rfl).2
  rw [List.append_assoc, col]
  exact congrArg List.length hpair

/-- With the pair complete, the line begins behind it. -/
theorem lineStart_of_straddles (h : Straddles a (c :: e)) :
    lineStart (a ++ c :: e) (row a) = a.length + 1 := by
  obtain ⟨a, e, rfl, heq⟩ := h.exists_append
  obtain ⟨rfl, rfl⟩ := List.cons.inj heq
  have hpair : ¬ Straddles (a ++ ['\r'] ++ ['\n']) e := by simp [Straddles]
  have hstart := lineStart_append hpair
  rw [row_append_crlf, col_append_crlf, List.append_assoc] at hstart
  simpa using hstart

/-- An inserted character moves the start of its line if it completes a CRLF, and else leaves it. -/
theorem lineStart_of_inserted (hline : line < lineCount t)
    (h : Spliced t t' (lineStart t line + k) [] [c]) :
    lineStart t' line = lineStart t line + if t.CompletesPair line k c then 1 else 0 := by
  obtain ⟨a, b, rfl, rfl, hcol, hs⟩ := exists_append_of_lt_lineCount hline
  have hstart := lineStart_append hs
  rw [hcol, Nat.add_zero] at hstart
  obtain ⟨pre, post, hsplit, rfl, hlength⟩ := h
  rw [hstart] at hlength
  rw [List.append_nil] at hsplit
  -- the line begins behind `a`, and the character comes between `d` and `post`
  obtain ⟨d, rfl⟩ := List.prefix_of_prefix_length_le ⟨b, rfl⟩ ⟨post, hsplit.symm⟩ (by omega)
  obtain rfl : b = d ++ post := by simpa using hsplit
  have hk : d.length = k := by simpa using hlength
  have hpair : CompletesPair (a ++ (d ++ post)) (row a) k c ↔ Straddles a (d ++ c :: post) := by
    rw [straddles_insert_iff hs, CompletesPair, hstart, List.take_left, hk]
  have htext : a ++ d ++ [c] ++ post = a ++ (d ++ c :: post) := by simp
  rw [htext, hstart]
  by_cases hc : Straddles a (d ++ c :: post)
  · obtain rfl : d = [] := List.length_eq_zero_iff.1 ((straddles_insert_iff hs).1 hc).2.1
    rw [if_pos (hpair.2 hc)]
    exact lineStart_of_straddles hc
  · have hstart' := lineStart_append hc
    rw [if_neg (mt hpair.1 hc)]
    rwa [hcol] at hstart'

theorem not_straddles_lineStart (hline : line < lineCount t) :
    ¬ Straddles (t.take (lineStart t line)) (t.drop (lineStart t line)) := by
  obtain ⟨a, b, rfl, rfl, hcol, hs⟩ := exists_append_of_lt_lineCount hline
  have hstart := lineStart_append hs
  rw [hcol, Nat.add_zero] at hstart
  rwa [hstart, List.take_left, List.drop_left]

/-- Behind a completed CRLF no edit gives the text back: the LF stays where there was none. -/
theorem not_spliced_back (hline : line < lineCount t) (hc : t.CompletesPair line k c)
    (h : Spliced t t' (lineStart t line + k) [] [c]) (hj : lineStart t line + k < j) :
    ¬ Spliced t' t j old new := by
  intro hback
  obtain ⟨rfl, rfl, hcr⟩ := hc
  rw [Nat.add_zero] at h hj
  have hthere : t'[lineStart t line]? = some '\n' := by
    obtain ⟨pre, post, -, rfl, hlength⟩ := h
    rw [← hlength]
    simp
  rw [← hback.getElem?_of_lt hj, ← List.head?_drop] at hthere
  exact not_straddles_lineStart hline ⟨hcr, hthere⟩

theorem eraseIdx_of_inserted (h : Spliced t t' i [] [c]) : t'.eraseIdx i = t := by
  obtain ⟨pre, post, rfl, rfl, rfl⟩ := h
  simp [List.eraseIdx_append_of_length_le]

end Text

namespace Buffer

theorem offset_of_le {b : Buffer} {line : Nat} (h : line ≤ b.lineCount) (col : Nat) :
    b.offset line col = .ok (b.text.lineStart line + col) := if_pos h

/-- A character that is inserted on a line, or at any place counted from the start of a line, is removed
by deleting forwards there and by deleting backwards one column further, and the text is as it was. The
start of the line is then where it was. All three fail in one case, and only in that: an LF that makes a
CRLF with the CR before the line. -/
theorem insert_delete_inverse (b : Buffer) {line col : Nat} (c : Char) (hline : line < b.lineCount)
    (hcol : b.text.lineStart line + col ≤ b.text.length) :
    ∃ b', b.insert line col [c] = .ok b' ∧
      (b'.text.lineStart line = b.text.lineStart line ↔ ¬ b.text.CompletesPair line col c) ∧
      (b'.deleteForward line col = .ok (true, b) ↔ ¬ b.text.CompletesPair line col c) ∧
      (b'.deleteBackward line (col + 1) = .ok (true, b) ↔ ¬ b.text.CompletesPair line col c) := by
  obtain ⟨b', hinsert⟩ : ∃ b', b.insert line col [c] = .ok b' := by
    rw [insert_of_offset (offset_of_le (Nat.le_of_lt hline) col), insertAt_of_le hcol]
    exact ⟨_, rfl⟩
  have hsplice := (spliced_of_insert hinsert).2
  have hstart := Text.lineStart_of_inserted hline hsplice
  refine ⟨b', hinsert, ?_⟩
  by_cases hpair : b.text.CompletesPair line col c
  · rw [if_pos hpair] at hstart
    -- counted from the later start both deletes take a character behind the LF, and that stays
    have hnever (j : Nat) (hj : b.text.lineStart line + col < j) (d : Char) :
        ¬ Spliced b'.text b.text j [d] [] := Text.not_spliced_back hline hpair hsplice hj
    simp only [hpair, not_true_eq_false, iff_false]
    refine ⟨by omega, fun hdelete => ?_, fun hdelete => ?_⟩
    · rcases spliced_of_deleteForward hdelete with ⟨hfalse, -⟩ | ⟨-, -, d, hback⟩
      · cases hfalse
      · exact hnever _ (by omega) d hback
    · obtain ⟨-, ⟨-, hzero⟩ | ⟨i, d, hi, hback⟩⟩ := spliced_of_deleteBackward hdelete
      · omega
      · exact hnever i (by omega) d hback
  · rw [if_neg hpair, Nat.add_zero] at hstart
    have hoffset := offset_of_le (Nat.le_of_lt (hsplice.lt_lineCount hline (Nat.le_add_right _ _)))
    have hlength : b.text.lineStart line + col < b'.text.length := by
      obtain ⟨pre, post, -, htext, hpre⟩ := hsplice
      rw [htext, ← hpre]
      simp
    have herase : (⟨b'.text.eraseIdx (b.text.lineStart line + col)⟩ : Buffer) = b :=
      congrArg Buffer.mk (Text.eraseIdx_of_inserted hsplice)
    have hforward := hoffset col
    have hbackward := hoffset (col + 1)
    rw [hstart] at hforward hbackward
    rw [← Nat.add_assoc] at hbackward
    simp only [hpair, not_false_eq_true, iff_true]
    refine ⟨hstart, ?_, ?_⟩
    · rw [deleteForward_of_lt hforward hlength, herase]
    · rw [deleteBackward_of_offset hbackward hlength, herase]

/-- A VT between the characters of a CRLF, which ends a line there and leaves both halves to end one, and
a CR in front of an LF, which makes one line end of the two. -/
theorem insert_delete_inverse_crlf :
    let b : Buffer := ⟨['a', '\r', '\n', 'b', '\n']⟩
    (0 < b.lineCount ∧ b.text.lineStart 0 + 2 ≤ b.text.length ∧
      ∃ b', b.insert 0 2 ['\x0b'] = .ok b' ∧ b'.lineCount = b.lineCount + 2 ∧
        b'.deleteForward 0 2 = .ok (true, b) ∧ b'.deleteBackward 0 3 = .ok (true, b)) ∧
    (1 < b.lineCount ∧ b.text.lineStart 1 + 1 ≤ b.text.length ∧
      ∃ b', b.insert 1 1 ['\r'] = .ok b' ∧ b'.lineCount = b.lineCount ∧
        b'.deleteForward 1 1 = .ok (true, b) ∧ b'.deleteBackward 1 2 = .ok (true, b)) := by
  intro b
  have hzero : 0 < b.lineCount ∧ b.text.lineStart 0 + 2 ≤ b.text.length := by decide
  have hone : 1 < b.lineCount ∧ b.text.lineStart 1 + 1 ≤ b.text.length := by decide
  obtain ⟨b₀, h₀, -, hforward₀, hbackward₀⟩ := insert_delete_inverse b '\x0b' hzero.1 hzero.2
  obtain ⟨b₁, h₁, -, hforward₁, hbackward₁⟩ := insert_delete_inverse b '\r' hone.1 hone.2
  refine ⟨⟨hzero.1, hzero.2, b₀, h₀, ?_, hforward₀.2 (by decide), hbackward₀.2 (by decide)⟩,
    hone.1, hone.2, b₁, h₁, ?_, hforward₁.2 (by decide), hbackward₁.2 (by decide)⟩
  · obtain rfl := Except.ok.inj h₀
    decide
  · obtain rfl := Except.ok.inj h₁
    decide

/-- Of an LF put behind the CR of a line before, a delete takes what stands after it. -/
example : (⟨['\r', 'x']⟩ : Buffer).insert 1 0 ['\n'] = .ok ⟨['\r', '\n', 'x']⟩ ∧
    (⟨['\r', '\n', 'x']⟩ : Buffer).deleteForward 1 0 = .ok (true, ⟨['\r', '\n']⟩) := by decide

end Buffer

end ScriptPad
