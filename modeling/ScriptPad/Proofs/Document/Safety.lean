import Mathlib.Tactic.TFAE
import ScriptPad.Proofs.Document.Flat

/-!
The texts on which a pane is safe. The length of a line leaves out a final LF and no other line end,
so at a line end of another kind the cursor can go to the column behind it. As long as the line end
is there this is a place of the next line; once it is gone the cursor is past the end of the text,
and the next character typed there fails. Five kinds of keys are enough to get there, from any text
with a line end that is not an LF.
-/

namespace ScriptPad

open Text (row col Straddles)

namespace Text

/-- The first line end of a text that is not an LF. -/
theorem exists_otherBreak {t : Text} (h : ¬ t.OnlyNewlines) :
    ∃ (a : Text) (c : Char) (b : Text), t = a ++ c :: b ∧ a.OnlyNewlines ∧ isBreak c ∧ c ≠ '\n' := by
  induction t with
  | nil => exact absurd (fun c hc => absurd hc List.not_mem_nil) h
  | cons d t ih =>
      by_cases hd : isBreak d → d = '\n'
      · obtain ⟨a, c, b, rfl, ha, hc⟩ := ih fun ht => h (onlyNewlines_cons.2 ⟨hd, ht⟩)
        exact ⟨d :: a, c, b, rfl, onlyNewlines_cons.2 ⟨hd, ha⟩, hc⟩
      · rw [Classical.not_imp] at hd
        exact ⟨[], d, t, rfl, fun c hc => absurd hc List.not_mem_nil, hd⟩

/-- A line end stands alone on its line, or before the LF it makes a pair with. -/
theorem firstLine_of_isBreak {c : Char} (hc : isBreak c) (b : Text) :
    firstLine (c :: b) = [c] ∨ firstLine (c :: b) = [c, '\n'] := by
  by_cases hb : breaksAfter c b
  · exact .inl (by simp [firstLine, lines_cons_of_breaks hb])
  · have hhead : b.head? = some '\n' := by
      have := hb
      simp only [breaksAfter, hc, Bool.true_and] at this
      simpa using And.right (by simpa using this)
    obtain ⟨b, rfl⟩ := List.head?_eq_some_iff.1 hhead
    refine .inr ?_
    simp [firstLine, lines_cons_of_not_breaks hb, lines_cons_of_breaks (c := '\n') (t := b) rfl,
      consFirst]

end Text

namespace Buffer

theorem exists_lineLength {t : Buffer} {i : Nat} (h : i < t.lineCount) :
    ∃ n, t.lineLength i = .ok n := by
  have hline : t.line i = .ok t.text.lines[i] := line_eq_ok_iff.2 (List.getElem?_eq_getElem h)
  exact ⟨_, by rw [lineLength, hline]; rfl⟩

/-- The last line is as long as the column at its end says. -/
theorem lineLength_last (a : Text) : (⟨a⟩ : Buffer).lineLength (row a) = .ok (col a) := by
  have hline := Text.getElem?_lines_append (Text.not_straddles_nil_right a)
  rw [List.append_nil] at hline
  rw [lineLength, line_eq_ok_iff.2 hline]
  simp [Except.map, Text.firstLine, Text.lines, col,
    Text.dropFinalNewline_of_not_isBreak Text.not_isBreak_of_mem_lastLine]

/-- A line end that is not an LF counts as a column of its line. -/
theorem lineLength_otherBreak {a b : Text} {c : Char} (ha : ¬ Straddles a (c :: b))
    (hc : Text.isBreak c) (hne : c ≠ '\n') :
    (⟨a ++ c :: b⟩ : Buffer).lineLength (row a) = .ok (col a + 1) := by
  rw [lineLength, line_eq_ok_iff.2 (Text.getElem?_lines_append ha)]
  rcases Text.firstLine_of_isBreak hc b with hfirst | hfirst
  · simp [hfirst, Except.map, Text.dropFinalNewline, hne, col]
  · simp [hfirst, Except.map, Text.dropFinalNewline, col]

end Buffer

namespace Pane

/-- A pane with another text and its cursor somewhere else. -/
def showing (p : Pane) (t : Text) (line col : Nat) : Pane :=
  { p with buffer := ⟨t⟩, cursor := ⟨line, col⟩ }

/-- The keys from the start of `a ++ c :: b` to behind the end of `a`: down to the line end `c`,
behind it, away with all that follows, down to the line after it and back over it. -/
def overshoot (a b : Text) : List Event :=
  List.replicate (row a) (.pressed .down) ++ .pressed .endKey ::
    (List.replicate b.length (.pressed .delete) ++ [.pressed .down, .pressed .backspace])

theorem typesNoBreak_overshoot (a b : Text) : TypesNoBreak (overshoot a b) := by
  have hend : TypesNoBreak [.pressed .endKey] := by decide
  have hjoin : TypesNoBreak [.pressed .down, .pressed .backspace] := by decide
  have hdowns := typesNoBreak_replicate (e := .pressed .down) (by decide) (row a)
  have hdeletes := typesNoBreak_replicate (e := .pressed .delete) (by decide) b.length
  exact hdowns.append (hend.append (hdeletes.append hjoin))

variable (p : Pane)

theorem react_down {t : Text} {i n : Nat} (k : Nat) (hi : i + 1 < t.lineCount)
    (hn : (⟨t⟩ : Buffer).lineLength (i + 1) = .ok n) :
    (p.showing t i k).react (.pressed .down) = .ok (.redraw, p.showing t (i + 1) (min k n)) := by
  have hcursor : (p.showing t i k).cursor.down (p.showing t i k).buffer.lineCount = ⟨i + 1, k⟩ := by
    show Cursor.mk (min (i + 1) (t.lineCount - 1)) k = ⟨i + 1, k⟩
    rw [Nat.min_eq_left (by omega)]
  have hlength : (p.showing t (i + 1) k).cursorLineLength = .ok n := hn
  have hdown : (p.showing t i k).goDown = .ok (p.showing t (i + 1) (min k n)) := by
    rw [goDown, hcursor]
    exact keepCursorInLine_of_length hlength
  rw [react_pressed, press, hdown]
  rfl

theorem reactAll_downs {t : Text} {i n : Nat} (h : i + n < t.lineCount) :
    (p.showing t i 0).reactAll (List.replicate n (.pressed .down)) =
      .ok (p.showing t (i + n) 0) := by
  induction n generalizing i with
  | zero => rfl
  | succ n ih =>
      have hi : i + 1 < t.lineCount := by omega
      obtain ⟨m, hm⟩ := Buffer.exists_lineLength (t := ⟨t⟩) hi
      rw [List.replicate_succ, reactAll_cons (react_down p 0 hi hm), Nat.zero_min,
        ih (by omega), Nat.add_assoc, Nat.add_comm 1]

theorem react_endKey {t : Text} {i n : Nat} (k : Nat)
    (hn : (⟨t⟩ : Buffer).lineLength i = .ok n) :
    (p.showing t i k).react (.pressed .endKey) = .ok (.redraw, p.showing t i n) := by
  have hlength : (p.showing t i k).cursorLineLength = .ok n := hn
  rw [react_pressed, press, goToLineEnd_of_length hlength]
  rfl

variable {a b : Text} {c : Char}

/-- All that stands behind a line end can be deleted from there. -/
theorem reactAll_deletes (ha : a.OnlyNewlines) :
    (p.showing (a ++ c :: b) (row a) (col a + 1)).reactAll
        (List.replicate b.length (.pressed .delete)) =
      .ok (p.showing (a ++ [c]) (row a) (col a + 1)) := by
  induction b with
  | nil => rfl
  | cons d b ih =>
      have hbuffer : (p.showing (a ++ c :: d :: b) (row a) (col a + 1)).buffer.deleteForward
          (row a) (col a + 1) = .ok (true, ⟨a ++ c :: b⟩) :=
        Buffer.deleteForward_after (d := [c]) (ha.not_straddles _)
      have hdelete : (p.showing (a ++ c :: d :: b) (row a) (col a + 1)).react (.pressed .delete) =
          .ok (.edited, p.showing (a ++ c :: b) (row a) (col a + 1)) := by
        rw [react_pressed, press, deleteForward_of_buffer hbuffer]
        rfl
      rw [List.length_cons, List.replicate_succ, reactAll_cons hdelete, ih]

/-- With its line end the line before loses a column that the cursor has counted. -/
theorem react_backspace (ha : a.OnlyNewlines) (hc : Text.isBreak c) (hne : c ≠ '\n') :
    (p.showing (a ++ [c]) (row a + 1) 0).react (.pressed .backspace) =
      .ok (.edited, p.showing a (row a) (col a + 1)) := by
  obtain ⟨hrow, hcol⟩ := Text.place_append_of_isBreak hc (ha.not_straddles [c])
  have hbuffer := Buffer.deleteBackward_place (c := c) (Text.not_straddles_nil_right (a ++ [c]))
  rw [hrow, hcol, List.append_nil, List.append_nil] at hbuffer
  -- the length counts `c`, and it is read before `c` goes
  have hlength := Buffer.lineLength_otherBreak (ha.not_straddles [c]) hc hne
  have hjoin : (p.showing (a ++ [c]) (row a + 1) 0).deleteBackward =
      .ok (true, p.showing a (row a) (col a + 1)) :=
    deleteBackward_joins rfl (Nat.succ_pos _) hlength hbuffer
  rw [react_pressed, press, hjoin]
  rfl

theorem reactAll_overshoot (w : Nat) (ha : a.OnlyNewlines) (hc : Text.isBreak c)
    (hne : c ≠ '\n') :
    (ofText (a ++ c :: b) w).reactAll (overshoot a b) =
      .ok ((ofText (a ++ c :: b) w).showing a (row a) (col a + 1)) := by
  have hs := ha.not_straddles (c :: b)
  have hcount : 0 + row a < (a ++ c :: b).lineCount := by
    rw [Nat.zero_add]
    exact Text.row_lt_lineCount hs
  have hdowns := reactAll_downs (ofText (a ++ c :: b) w) hcount
  rw [Nat.zero_add] at hdowns
  have hend := react_endKey (ofText (a ++ c :: b) w) 0 (Buffer.lineLength_otherBreak hs hc hne)
  -- with the rest deleted the text is `a ++ [c]`, and its last line is empty
  obtain ⟨hrow, hcol⟩ := Text.place_append_of_isBreak hc (ha.not_straddles [c])
  have hnext : row a + 1 < (a ++ [c]).lineCount := by
    rw [Text.lineCount_eq, hrow]
    exact Nat.lt_succ_self _
  have hlast : (⟨a ++ [c]⟩ : Buffer).lineLength (row a + 1) = .ok 0 := by
    rw [← hrow, Buffer.lineLength_last, hcol]
  have hdown := react_down (ofText (a ++ c :: b) w) (col a + 1) hnext hlast
  rw [overshoot]
  refine (reactAll_append hdowns _).trans ?_
  rw [reactAll_cons hend, reactAll_append (reactAll_deletes _ ha), reactAll_cons hdown,
    Nat.min_zero, reactAll_cons (react_backspace _ ha hc hne)]
  rfl

/-- Behind the end of the text the cursor is not on its line any more. -/
theorem not_inRange_showing (a : Text) : ¬ (p.showing a (row a) (col a + 1)).InRange := by
  rintro ⟨-, n, hn, hle⟩
  have hlength : (p.showing a (row a) (col a + 1)).cursorLineLength = .ok (col a) :=
    Buffer.lineLength_last a
  rw [hlength] at hn
  obtain rfl : col a = n := Except.ok.inj hn
  exact Nat.not_succ_le_self _ hle

theorem react_char_showing (a : Text) (d : Char) :
    (p.showing a (row a) (col a + 1)).react (.pressed (.char d)) =
      .error (.position (a.length + 1)) := by
  have htype : (p.showing a (row a) (col a + 1)).typeChar d = .error (.position (a.length + 1)) :=
    insertInLine_of_error (Buffer.insert_past_end a Nat.one_pos [d])
  rw [react_pressed, press, htype]
  rfl

/-- From some texts no sequence of events fails, or leaves the cursor off its line; they are the
texts whose only line ends are LFs. -/
theorem onlyNewlines_tfae (t : Text) (w : Nat) : List.TFAE [
    t.OnlyNewlines,
    ∀ es, TypesNoBreak es → ∃ p, (ofText t w).reactAll es = .ok p ∧ p.InRange,
    ∀ es, TypesNoBreak es → ∃ p, (ofText t w).reactAll es = .ok p,
    ∀ es p, TypesNoBreak es → (ofText t w).reactAll es = .ok p → p.InRange] := by
  tfae_have 1 → 2 := by
    intro ht es hes
    obtain ⟨p, a, b, hp, -, hat, -⟩ := (At.ofText ht w).reactAll hes
    exact ⟨p, hp, hat.inRange⟩
  tfae_have 2 → 3 := by
    intro h es hes
    obtain ⟨p, hp, -⟩ := h es hes
    exact ⟨p, hp⟩
  tfae_have 2 → 4 := by
    intro h es p hes hp
    obtain ⟨q, hq, hrange⟩ := h es hes
    rw [hp] at hq
    obtain rfl : p = q := Except.ok.inj hq
    exact hrange
  tfae_have 3 → 1 := by
    intro h
    by_contra ht
    obtain ⟨a, c, b, rfl, ha, hc, hne⟩ := Text.exists_otherBreak ht
    -- any character will do to fail behind the end of the text
    have hspace : TypesNoBreak [.pressed (.char ' ')] := by decide
    obtain ⟨p, hp⟩ := h _ ((typesNoBreak_overshoot a b).append hspace)
    rw [reactAll_append (reactAll_overshoot (b := b) w ha hc hne), reactAll,
      react_char_showing] at hp
    cases hp
  tfae_have 4 → 1 := by
    intro h
    by_contra ht
    obtain ⟨a, c, b, rfl, ha, hc, hne⟩ := Text.exists_otherBreak ht
    exact not_inRange_showing _ a
      (h _ _ (typesNoBreak_overshoot a b) (reactAll_overshoot w ha hc hne))
  tfae_finish

/-- The five kinds of keys on a text of one CRLF line. -/
theorem reactAll_crlf_fails :
    TypesNoBreak [.pressed .endKey, .pressed .delete, .pressed .down, .pressed .backspace,
        .pressed (.char 'x')] ∧
      (ofText ['a', '\r', '\n'] 4).reactAll [.pressed .endKey, .pressed .delete, .pressed .down,
        .pressed .backspace, .pressed (.char 'x')] = .error (.position 2) :=
  ⟨by decide, rfl⟩

end Pane

end ScriptPad
