import ScriptPad.Document.Input
import ScriptPad.Proofs.Text.Lines

/-!
Edits at a place. A place between two texts `a` and `b` has the address `row a`, `col a`, unless it
stands inside a CRLF pair; there a buffer edits as a plain text does, by taking from `b` or from the
end of `a`. Below are also the notions that statements about a pane need: a sequence of events, and a
cursor that stands on its line.
-/

namespace ScriptPad

open Text (row col Straddles)

namespace Buffer

variable {a b : Text}

theorem insert_of_offset {t : Buffer} {line col i : Nat} (h : t.offset line col = .ok i) (s : Text) :
    t.insert line col s = t.insertAt i s := by
  rw [insert, h]
  rfl

theorem deleteForward_of_lt {t : Buffer} {line col i : Nat} (h : t.offset line col = .ok i)
    (hi : i < t.text.length) : t.deleteForward line col = .ok (true, ⟨t.text.eraseIdx i⟩) := by
  have hdelete : t.deleteForward line col =
      if i < t.text.length then (true, ·) <$> t.eraseAt i else .ok (false, t) := by
    rw [deleteForward, h]
    rfl
  rw [hdelete, if_pos hi, eraseAt_of_lt hi]
  rfl

theorem deleteForward_of_le {t : Buffer} {line col i : Nat} (h : t.offset line col = .ok i)
    (hi : t.text.length ≤ i) : t.deleteForward line col = .ok (false, t) := by
  have hdelete : t.deleteForward line col =
      if i < t.text.length then (true, ·) <$> t.eraseAt i else .ok (false, t) := by
    rw [deleteForward, h]
    rfl
  rw [hdelete, if_neg (Nat.not_lt.2 hi)]

theorem deleteBackward_of_offset {t : Buffer} {line col i : Nat}
    (h : t.offset line col = .ok (i + 1)) (hi : i < t.text.length) :
    t.deleteBackward line col = .ok (true, ⟨t.text.eraseIdx i⟩) := by
  have hdelete : t.deleteBackward line col = (true, ·) <$> t.eraseAt i := by
    rw [deleteBackward, h]
    rfl
  rw [hdelete, eraseAt_of_lt hi]
  rfl

/-- The columns after a place count on from it, also past the end of its line. -/
theorem offset_after (h : ¬ Straddles a b) (k : Nat) :
    (⟨a ++ b⟩ : Buffer).offset (row a) (col a + k) = .ok (a.length + k) := by
  have hle : row a ≤ (⟨a ++ b⟩ : Buffer).lineCount := Nat.le_of_lt (Text.row_lt_lineCount h)
  rw [offset, if_pos hle, ← Nat.add_assoc, Text.lineStart_append h]

theorem offset_place (h : ¬ Straddles a b) :
    (⟨a ++ b⟩ : Buffer).offset (row a) (col a) = .ok a.length :=
  offset_after h 0

theorem insert_place (h : ¬ Straddles a b) (s : Text) :
    (⟨a ++ b⟩ : Buffer).insert (row a) (col a) s = .ok ⟨a ++ s ++ b⟩ := by
  rw [insert_of_offset (offset_place h), insertAt_of_le (by simp)]
  simp

theorem insert_past_end (a : Text) {k : Nat} (hk : 0 < k) (s : Text) :
    (⟨a⟩ : Buffer).insert (row a) (col a + k) s = .error (.position (a.length + k)) := by
  have hoffset := offset_after (Text.not_straddles_nil_right a) k
  rw [List.append_nil] at hoffset
  rw [insert_of_offset hoffset, insertAt, if_neg]
  exact Nat.not_le.2 (Nat.lt_add_of_pos_right hk)

/-- What stands some characters after a place is removed from the line and column of the place. -/
theorem deleteForward_after {d e : Text} {c : Char} (h : ¬ Straddles a (d ++ c :: e)) :
    (⟨a ++ (d ++ c :: e)⟩ : Buffer).deleteForward (row a) (col a + d.length) =
      .ok (true, ⟨a ++ (d ++ e)⟩) := by
  rw [deleteForward_of_lt (offset_after h d.length) (by simp),
    List.eraseIdx_append_of_length_le (Nat.le_add_right _ _), Nat.add_sub_cancel_left,
    List.eraseIdx_append_of_length_le (Nat.le_refl _), Nat.sub_self]
  rfl

theorem deleteForward_place {c : Char} (h : ¬ Straddles a (c :: b)) :
    (⟨a ++ c :: b⟩ : Buffer).deleteForward (row a) (col a) = .ok (true, ⟨a ++ b⟩) :=
  deleteForward_after (d := []) h

theorem deleteForward_end (a : Text) :
    (⟨a⟩ : Buffer).deleteForward (row a) (col a) = .ok (false, ⟨a⟩) := by
  have hoffset := offset_place (Text.not_straddles_nil_right a)
  rw [List.append_nil] at hoffset
  exact deleteForward_of_le hoffset (Nat.le_refl _)

theorem deleteBackward_place {c : Char} (h : ¬ Straddles (a ++ [c]) b) :
    (⟨a ++ [c] ++ b⟩ : Buffer).deleteBackward (row (a ++ [c])) (col (a ++ [c])) =
      .ok (true, ⟨a ++ b⟩) := by
  have hoffset := offset_place h
  rw [List.length_append] at hoffset
  rw [deleteBackward_of_offset hoffset (by simp), List.append_assoc,
    List.eraseIdx_append_of_length_le (Nat.le_refl _), Nat.sub_self]
  rfl

end Buffer

namespace Pane

/-! ### What the buffer answers decides what the pane does -/

variable {p : Pane} {b : Buffer} {n : Nat} {changed : Bool}

theorem keepCursorInLine_of_length (h : p.cursorLineLength = .ok n) :
    p.keepCursorInLine = .ok { p with cursor := p.cursor.keepInLine n } := by
  rw [keepCursorInLine, h]
  rfl

theorem goRight_of_length (h : p.cursorLineLength = .ok n) :
    p.goRight = .ok { p with cursor := p.cursor.right n } := by
  rw [goRight, h]
  rfl

theorem goToLineEnd_of_length (h : p.cursorLineLength = .ok n) :
    p.goToLineEnd = .ok { p with cursor.col := n } := by
  rw [goToLineEnd, h]
  rfl

theorem insertInLine_of_buffer {s : Text}
    (h : p.buffer.insert p.cursor.line p.cursor.col s = .ok b) :
    p.insertInLine s = .ok (true, { p with buffer := b, cursor.col := p.cursor.col + s.length }) := by
  rw [insertInLine, h]
  rfl

theorem insertInLine_of_error {s : Text} {o : OutOfRange}
    (h : p.buffer.insert p.cursor.line p.cursor.col s = .error o) :
    p.insertInLine s = .error o := by
  rw [insertInLine, h]
  rfl

theorem breakLine_of_buffer (h : p.buffer.insert p.cursor.line p.cursor.col ['\n'] = .ok b) :
    p.breakLine = .ok (true, { p with buffer := b, cursor := ⟨p.cursor.line + 1, 0⟩ }) := by
  rw [breakLine, h]
  rfl

theorem deleteForward_of_buffer
    (h : p.buffer.deleteForward p.cursor.line p.cursor.col = .ok (changed, b)) :
    p.deleteForward = .ok (changed, { p with buffer := b }) := by
  rw [deleteForward, h]
  rfl

theorem deleteBackward_in_line (hcol : 0 < p.cursor.col)
    (h : p.buffer.deleteBackward p.cursor.line p.cursor.col = .ok (changed, b)) :
    p.deleteBackward = .ok (true, { p with buffer := b, cursor.col := p.cursor.col - 1 }) := by
  rw [deleteBackward, if_pos hcol, h]
  rfl

theorem deleteBackward_joins (hcol : p.cursor.col = 0) (hline : 0 < p.cursor.line)
    (hn : p.buffer.lineLength (p.cursor.line - 1) = .ok n)
    (h : p.buffer.deleteBackward p.cursor.line 0 = .ok (changed, b)) :
    p.deleteBackward =
      .ok (true, { p with buffer := b, cursor := ⟨p.cursor.line - 1, n⟩ }) := by
  rw [deleteBackward, if_neg (Nat.not_lt.2 (Nat.le_of_eq hcol)), if_pos hline, hn, h]
  rfl

end Pane

/-- The event of a key pressed alone. -/
def Event.pressed (k : Key) : Event := .key ⟨k, false, .press⟩

theorem Pane.react_pressed (p : Pane) (k : Key) : p.react (.pressed k) = p.press k := rfl

/-- The character that an event types, if it types one. -/
def Event.typed? : Event → Option Char
  | .key ⟨.char c, false, .press⟩ => some c
  | .key ⟨.char c, false, .repeated⟩ => some c
  | _ => none

/-- An event types no character that ends a line. -/
def Event.TypesNoBreak (e : Event) : Prop := ∀ c ∈ e.typed?, ¬ Text.isBreak c

-- not left to inference, which may choose to go through all characters there are
instance : DecidablePred Event.TypesNoBreak := fun e => Option.decidableForallMem e.typed?

def TypesNoBreak (es : List Event) : Prop := ∀ e ∈ es, e.TypesNoBreak

instance (es : List Event) : Decidable (TypesNoBreak es) := List.decidableBAll Event.TypesNoBreak es

theorem typesNoBreak_replicate {e : Event} (h : e.TypesNoBreak) (n : Nat) :
    TypesNoBreak (List.replicate n e) := by
  intro d hd
  rwa [List.eq_of_mem_replicate hd]

theorem TypesNoBreak.append {es fs : List Event} (he : TypesNoBreak es) (hf : TypesNoBreak fs) :
    TypesNoBreak (es ++ fs) := by
  intro e h
  rcases List.mem_append.1 h with h | h
  · exact he e h
  · exact hf e h

namespace Pane

/-- Takes events one after the other, as long as none fails. -/
def reactAll (p : Pane) : List Event → Except OutOfRange Pane
  | [] => .ok p
  | e :: es =>
    match p.react e with
    | .ok (_, q) => q.reactAll es
    | .error o => .error o

/-- The cursor stands on a line of the text and not past the end of it. -/
def InRange (p : Pane) : Prop :=
  p.cursor.line < p.buffer.lineCount ∧ ∃ n, p.cursorLineLength = .ok n ∧ p.cursor.col ≤ n

/-- The character position of the cursor. -/
def offset (p : Pane) : Nat := p.text.lineStart p.cursor.line + p.cursor.col

theorem reactAll_cons {p q : Pane} {e : Event} {a : Action} (h : p.react e = .ok (a, q))
    (es : List Event) : p.reactAll (e :: es) = q.reactAll es := by
  rw [reactAll, h]

theorem reactAll_append {p q : Pane} {es : List Event} (h : p.reactAll es = .ok q)
    (fs : List Event) : p.reactAll (es ++ fs) = q.reactAll fs := by
  induction es generalizing p with
  | nil =>
      obtain rfl : p = q := by simpa [reactAll] using h
      rfl
  | cons e es ih =>
      cases he : p.react e with
      | error o => simp [reactAll, he] at h
      | ok r =>
          rw [reactAll, he] at h
          rw [List.cons_append, reactAll, he]
          exact ih h

end Pane

end ScriptPad
