import Mathlib.Data.List.Infix
import ScriptPad.Proofs.Document.Place

/-!
When an event changes the text. A pane says of most edits that they change the text without asking
the buffer, so this is to be shown: what is typed is not empty, a character before the cursor is
there to be removed, and only Delete has to look.

Backspace at the start of a line is the case that could go wrong. An LF typed after a CR ends no line
of its own, and still the cursor goes down; on the last line it then stands on a line that the text
does not have. On an empty text it would find nothing to remove there. The invariant is `Anchored`:
a cursor behind the last line has a CRLF in the text, and while it stands there the pair stays.
-/

namespace ScriptPad

section

variable {ε α β : Type} {x : Except ε α} {r : β}

theorem exists_of_bind_eq_ok {f : α → Except ε β} (h : x >>= f = .ok r) :
    ∃ y, x = .ok y ∧ f y = .ok r := by
  cases x with
  | error e => exact absurd h (by simp [Bind.bind, Except.bind])
  | ok y => exact ⟨y, rfl, h⟩

theorem exists_of_map_eq_ok {f : α → β} (h : f <$> x = .ok r) : ∃ y, x = .ok y ∧ f y = r := by
  cases x with
  | error e => exact absurd h (by simp [Functor.map, Except.map])
  | ok y => exact ⟨y, rfl, Except.ok.inj h⟩

end

namespace Text

/-! ### Rows of a longer text -/

theorem not_straddles_cons {a b : Text} {c : Char} (hc : c ≠ '\n') : ¬ Straddles a (c :: b) := by
  rintro ⟨-, hhead⟩
  exact hc (by simpa using hhead)

theorem Straddles.exists_append {a b : Text} (h : Straddles a b) :
    ∃ a' b', a = a' ++ ['\r'] ∧ b = '\n' :: b' := by
  obtain ⟨a', ha⟩ := List.getLast?_eq_some_iff.1 h.1
  obtain ⟨b', hb⟩ := List.head?_eq_some_iff.1 h.2
  exact ⟨a', b', ha, hb⟩

/-- The second character of the pair ends no line of its own. -/
theorem row_append_crlf (a : Text) : row (a ++ ['\r'] ++ ['\n']) = row (a ++ ['\r']) := by
  have hpair : row (a ++ ['\r', '\n']) = row a + 1 := row_append (not_straddles_cons (by decide))
  have hfirst : row (a ++ ['\r']) = row a + 1 := row_append (not_straddles_cons (by decide))
  rw [List.append_assoc, hfirst]
  exact hpair

theorem row_le_append (a b : Text) : row a ≤ row (a ++ b) := by
  by_cases h : Straddles a b
  · obtain ⟨a, b, rfl, rfl⟩ := h.exists_append
    have hpair : ¬ Straddles (a ++ ['\r'] ++ ['\n']) b := by simp [Straddles]
    have hrow := row_append hpair
    rw [row_append_crlf, List.append_assoc] at hrow
    exact hrow ▸ Nat.le_add_right _ _
  · rw [row_append h]
    exact Nat.le_add_right _ _

theorem row_append_singleton_le (a : Text) (c : Char) : row (a ++ [c]) ≤ row a + 1 := by
  by_cases hc : isBreak c
  · by_cases h : Straddles a [c]
    · obtain ⟨a, b, rfl, hb⟩ := h.exists_append
      obtain ⟨rfl, rfl⟩ := List.cons.inj hb
      rw [row_append_crlf]
      exact Nat.le_succ _
    · exact Nat.le_of_eq (place_append_of_isBreak hc h).1
  · rw [(place_append_of_not_isBreak a (s := [c]) (by simpa using hc)).1]
    exact Nat.le_succ _

theorem lineStart_lineCount (t : Text) : lineStart t (lineCount t) = t.length := by
  rw [lineStart, lineCount, List.take_length, flatten_lines]

theorem exists_append_of_lineStart {t : Text} {line : Nat} (hline : line < lineCount t) :
    ∃ a b, t = a ++ b ∧ row a = line ∧ a.length = lineStart t line := by
  obtain ⟨a, b, rfl, rfl, hcol, hs⟩ := exists_append_of_lt_lineCount hline
  have hlength := lineStart_append hs
  rw [hcol, Nat.add_zero] at hlength
  exact ⟨a, b, rfl, rfl, hlength.symm⟩

theorem exists_append_of_lineStart_le {pre rest : Text} {line : Nat}
    (hline : line < lineCount (pre ++ rest)) (hle : lineStart (pre ++ rest) line ≤ pre.length) :
    ∃ a d, pre = a ++ d ∧ row a = line ∧ a.length = lineStart (pre ++ rest) line := by
  obtain ⟨a, b, hsplit, hrow, hlength⟩ := exists_append_of_lineStart hline
  obtain ⟨d, hd⟩ := List.prefix_of_prefix_length_le ⟨b, hsplit.symm⟩ (List.prefix_append pre rest)
    (hlength ▸ hle)
  exact ⟨a, d, hd.symm, hrow, hlength⟩

/-! ### Splicing -/

/-- One text becomes another when `new` takes the place of `old`, `i` characters in. -/
def Spliced (t t' : Text) (i : Nat) (old new : Text) : Prop :=
  ∃ pre post, t = pre ++ old ++ post ∧ t' = pre ++ new ++ post ∧ pre.length = i

variable {t t' old new : Text} {i line : Nat}

theorem Spliced.ne (h : Spliced t t' i old new) (hne : old.length ≠ new.length) : t' ≠ t := by
  obtain ⟨pre, post, rfl, rfl, -⟩ := h
  intro heq
  have hlength := congrArg List.length heq
  simp only [List.length_append] at hlength
  omega

/-- What happens at or after the start of a line leaves the line there. -/
theorem Spliced.lt_lineCount (h : Spliced t t' i old new) (hline : line < lineCount t)
    (hle : lineStart t line ≤ i) : line < lineCount t' := by
  obtain ⟨pre, post, rfl, rfl, rfl⟩ := h
  rw [List.append_assoc] at hline hle
  obtain ⟨a, d, rfl, rfl, -⟩ := exists_append_of_lineStart_le hline hle
  rw [lineCount_eq, List.append_assoc, List.append_assoc]
  exact Nat.lt_succ_of_le (row_le_append a _)

theorem Spliced.eq_append (h : Spliced t t' i old new) (hle : t.length ≤ i) : t' = t ++ new := by
  obtain ⟨pre, post, rfl, rfl, rfl⟩ := h
  simp only [List.length_append] at hle
  have hold : old = [] := List.length_eq_zero_iff.1 (by omega)
  have hpost : post = [] := List.length_eq_zero_iff.1 (by omega)
  simp [hold, hpost]

end Text

open Text (Spliced)

/-! ### What a buffer does -/

namespace Buffer

variable {b b' : Buffer} {line col i n : Nat} {s : Text} {changed : Bool}

theorem lt_lineCount_of_lineLength (h : b.lineLength i = .ok n) : i < b.lineCount := by
  obtain ⟨l, hl, -⟩ := exists_of_map_eq_ok h
  exact (List.getElem?_eq_some_iff.1 (line_eq_ok_iff.1 hl)).1

theorem eq_of_offset (h : b.offset line col = .ok i) :
    line ≤ b.lineCount ∧ b.text.lineStart line + col = i := by
  by_cases hle : line ≤ b.lineCount
  · rw [offset, if_pos hle] at h
    exact ⟨hle, Except.ok.inj h⟩
  · simp [offset, hle] at h

theorem spliced_of_insertAt (h : b.insertAt i s = .ok b') : Spliced b.text b'.text i [] s := by
  by_cases hle : i ≤ b.text.length
  · rw [insertAt_of_le hle] at h
    obtain rfl := Except.ok.inj h
    exact ⟨b.text.take i, b.text.drop i, by simp, rfl, List.length_take_of_le hle⟩
  · simp [insertAt, hle] at h

theorem spliced_of_eraseAt (h : b.eraseAt i = .ok b') :
    ∃ c, Spliced b.text b'.text i [c] [] := by
  by_cases hlt : i < b.text.length
  · rw [eraseAt_of_lt hlt] at h
    obtain rfl := Except.ok.inj h
    refine ⟨b.text[i], b.text.take i, b.text.drop (i + 1), by simp, ?_, ?_⟩
    · simp [List.eraseIdx_eq_take_drop_succ]
    · exact List.length_take_of_le (Nat.le_of_lt hlt)
  · simp [eraseAt, hlt] at h

theorem spliced_of_insert (h : b.insert line col s = .ok b') :
    line ≤ b.lineCount ∧ Spliced b.text b'.text (b.text.lineStart line + col) [] s := by
  obtain ⟨i, hi, hinsert⟩ := exists_of_bind_eq_ok h
  obtain ⟨hle, rfl⟩ := eq_of_offset hi
  exact ⟨hle, spliced_of_insertAt hinsert⟩

theorem spliced_of_deleteForward (h : b.deleteForward line col = .ok (changed, b')) :
    (changed = false ∧ b' = b) ∨ (changed = true ∧ line ≤ b.lineCount ∧
      ∃ c, Spliced b.text b'.text (b.text.lineStart line + col) [c] []) := by
  obtain ⟨i, hi, hdelete⟩ := exists_of_bind_eq_ok h
  obtain ⟨hle, rfl⟩ := eq_of_offset hi
  split at hdelete
  · obtain ⟨b₁, herase, heq⟩ := exists_of_map_eq_ok hdelete
    obtain ⟨rfl, rfl⟩ := Prod.mk.inj heq
    exact .inr ⟨rfl, hle, spliced_of_eraseAt herase⟩
  · obtain ⟨rfl, rfl⟩ := Prod.mk.inj (Except.ok.inj hdelete)
    exact .inl ⟨rfl, rfl⟩

/-- Nothing is removed only before the first character. -/
theorem spliced_of_deleteBackward (h : b.deleteBackward line col = .ok (changed, b')) :
    line ≤ b.lineCount ∧ ((b' = b ∧ b.text.lineStart line + col = 0) ∨
      ∃ i c, i + 1 = b.text.lineStart line + col ∧ Spliced b.text b'.text i [c] []) := by
  obtain ⟨i, hi, hdelete⟩ := exists_of_bind_eq_ok h
  obtain ⟨hle, rfl⟩ := eq_of_offset hi
  refine ⟨hle, ?_⟩
  split at hdelete
  · next hpos =>
      obtain ⟨b₁, herase, heq⟩ := exists_of_map_eq_ok hdelete
      obtain ⟨-, rfl⟩ := Prod.mk.inj heq
      obtain ⟨c, hc⟩ := spliced_of_eraseAt herase
      exact .inr ⟨_, c, Nat.succ_pred_eq_of_pos hpos, hc⟩
  · next hzero =>
      obtain ⟨-, rfl⟩ := Prod.mk.inj (Except.ok.inj hdelete)
      exact .inl ⟨rfl, Nat.eq_zero_of_not_pos hzero⟩

end Buffer

/-! ### What a pane does -/

namespace Pane

/-- The cursor is behind the last line of the text only if the text has a CRLF. -/
def Anchored (p : Pane) : Prop := p.cursor.line = p.buffer.lineCount → ['\r', '\n'] <:+: p.text

/-- The panes may differ in the text and the cursor only. -/
def SameBeside (p q : Pane) : Prop := q = { p with buffer := q.buffer, cursor := q.cursor }

/-- What an event does: nothing to the text, or one of three kinds of edit. -/
inductive Change (p : Pane) : Action → Pane → Prop
  | none {a : Action} {q : Pane} (hrest : p.SameBeside q) (ha : a ≠ .edited)
      (htext : q.text = p.text)
      (hline : q.cursor.line = p.cursor.line ∨ q.cursor.line < p.buffer.lineCount) : Change p a q
  | onLine {q : Pane} {i : Nat} {old new : Text} (hrest : p.SameBeside q)
      (hle : p.cursor.line ≤ p.buffer.lineCount) (hline : q.cursor.line = p.cursor.line)
      (hi : p.text.lineStart p.cursor.line ≤ i) (hsplice : Spliced p.text q.text i old new)
      (hne : old.length ≠ new.length) : Change p .edited q
  | breaks {q : Pane} {i : Nat} (hrest : p.SameBeside q)
      (hle : p.cursor.line ≤ p.buffer.lineCount) (hline : q.cursor.line = p.cursor.line + 1)
      (hi : p.text.lineStart p.cursor.line ≤ i) (hsplice : Spliced p.text q.text i [] ['\n']) :
      Change p .edited q
  | joins {q : Pane} (hrest : p.SameBeside q) (hle : p.cursor.line ≤ p.buffer.lineCount)
      (hpos : 0 < p.cursor.line) (hline : q.cursor.line = p.cursor.line - 1)
      (hsplice : (q.text = p.text ∧ p.text.lineStart p.cursor.line = 0) ∨
        ∃ i c, i + 1 = p.text.lineStart p.cursor.line ∧ Spliced p.text q.text i [c] []) :
      Change p .edited q

variable {p q : Pane} {a : Action}

theorem Change.sameBeside (hc : Change p a q) : p.SameBeside q := by
  cases hc with
  | none hrest | onLine hrest | breaks hrest | joins hrest => exact hrest

theorem SameBeside.markers_eq (h : p.SameBeside q) : q.markers = p.markers := by
  unfold SameBeside at h
  rw [h]

theorem Change.moved (hrest : p.SameBeside q) (htext : q.text = p.text)
    (hline : q.cursor.line = p.cursor.line ∨ q.cursor.line < p.buffer.lineCount) :
    Change p .redraw q := .none hrest (by decide) htext hline

theorem change_goRight (h : p.goRight = .ok q) : Change p .redraw q := by
  obtain ⟨n, -, hq⟩ := exists_of_bind_eq_ok h
  obtain rfl := Except.ok.inj hq
  exact .moved rfl rfl (.inl rfl)

theorem change_goToLineEnd (h : p.goToLineEnd = .ok q) : Change p .redraw q := by
  obtain ⟨n, -, hq⟩ := exists_of_bind_eq_ok h
  obtain rfl := Except.ok.inj hq
  exact .moved rfl rfl (.inl rfl)

/-- Up and Down put the cursor on a line that the text has. -/
theorem change_keepCursorInLine {c : Cursor}
    (h : keepCursorInLine { p with cursor := c } = .ok q) : Change p .redraw q := by
  obtain ⟨n, hn, hq⟩ := exists_of_bind_eq_ok h
  obtain rfl := Except.ok.inj hq
  exact .moved rfl rfl (.inr (Buffer.lt_lineCount_of_lineLength hn))

theorem change_insertInLine {s : Text} {edited : Bool} (hs : s ≠ [])
    (h : p.insertInLine s = .ok (edited, q)) : Change p (editAction (edited, q)).1 q := by
  obtain ⟨b, hb, hq⟩ := exists_of_bind_eq_ok h
  obtain ⟨rfl, rfl⟩ := Prod.mk.inj (Except.ok.inj hq)
  obtain ⟨hle, hsplice⟩ := Buffer.spliced_of_insert hb
  refine .onLine rfl hle rfl (Nat.le_add_right _ _) hsplice ?_
  exact fun hlength => hs (List.length_eq_zero_iff.1 hlength.symm)

theorem change_breakLine {edited : Bool} (h : p.breakLine = .ok (edited, q)) :
    Change p (editAction (edited, q)).1 q := by
  obtain ⟨b, hb, hq⟩ := exists_of_bind_eq_ok h
  obtain ⟨rfl, rfl⟩ := Prod.mk.inj (Except.ok.inj hq)
  obtain ⟨hle, hsplice⟩ := Buffer.spliced_of_insert hb
  exact .breaks rfl hle rfl (Nat.le_add_right _ _) hsplice

theorem change_deleteForward {edited : Bool} (h : p.deleteForward = .ok (edited, q)) :
    Change p (editAction (edited, q)).1 q := by
  obtain ⟨⟨changed, b⟩, hb, hq⟩ := exists_of_bind_eq_ok h
  obtain ⟨rfl, rfl⟩ := Prod.mk.inj (Except.ok.inj hq)
  rcases Buffer.spliced_of_deleteForward hb with ⟨rfl, rfl⟩ | ⟨rfl, hle, c, hsplice⟩
  · exact .moved rfl rfl (.inl rfl)
  · exact .onLine rfl hle rfl (Nat.le_add_right _ _) hsplice (by simp)

theorem change_deleteBackward {edited : Bool} (h : p.deleteBackward = .ok (edited, q)) :
    Change p (editAction (edited, q)).1 q := by
  rw [deleteBackward] at h
  split at h
  · next hcol =>
      obtain ⟨⟨changed, b⟩, hb, hq⟩ := exists_of_bind_eq_ok h
      obtain ⟨rfl, rfl⟩ := Prod.mk.inj (Except.ok.inj hq)
      obtain ⟨hle, ⟨-, hzero⟩ | ⟨i, c, hi, hsplice⟩⟩ := Buffer.spliced_of_deleteBackward hb
      · omega
      · have hi' : p.buffer.text.lineStart p.cursor.line ≤ i := by omega
        exact .onLine rfl hle rfl hi' hsplice (by simp)
  · next hcol =>
      split at h
      · next hline =>
          obtain ⟨n, -, hdelete⟩ := exists_of_bind_eq_ok h
          obtain ⟨⟨changed, b⟩, hb, hq⟩ := exists_of_bind_eq_ok hdelete
          obtain ⟨rfl, rfl⟩ := Prod.mk.inj (Except.ok.inj hq)
          obtain ⟨hle, hsplice⟩ := Buffer.spliced_of_deleteBackward hb
          refine .joins rfl hle hline rfl (hsplice.imp ?_ id)
          rintro ⟨rfl, hzero⟩
          exact ⟨rfl, hzero⟩
      · obtain ⟨rfl, rfl⟩ := Prod.mk.inj (Except.ok.inj h)
        exact .moved rfl rfl (.inl rfl)

theorem change_of_redraw {r : Except OutOfRange Pane} (hr : ∀ q, r = .ok q → Change p .redraw q)
    (h : (Action.redraw, ·) <$> r = .ok (a, q)) : Change p a q := by
  obtain ⟨q₁, hq₁, heq⟩ := exists_of_map_eq_ok h
  obtain ⟨rfl, rfl⟩ := Prod.mk.inj heq
  exact hr q₁ hq₁

theorem change_of_edit {r : Except OutOfRange (Bool × Pane)}
    (hr : ∀ edited q, r = .ok (edited, q) → Change p (editAction (edited, q)).1 q)
    (h : editAction <$> r = .ok (a, q)) : Change p a q := by
  obtain ⟨⟨edited, q₁⟩, hq₁, heq⟩ := exists_of_map_eq_ok h
  obtain ⟨rfl, rfl⟩ := Prod.mk.inj heq
  exact hr edited q₁ hq₁

theorem change_press {k : Key} (h : p.press k = .ok (a, q)) : Change p a q := by
  cases k with
  | char c => exact change_of_edit (fun _ _ => change_insertInLine (by simp)) h
  | tab =>
      have hspaces : List.replicate p.tabWidth ' ' ≠ [] := by
        have hpos := p.tabWidth_pos
        rw [ne_eq, List.replicate_eq_nil_iff]
        omega
      exact change_of_edit (fun _ _ => change_insertInLine hspaces) h
  | enter => exact change_of_edit (fun _ _ => change_breakLine) h
  | backspace => exact change_of_edit (fun _ _ => change_deleteBackward) h
  | delete => exact change_of_edit (fun _ _ => change_deleteForward) h
  | right => exact change_of_redraw (fun _ => change_goRight) h
  | endKey => exact change_of_redraw (fun _ => change_goToLineEnd) h
  | up => exact change_of_redraw (fun _ => change_keepCursorInLine) h
  | down => exact change_of_redraw (fun _ => change_keepCursorInLine) h
  | left | home | function n | other =>
      obtain ⟨rfl, rfl⟩ := Prod.mk.inj (Except.ok.inj h)
      refine .none rfl ?_ rfl (.inl rfl)
      first | decide | (split <;> decide)

theorem controlAction_ne_edited (k : Key) : controlAction k ≠ .edited := by
  cases k with
  | char c =>
      rw [controlAction]
      split
      · decide
      · split <;> decide
  | _ => simp [controlAction]

theorem change_react {e : Event} (h : p.react e = .ok (a, q)) : Change p a q := by
  cases e with
  | key k =>
      rw [react] at h
      split at h
      · obtain ⟨rfl, rfl⟩ := Prod.mk.inj (Except.ok.inj h)
        exact .none rfl (by decide) rfl (.inl rfl)
      · split at h
        · obtain ⟨rfl, rfl⟩ := Prod.mk.inj (Except.ok.inj h)
          exact .none rfl (controlAction_ne_edited _) rfl (.inl rfl)
        · exact change_press h
  | resize w h' =>
      obtain ⟨rfl, rfl⟩ := Prod.mk.inj (Except.ok.inj h)
      exact .none rfl (by decide) rfl (.inl rfl)
  | ignored =>
      obtain ⟨rfl, rfl⟩ := Prod.mk.inj (Except.ok.inj h)
      exact .none rfl (by decide) rfl (.inl rfl)

/-! ### The invariant -/

theorem anchored_of_lt (h : p.cursor.line < p.buffer.lineCount) : p.Anchored :=
  fun heq => absurd heq (Nat.ne_of_lt h)

theorem anchored_ofText (t : Text) (w : Nat) : (ofText t w).Anchored :=
  anchored_of_lt (Buffer.lineCount_pos _)

theorem Anchored.scrollToCursor (h : p.Anchored) (height : Nat) :
    (p.scrollToCursor height).Anchored := by
  have htext : (p.scrollToCursor height).text = p.text := text_scrollToCursor p height
  have hcount : (p.scrollToCursor height).buffer.lineCount = p.buffer.lineCount :=
    congrArg Text.lineCount htext
  rwa [Anchored, htext, hcount, cursor_scrollToCursor]

/-- Behind the last line there is only the end of the text. -/
theorem lineStart_of_eq (h : p.cursor.line = p.buffer.lineCount) :
    p.text.lineStart p.cursor.line = p.text.length := by
  rw [h]
  exact Text.lineStart_lineCount p.text

/-- What happens behind the last line is put after the text. -/
theorem Anchored.atEnd (h : p.Anchored) {i : Nat} {old new : Text}
    (heq : p.cursor.line = p.buffer.lineCount) (hi : p.text.lineStart p.cursor.line ≤ i)
    (hsplice : Spliced p.text q.text i old new) : q.Anchored := by
  intro _
  rw [hsplice.eq_append (lineStart_of_eq heq ▸ hi)]
  exact (h heq).trans (List.prefix_append _ _).isInfix

theorem Anchored.onLine (h : p.Anchored) {i : Nat} {old new : Text}
    (hle : p.cursor.line ≤ p.buffer.lineCount) (hline : q.cursor.line = p.cursor.line)
    (hi : p.text.lineStart p.cursor.line ≤ i) (hsplice : Spliced p.text q.text i old new) :
    q.Anchored := by
  rcases Nat.lt_or_eq_of_le hle with hlt | heq
  · exact anchored_of_lt (hline ▸ hsplice.lt_lineCount hlt hi)
  · exact h.atEnd heq hi hsplice

/-- An LF that starts no new line has met a CR. -/
theorem Anchored.breaks (h : p.Anchored) {i : Nat} (hle : p.cursor.line ≤ p.buffer.lineCount)
    (hline : q.cursor.line = p.cursor.line + 1) (hi : p.text.lineStart p.cursor.line ≤ i)
    (hsplice : Spliced p.text q.text i [] ['\n']) : q.Anchored := by
  rcases Nat.lt_or_eq_of_le hle with hlt | heq
  · obtain ⟨pre, post, htext, htext', rfl⟩ := hsplice
    by_cases hcr : Text.Straddles pre ['\n']
    · obtain ⟨pre, rest, rfl, -⟩ := hcr.exists_append
      intro _
      exact ⟨pre, post, by simp [htext']⟩
    · refine anchored_of_lt ?_
      rw [List.append_nil] at htext
      have hlt' : p.cursor.line < Text.lineCount (pre ++ post) := htext ▸ hlt
      obtain ⟨a, d, rfl, hrow, -⟩ := Text.exists_append_of_lineStart_le hlt' (htext ▸ hi)
      calc q.cursor.line = Text.row a + 1 := by rw [hline, hrow]
        _ ≤ Text.row (a ++ d) + 1 := Nat.succ_le_succ (Text.row_le_append a d)
        _ = Text.row (a ++ d ++ ['\n']) := (Text.place_append_of_isBreak rfl hcr).1.symm
        _ ≤ Text.row (a ++ d ++ ['\n'] ++ post) := Text.row_le_append _ _
        _ < Text.lineCount q.text := by
          rw [htext', Text.lineCount_eq]
          exact Nat.lt_succ_self _
  · exact h.atEnd heq hi hsplice

/-- A line end that goes takes no more than one line with it. -/
theorem anchored_of_joins {i : Nat} {c : Char} (hlt : p.cursor.line < p.buffer.lineCount)
    (hpos : 0 < p.cursor.line) (hline : q.cursor.line = p.cursor.line - 1)
    (hi : i + 1 = p.text.lineStart p.cursor.line) (hsplice : Spliced p.text q.text i [c] []) :
    q.Anchored := by
  obtain ⟨pre, post, htext, htext', rfl⟩ := hsplice
  rw [List.append_nil] at htext'
  have hlt' : p.cursor.line < Text.lineCount (pre ++ [c] ++ post) := htext ▸ hlt
  obtain ⟨a, d, ha, hrow, hlength⟩ := Text.exists_append_of_lineStart_le hlt'
    (by rw [← htext, ← hi]; simp)
  rw [← htext, ← hi] at hlength
  obtain ⟨rfl, -⟩ := List.append_inj ((List.append_nil _).trans ha) (by simp [hlength])
  have hrow' := Text.row_append_singleton_le pre c
  have hle' := Text.row_le_append pre post
  refine anchored_of_lt ?_
  show q.cursor.line < Text.lineCount q.text
  rw [htext', Text.lineCount_eq]
  omega

/-- Behind the last line Backspace takes the last character of the text. -/
theorem Anchored.joins_atEnd (h : p.Anchored) {i : Nat} {c : Char}
    (heq : p.cursor.line = p.buffer.lineCount) (hline : q.cursor.line = p.cursor.line - 1)
    (hi : i + 1 = p.text.lineStart p.cursor.line) (hsplice : Spliced p.text q.text i [c] []) :
    q.Anchored := by
  obtain ⟨pre, post, htext, htext', rfl⟩ := hsplice
  have hlength := congrArg List.length htext
  rw [← lineStart_of_eq heq, ← hi] at hlength
  simp only [List.length_append, List.length_singleton] at hlength
  obtain rfl : post = [] := List.length_eq_zero_iff.1 (by omega)
  rw [List.append_nil] at htext
  rw [List.append_nil, List.append_nil] at htext'
  intro heq'
  have hinfix := h heq
  rw [htext, List.infix_concat_iff] at hinfix
  rcases hinfix with ⟨rest, hrest⟩ | hinfix
  · -- without the LF the CR still ends the line, so the cursor is on a line after all
    obtain ⟨rfl, hc⟩ := List.append_inj' ((List.append_assoc rest ['\r'] ['\n']).trans hrest) rfl
    obtain ⟨rfl, -⟩ := List.cons.inj hc
    have hrow := Text.row_append_crlf rest
    have hcount : p.buffer.lineCount = Text.row p.text + 1 := Text.lineCount_eq _
    have hcount' : q.buffer.lineCount = Text.row q.text + 1 := Text.lineCount_eq _
    rw [htext, hrow] at hcount
    rw [htext'] at hcount'
    omega
  · rwa [htext']

theorem Anchored.joins (h : p.Anchored) {i : Nat} {c : Char}
    (hle : p.cursor.line ≤ p.buffer.lineCount) (hpos : 0 < p.cursor.line)
    (hline : q.cursor.line = p.cursor.line - 1) (hi : i + 1 = p.text.lineStart p.cursor.line)
    (hsplice : Spliced p.text q.text i [c] []) : q.Anchored := by
  rcases Nat.lt_or_eq_of_le hle with hlt | heq
  · exact anchored_of_joins hlt hpos hline hi hsplice
  · exact h.joins_atEnd heq hline hi hsplice

/-- On a line that is not the first there is a character before the cursor. -/
theorem Anchored.lineStart_pos (h : p.Anchored) (hle : p.cursor.line ≤ p.buffer.lineCount)
    (hpos : 0 < p.cursor.line) : 0 < p.text.lineStart p.cursor.line := by
  rcases Nat.lt_or_eq_of_le hle with hlt | heq
  · obtain ⟨a, b, htext, hrow, hlength⟩ := Text.exists_append_of_lineStart hlt
    refine Nat.pos_of_ne_zero fun hzero => ?_
    have ha : a = [] := List.length_eq_zero_iff.1 (hlength.trans hzero)
    rw [← hrow, ha] at hpos
    exact Nat.lt_irrefl 0 hpos
  · rw [lineStart_of_eq heq]
    exact Nat.lt_of_lt_of_le (by decide) (h heq).length_le

theorem Anchored.change (h : p.Anchored) (hc : Change p a q) : q.Anchored := by
  cases hc with
  | none hrest ha htext hline =>
      have hcount : q.buffer.lineCount = p.buffer.lineCount := congrArg Text.lineCount htext
      intro heq
      rw [htext]
      rcases hline with hline | hline
      · exact h (hline.symm.trans (heq.trans hcount))
      · exact absurd (heq.trans hcount) (Nat.ne_of_lt hline)
  | onLine hrest hle hline hi hsplice hne => exact h.onLine hle hline hi hsplice
  | breaks hrest hle hline hi hsplice => exact h.breaks hle hline hi hsplice
  | joins hrest hle hpos hline hsplice =>
      rcases hsplice with ⟨-, hzero⟩ | ⟨i, c, hi, hsplice⟩
      · exact absurd hzero (Nat.ne_of_gt (h.lineStart_pos hle hpos))
      · exact h.joins hle hpos hline hi hsplice

/-- The pane reports an edit exactly when the text is another one. -/
theorem Anchored.edited_iff (h : p.Anchored) (hc : Change p a q) :
    a = .edited ↔ q.text ≠ p.text := by
  cases hc with
  | none hrest ha htext hline => simp [ha, htext]
  | onLine hrest hle hline hi hsplice hne => simpa using hsplice.ne hne
  | breaks hrest hle hline hi hsplice => simpa using hsplice.ne (by simp)
  | joins hrest hle hpos hline hsplice =>
      rcases hsplice with ⟨-, hzero⟩ | ⟨i, c, hi, hsplice⟩
      · exact absurd hzero (Nat.ne_of_gt (h.lineStart_pos hle hpos))
      · simpa using hsplice.ne (by simp)

end Pane

end ScriptPad
