import ScriptPad.Proofs.Document.Place
import ScriptPad.Proofs.Text.Newline

/-!
A pane on a text whose only line ends are LFs is a flat editor: a text and one offset into it. What
the flat editor inserts and removes does not depend on lines at all; to move along and between rows
it counts the LFs before the offset.

The simulation keeps the text cut in two at the cursor. `Pane.At p a b` says that the pane stands at
the place between `a` and `b`; each key turns one such cut into another, and the flat editor goes
from the end of the old first part to the end of the new one.
-/

namespace ScriptPad

/-- A text and a place in it. -/
structure Flat where
  text : Text
  offset : Nat
  deriving DecidableEq, Repr

namespace Flat

/-- The number of LFs before the place. -/
def row (f : Flat) : Nat := (f.text.take f.offset).count '\n'

def col (f : Flat) : Nat := f.offset - f.text.rowStart f.row

/-- Goes to a column of a row, or to the end of the row if it is shorter. -/
def goTo (f : Flat) (row col : Nat) : Flat :=
  { f with offset := f.text.rowStart row + min col (f.text.rowLength row) }

def insert (f : Flat) (s : Text) : Flat :=
  ⟨f.text.take f.offset ++ s ++ f.text.drop f.offset, f.offset + s.length⟩

def eraseBefore (f : Flat) : Flat :=
  if f.offset = 0 then f else ⟨f.text.eraseIdx (f.offset - 1), f.offset - 1⟩

def eraseAfter (f : Flat) : Flat :=
  if f.offset < f.text.length then { f with text := f.text.eraseIdx f.offset } else f

def press (tabWidth : Nat) (f : Flat) : Key → Flat
  | .char c => f.insert [c]
  | .tab => f.insert (List.replicate tabWidth ' ')
  | .enter => f.insert ['\n']
  | .backspace => f.eraseBefore
  | .delete => f.eraseAfter
  | .left => f.goTo f.row (f.col - 1)
  | .right => f.goTo f.row (f.col + 1)
  | .home => f.goTo f.row 0
  | .endKey => f.goTo f.row (f.text.rowLength f.row)
  | .up => if f.row = 0 then f else f.goTo (f.row - 1) f.col
  | .down => if f.row + 1 < f.text.rows.length then f.goTo (f.row + 1) f.col else f
  | .function _ | .other => f

def react (tabWidth : Nat) (f : Flat) : Event → Flat
  | .key k => if k.phase = .release ∨ k.control then f else f.press tabWidth k.key
  | .resize _ _ | .ignored => f

/-- The place between two texts. -/
def between (a b : Text) : Flat := ⟨a ++ b, a.length⟩

theorem insert_between (a b s : Text) : (between a b).insert s = between (a ++ s) b := by
  simp [between, insert]

theorem eraseBefore_between (a : Text) (c : Char) (b : Text) :
    (between (a ++ [c]) b).eraseBefore = between a b := by
  simp [between, eraseBefore, List.append_assoc, List.eraseIdx_append_of_length_le]

theorem eraseAfter_between (a : Text) (c : Char) (b : Text) :
    (between a (c :: b)).eraseAfter = between a b := by
  simp [between, eraseAfter, List.eraseIdx_append_of_length_le]

theorem eraseAfter_end (a : Text) : (between a []).eraseAfter = between a [] := by
  simp [between, eraseAfter]

variable {a b : Text}

theorem row_between (h : (a ++ b).OnlyNewlines) : (between a b).row = Text.row a := by
  rw [row, between, List.take_left, (Text.onlyNewlines_append.1 h).1.row_eq_count]

theorem col_between (h : (a ++ b).OnlyNewlines) : (between a b).col = Text.col a := by
  rw [col, row_between h]
  exact Nat.sub_eq_of_eq_add (h.rowStart_append.symm.trans (Nat.add_comm _ _))

theorem goTo_between {a' b' : Text} (h : (a' ++ b').OnlyNewlines) (htext : a ++ b = a' ++ b')
    {col : Nat} (hcol : Text.col a' = min col ((a ++ b).rowLength (Text.row a'))) :
    (between a b).goTo (Text.row a') col = between a' b' := by
  rw [goTo, between, between, ← hcol, htext, h.rowStart_append]

end Flat

namespace Pane

open Flat (between)

/-- The pane stands at the place between `a` and `b`, and all line ends of its text are LFs. -/
structure At (p : Pane) (a b : Text) : Prop where
  buffer : p.buffer = ⟨a ++ b⟩
  cursor : p.cursor = ⟨a.row, a.col⟩
  newlines : (a ++ b).OnlyNewlines

/-- A step of a pane ends well, and where the flat editor is too. -/
def Reaches (r : Except OutOfRange Pane) (tabWidth : Nat) (f : Flat) : Prop :=
  ∃ q a b, r = .ok q ∧ q.tabWidth = tabWidth ∧ q.At a b ∧ f = between a b

variable {p : Pane} {a b : Text}

theorem At.not_straddles (h : p.At a b) : ¬ a.Straddles b :=
  (Text.onlyNewlines_append.1 h.newlines).1.not_straddles b

theorem At.reaches (h : p.At a b) : Reaches (.ok p) p.tabWidth (between a b) :=
  ⟨p, a, b, rfl, rfl, h, rfl⟩

/-! ### Movement -/

/-- The cursor put on a column of a row, as far as the row goes. -/
theorem At.reaches_goTo (h : p.At a b) {i : Nat} (hi : i < (a ++ b).lineCount) (c : Nat) :
    Reaches (.ok { p with cursor := ⟨i, min c ((a ++ b).rowLength i)⟩ }) p.tabWidth
      ((between a b).goTo i c) := by
  obtain ⟨a', b', htext, rfl, hcol⟩ := h.newlines.exists_append hi (Nat.min_le_right c _)
  have hnewlines : (a' ++ b').OnlyNewlines := htext ▸ h.newlines
  refine ⟨_, a', b', rfl, rfl, ⟨?_, ?_, hnewlines⟩, ?_⟩
  · rw [h.buffer, htext]
  · rw [hcol]
  · exact Flat.goTo_between hnewlines htext hcol

theorem At.lineLength_eq (h : p.At a b) {i : Nat} (hi : i < (a ++ b).lineCount) :
    p.buffer.lineLength i = .ok ((a ++ b).rowLength i) := by
  rw [h.buffer, h.newlines.lineLength_eq hi]

theorem At.cursorLineLength_eq (h : p.At a b) :
    p.cursorLineLength = .ok ((a ++ b).rowLength a.row) := by
  rw [cursorLineLength, h.cursor, h.lineLength_eq h.newlines.row_lt_lineCount]

theorem At.inRange (h : p.At a b) : p.InRange := by
  refine ⟨?_, _, h.cursorLineLength_eq, ?_⟩
  · rw [h.cursor, h.buffer]
    exact h.newlines.row_lt_lineCount
  · rw [h.cursor]
    exact h.newlines.col_le_rowLength

theorem At.goLeft (h : p.At a b) :
    Reaches (.ok p.goLeft) p.tabWidth ((between a b).press p.tabWidth .left) := by
  have hgo := h.reaches_goTo h.newlines.row_lt_lineCount (a.col - 1)
  have hcol := h.newlines.col_le_rowLength
  rw [Nat.min_eq_left (by omega)] at hgo
  rw [Flat.press, Flat.row_between h.newlines, Flat.col_between h.newlines]
  simpa [Pane.goLeft, Cursor.left, h.cursor] using hgo

theorem At.goRight (h : p.At a b) :
    Reaches p.goRight p.tabWidth ((between a b).press p.tabWidth .right) := by
  have hgo := h.reaches_goTo h.newlines.row_lt_lineCount (a.col + 1)
  rw [Flat.press, Flat.row_between h.newlines, Flat.col_between h.newlines,
    goRight_of_length h.cursorLineLength_eq]
  simpa [Cursor.right, h.cursor] using hgo

theorem At.goToLineStart (h : p.At a b) :
    Reaches (.ok p.goToLineStart) p.tabWidth ((between a b).press p.tabWidth .home) := by
  have hgo := h.reaches_goTo h.newlines.row_lt_lineCount 0
  rw [Flat.press, Flat.row_between h.newlines]
  simpa [Pane.goToLineStart, h.cursor] using hgo

theorem At.goToLineEnd (h : p.At a b) :
    Reaches p.goToLineEnd p.tabWidth ((between a b).press p.tabWidth .endKey) := by
  have hgo := h.reaches_goTo h.newlines.row_lt_lineCount ((a ++ b).rowLength a.row)
  rw [Flat.press, Flat.row_between h.newlines, goToLineEnd_of_length h.cursorLineLength_eq]
  simpa [h.cursor, between] using hgo

/-- On a line that exists, the cursor is kept in its line as the flat editor keeps to a row. -/
theorem At.keepCursorInLine (h : p.At a b) {i : Nat} (hi : i < (a ++ b).lineCount) (c : Nat) :
    Reaches (Pane.keepCursorInLine { p with cursor := ⟨i, c⟩ }) p.tabWidth
      ((between a b).goTo i c) := by
  have hlength : ({ p with cursor := ⟨i, c⟩ } : Pane).cursorLineLength =
      .ok ((a ++ b).rowLength i) := h.lineLength_eq hi
  rw [keepCursorInLine_of_length hlength]
  exact h.reaches_goTo hi c

/-- Keeping the cursor in the line it is on changes nothing. -/
theorem At.goTo_self (h : p.At a b) : (between a b).goTo a.row a.col = between a b :=
  Flat.goTo_between h.newlines rfl (Nat.min_eq_left h.newlines.col_le_rowLength).symm

theorem At.goUp (h : p.At a b) :
    Reaches p.goUp p.tabWidth ((between a b).press p.tabWidth .up) := by
  have hlt := h.newlines.row_lt_lineCount
  have hgo := h.keepCursorInLine (i := a.row - 1) (by omega) a.col
  have hup : p.goUp = Pane.keepCursorInLine { p with cursor := ⟨a.row - 1, a.col⟩ } := by
    rw [Pane.goUp, h.cursor]
    rfl
  rw [hup, Flat.press, Flat.row_between h.newlines, Flat.col_between h.newlines]
  split
  · next h0 =>
    -- on the first row the cursor is still kept in its line, where it already is
    rw [h0, Nat.zero_sub, ← h0, h.goTo_self] at hgo
    rwa [h0, Nat.zero_sub, ← h0]
  · exact hgo

theorem At.goDown (h : p.At a b) :
    Reaches p.goDown p.tabWidth ((between a b).press p.tabWidth .down) := by
  have hlt := h.newlines.row_lt_lineCount
  have hcount : (a ++ b).lineCount = (a ++ b).rows.length := h.newlines.lineCount_eq
  have hdown : p.goDown = Pane.keepCursorInLine
      { p with cursor := ⟨min (a.row + 1) ((a ++ b).lineCount - 1), a.col⟩ } := by
    rw [Pane.goDown, h.cursor, h.buffer]
    rfl
  have hgo := h.keepCursorInLine (i := min (a.row + 1) ((a ++ b).lineCount - 1)) (by omega) a.col
  rw [hdown, Flat.press, Flat.row_between h.newlines, Flat.col_between h.newlines]
  show Reaches _ _ (if a.row + 1 < (a ++ b).rows.length then _ else _)
  rw [← hcount]
  split
  · rwa [Nat.min_eq_left (by omega)] at hgo ⊢
  · -- and so it is on the last row
    have hlast : min (a.row + 1) ((a ++ b).lineCount - 1) = a.row := by omega
    rw [hlast, h.goTo_self] at hgo
    rwa [hlast]

/-! ### Editing -/

theorem At.insertInLine (h : p.At a b) {s : Text} (hs : ∀ c ∈ s, ¬ Text.isBreak c) :
    Reaches (Except.map (·.2) (p.insertInLine s)) p.tabWidth ((between a b).insert s) := by
  obtain ⟨hrow, hcol⟩ := Text.place_append_of_not_isBreak a hs
  have hinsert : p.buffer.insert p.cursor.line p.cursor.col s = .ok ⟨a ++ s ++ b⟩ := by
    rw [h.buffer, h.cursor, Buffer.insert_place h.not_straddles]
  rw [insertInLine_of_buffer hinsert, Flat.insert_between]
  refine ⟨_, a ++ s, b, rfl, rfl, ⟨rfl, ?_, ?_⟩, rfl⟩
  · rw [hrow, hcol, h.cursor]
  · have hnewlines := h.newlines
    simp only [Text.onlyNewlines_append] at hnewlines ⊢
    exact ⟨⟨hnewlines.1, Text.onlyNewlines_of_not_isBreak hs⟩, hnewlines.2⟩

theorem At.breakLine (h : p.At a b) :
    Reaches (Except.map (·.2) p.breakLine) p.tabWidth ((between a b).insert ['\n']) := by
  have hnewlines := Text.onlyNewlines_append.1 h.newlines
  obtain ⟨hrow, hcol⟩ := Text.place_append_of_isBreak (c := '\n') rfl (hnewlines.1.not_straddles _)
  have hinsert : p.buffer.insert p.cursor.line p.cursor.col ['\n'] = .ok ⟨a ++ ['\n'] ++ b⟩ := by
    rw [h.buffer, h.cursor, Buffer.insert_place h.not_straddles]
  rw [breakLine_of_buffer hinsert, Flat.insert_between]
  refine ⟨_, a ++ ['\n'], b, rfl, rfl, ⟨rfl, ?_, ?_⟩, rfl⟩
  · rw [hrow, hcol, h.cursor]
  · simp only [Text.onlyNewlines_append]
    exact ⟨⟨hnewlines.1, by simp [Text.OnlyNewlines]⟩, hnewlines.2⟩

theorem At.deleteForward (h : p.At a b) :
    Reaches (Except.map (·.2) p.deleteForward) p.tabWidth (between a b).eraseAfter := by
  cases b with
  | nil =>
      have hdelete : p.buffer.deleteForward p.cursor.line p.cursor.col = .ok (false, ⟨a⟩) := by
        rw [h.buffer, h.cursor, List.append_nil, Buffer.deleteForward_end]
      rw [deleteForward_of_buffer hdelete, Flat.eraseAfter_end]
      refine ⟨_, a, [], rfl, rfl, ⟨?_, h.cursor, h.newlines⟩, rfl⟩
      rw [List.append_nil]
  | cons c b =>
      have hdelete : p.buffer.deleteForward p.cursor.line p.cursor.col =
          .ok (true, ⟨a ++ b⟩) := by
        rw [h.buffer, h.cursor, Buffer.deleteForward_place h.not_straddles]
      rw [deleteForward_of_buffer hdelete, Flat.eraseAfter_between]
      refine ⟨_, a, b, rfl, rfl, ⟨rfl, h.cursor, ?_⟩, rfl⟩
      have hnewlines := h.newlines
      rw [Text.onlyNewlines_append, Text.onlyNewlines_cons] at hnewlines
      exact Text.onlyNewlines_append.2 ⟨hnewlines.1, hnewlines.2.2⟩

/-- Behind a character of its line, the cursor steps back over the character that goes. -/
theorem At.deleteBackward_of_not_isBreak {c : Char} (h : p.At (a ++ [c]) b)
    (hc : ¬ Text.isBreak c) :
    Reaches (Except.map (·.2) p.deleteBackward) p.tabWidth (between (a ++ [c]) b).eraseBefore := by
  obtain ⟨hrow, hcol⟩ := Text.place_append_of_not_isBreak a (s := [c]) (by simpa using hc)
  have hdelete : p.buffer.deleteBackward p.cursor.line p.cursor.col = .ok (true, ⟨a ++ b⟩) := by
    rw [h.buffer, h.cursor, Buffer.deleteBackward_place h.not_straddles]
  have hpos : 0 < p.cursor.col := by
    rw [h.cursor, hcol]
    exact Nat.succ_pos _
  rw [deleteBackward_in_line hpos hdelete, Flat.eraseBefore_between]
  refine ⟨_, a, b, rfl, rfl, ⟨rfl, ?_, ?_⟩, rfl⟩
  · rw [h.cursor, hrow, hcol]
    rfl
  · have hnewlines := h.newlines
    simp only [Text.onlyNewlines_append] at hnewlines ⊢
    exact ⟨hnewlines.1.1, hnewlines.2⟩

/-- Behind an LF, the cursor goes to where the line before ended. -/
theorem At.deleteBackward_newline (h : p.At (a ++ ['\n']) b) :
    Reaches (Except.map (·.2) p.deleteBackward) p.tabWidth
      (between (a ++ ['\n']) b).eraseBefore := by
  have htext : a ++ ['\n'] ++ b = a ++ '\n' :: b := by simp
  have hnewlines : (a ++ '\n' :: b).OnlyNewlines := htext ▸ h.newlines
  have ha := (Text.onlyNewlines_append.1 hnewlines).1
  obtain ⟨hrow, hcol⟩ := Text.place_append_of_isBreak (c := '\n') rfl (ha.not_straddles _)
  have hdelete : p.buffer.deleteBackward p.cursor.line 0 = .ok (true, ⟨a ++ b⟩) := by
    rw [h.buffer, h.cursor, ← hcol, Buffer.deleteBackward_place h.not_straddles]
  -- the length of the line before, read while its LF is still there
  have hlength : p.buffer.lineLength (p.cursor.line - 1) = .ok a.col := by
    rw [h.cursor, hrow, Nat.add_sub_cancel, h.buffer, htext,
      hnewlines.lineLength_eq hnewlines.row_lt_lineCount, hnewlines.rowLength_of_newline]
  have hzero : p.cursor.col = 0 := by
    rw [h.cursor, hcol]
  have hpos : 0 < p.cursor.line := by
    rw [h.cursor, hrow]
    exact Nat.succ_pos _
  rw [deleteBackward_joins hzero hpos hlength hdelete, Flat.eraseBefore_between]
  refine ⟨_, a, b, rfl, rfl, ⟨rfl, ?_, ?_⟩, rfl⟩
  · rw [h.cursor, hrow]
    rfl
  · rw [Text.onlyNewlines_append, Text.onlyNewlines_cons] at hnewlines
    exact Text.onlyNewlines_append.2 ⟨hnewlines.1, hnewlines.2.2⟩

theorem At.deleteBackward (h : p.At a b) :
    Reaches (Except.map (·.2) p.deleteBackward) p.tabWidth (between a b).eraseBefore := by
  induction a using List.reverseRecOn with
  | nil =>
      have hzero : p.cursor = ⟨0, 0⟩ := h.cursor
      rw [Pane.deleteBackward, hzero]
      exact h.reaches
  | append_singleton a c _ =>
      by_cases hc : Text.isBreak c
      · obtain rfl := h.newlines c (by simp) hc
        exact h.deleteBackward_newline
      · exact h.deleteBackward_of_not_isBreak hc

/-! ### Events -/

theorem map_snd_redraw (r : Except OutOfRange Pane) :
    Except.map (·.2) ((Action.redraw, ·) <$> r) = r := by
  cases r <;> rfl

theorem map_snd_editAction (r : Except OutOfRange (Bool × Pane)) :
    Except.map (·.2) (editAction <$> r) = Except.map (·.2) r := by
  cases r <;> rfl

theorem At.press (h : p.At a b) {k : Key} (hk : ∀ c, k = .char c → ¬ Text.isBreak c) :
    Reaches (Except.map (·.2) (p.press k)) p.tabWidth ((between a b).press p.tabWidth k) := by
  cases k with
  | char c =>
      rw [Pane.press, map_snd_editAction]
      exact h.insertInLine (by simpa using hk c rfl)
  | tab =>
      have hspaces : ∀ c ∈ List.replicate p.tabWidth ' ', ¬ Text.isBreak c := by
        intro c hc
        rw [List.eq_of_mem_replicate hc]
        decide
      rw [Pane.press, map_snd_editAction]
      exact h.insertInLine hspaces
  | enter =>
      rw [Pane.press, map_snd_editAction]
      exact h.breakLine
  | backspace =>
      rw [Pane.press, map_snd_editAction]
      exact h.deleteBackward
  | delete =>
      rw [Pane.press, map_snd_editAction]
      exact h.deleteForward
  | left => exact h.goLeft
  | right =>
      rw [Pane.press, map_snd_redraw]
      exact h.goRight
  | up =>
      rw [Pane.press, map_snd_redraw]
      exact h.goUp
  | down =>
      rw [Pane.press, map_snd_redraw]
      exact h.goDown
  | home => exact h.goToLineStart
  | endKey =>
      rw [Pane.press, map_snd_redraw]
      exact h.goToLineEnd
  | function n => exact h.reaches
  | other => exact h.reaches

theorem At.react (h : p.At a b) {e : Event} (he : e.TypesNoBreak) :
    Reaches (Except.map (·.2) (p.react e)) p.tabWidth ((between a b).react p.tabWidth e) := by
  cases e with
  | resize w n => exact h.reaches
  | ignored => exact h.reaches
  | key k =>
      obtain ⟨key, control, phase⟩ := k
      rw [Pane.react, Flat.react]
      by_cases hrelease : phase = .release
      · rw [if_pos hrelease, if_pos (.inl hrelease)]
        exact h.reaches
      · cases control with
        | true =>
            rw [if_neg hrelease, if_pos rfl, if_pos (.inr rfl)]
            exact h.reaches
        | false =>
            rw [if_neg hrelease, if_neg Bool.false_ne_true, if_neg (by simpa using hrelease)]
            refine h.press fun c hc => he c ?_
            obtain rfl : key = .char c := hc
            cases phase with
            | release => exact absurd rfl hrelease
            | press => rfl
            | repeated => rfl

/-- The pane follows the flat editor through every sequence of events. -/
theorem At.reactAll (h : p.At a b) {es : List Event} (hes : TypesNoBreak es) :
    Reaches (p.reactAll es) p.tabWidth (es.foldl (Flat.react p.tabWidth) (between a b)) := by
  induction es generalizing p a b with
  | nil => exact h.reaches
  | cons e es ih =>
      obtain ⟨q, a', b', hmap, hwidth, hq, hflat⟩ := h.react (hes e List.mem_cons_self)
      obtain ⟨action, hreact⟩ : ∃ action, p.react e = .ok (action, q) := by
        cases hr : p.react e with
        | error o => simp [hr, Except.map] at hmap
        | ok r => exact ⟨r.1, by simpa [hr, Except.map, Prod.ext_iff] using hmap⟩
      -- the induction hypothesis speaks of the tab width of `q`, which is that of `p`
      have hrest := ih hq fun e' he' => hes e' (List.mem_cons_of_mem e he')
      rw [hwidth] at hrest
      rwa [reactAll_cons hreact, List.foldl_cons, hflat]

theorem At.ofText {t : Text} (h : t.OnlyNewlines) (w : Nat) : (ofText t w).At [] t :=
  ⟨rfl, rfl, h⟩

theorem At.offset_eq (h : p.At a b) : p.offset = a.length := by
  rw [offset, text, h.buffer, h.cursor]
  exact Text.lineStart_append h.not_straddles

/-- What a pane comes to as a flat editor. -/
def flat (p : Pane) : Flat := ⟨p.text, p.offset⟩

theorem At.flat_eq (h : p.At a b) : p.flat = between a b := by
  rw [flat, h.offset_eq, text, h.buffer, between]

/-- On a text whose only line ends are LFs a pane never fails, keeps its cursor on a line, and edits
and moves as the flat editor does. A sequence of events may stop anywhere, so this holds after each
event of a longer one. -/
theorem reactAll_refines_flat {t : Text} (w : Nat) (es : List Event) (ht : t.OnlyNewlines)
    (hes : TypesNoBreak es) :
    ∃ p, (ofText t w).reactAll es = .ok p ∧ p.InRange ∧
      p.flat = es.foldl (Flat.react (max w 1)) ⟨t, 0⟩ ∧ p.cursor = ⟨p.flat.row, p.flat.col⟩ := by
  obtain ⟨p, a, b, hp, -, hat, hflat⟩ := (At.ofText ht w).reactAll hes
  refine ⟨p, hp, hat.inRange, ?_, ?_⟩
  · rw [hat.flat_eq, ← hflat]
    rfl
  · rw [hat.flat_eq, Flat.row_between hat.newlines, Flat.col_between hat.newlines, hat.cursor]

/-- A character typed at the end of a line, and the next line joined to it. -/
theorem reactAll_refines_flat_join :
    Text.OnlyNewlines ['a', '\n', 'b'] ∧
      TypesNoBreak [.pressed .endKey, .pressed (.char 'x'), .pressed .delete] ∧
      ∃ p, (ofText ['a', '\n', 'b'] 4).reactAll
          [.pressed .endKey, .pressed (.char 'x'), .pressed .delete] = .ok p ∧ p.InRange ∧
        p.flat = ⟨['a', 'x', 'b'], 2⟩ ∧ p.cursor = ⟨0, 2⟩ := by
  refine ⟨by decide, by decide, ?_⟩
  obtain ⟨p, hp, hrange, hflat, hcursor⟩ := reactAll_refines_flat (t := ['a', '\n', 'b']) 4
    [.pressed .endKey, .pressed (.char 'x'), .pressed .delete] (by decide) (by decide)
  have hfold : p.flat = ⟨['a', 'x', 'b'], 2⟩ := by
    rw [hflat]
    decide
  refine ⟨p, hp, hrange, hfold, ?_⟩
  rw [hcursor, hfold]
  decide

end Pane

end ScriptPad
