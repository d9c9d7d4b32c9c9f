import ScriptPad.Proofs.Document.Safety
import ScriptPad.Proofs.Screen.Line
import ScriptPad.Proofs.Screen.View
import ScriptPad.Proofs.Text.LineEnd

/-!
The terminal cursor and the characters under it. A row is printed in parts, with its number as wide as
that has to be; the column of the cursor is counted from a gutter of fixed width. The two agree on
lines with numbers of up to four digits and on no others. Behind the last character of a line they
agree as well; but the end of a line is one column further if the line ends in CR, which is counted
and not shown.
-/

namespace ScriptPad.Screen

variable {s : Screen} {p : Playground}

/-! ### The strokes of the rows -/

/-- The characters of a line that there is room for, as they are printed. -/
def shown (s : Screen) (p : Playground) (content : Text) : Text :=
  (if p.pane.language.isSome then content.map showTab else content).take (s.room p)

theorem length_shown (s : Screen) (p : Playground) (content : Text) :
    (s.shown p content).length = min (s.room p) content.length := by
  rw [shown, List.length_take]
  split
  · rw [List.length_map]
  · rfl

theorem printed_drawContent_shown (s : Screen) (p : Playground) (content : Text) :
    (drawContent p.theme (s.room p) (p.pane.pieces content) content).flatMap Draw.printed =
      s.shown p content ++ blank (s.room p - content.length) := by
  cases hl : p.pane.language with
  | none =>
      have hblank : s.room p - (content.take (s.room p)).length = s.room p - content.length := by
        rw [List.length_take]
        omega
      rw [Pane.pieces_of_none hl, drawContent, if_pos rfl]
      dsimp only
      rw [hblank, shown, hl]
      simp [Draw.printed]
  | some l =>
      rw [printed_drawContent p.theme (s.room p) hl, shown, hl]
      rfl

theorem strokes_drawEditor (s : Screen) (p : Playground) :
    Draw.strokes (s.drawEditor p) = (List.range (s.editorRows p)).map fun r =>
      ⟨0, UInt16.ofNat r, (s.drawEditorRow p r).flatMap Draw.printed⟩ := by
  rw [drawEditor, Draw.strokes_flatMap fun r => (s.covers_drawEditorRow p r).lead, List.map_eq_flatMap]
  exact List.flatMap_congr fun r _ => (s.covers_drawEditorRow p r).strokes_eq

/-- The first strokes of a frame are the rows of the editor. -/
theorem getElem?_strokes_frame {r : Nat} (hr : r < s.editorRows p) :
    (Draw.strokes (s.frame p))[r]? =
      some ⟨0, UInt16.ofNat r, (s.drawEditorRow p r).flatMap Draw.printed⟩ := by
  let below := s.drawSeparator p ++ s.drawOutput p ++ s.drawStatus p ++
    [.moveTo (s.cursorCell p).1 (s.cursorCell p).2, .steadyBar, .showCursor]
  have hcovers := ((s.covers_drawSeparator p).append (s.covers_drawOutput p)).append
    (s.covers_drawStatus p)
  have hlead : Draw.lead below = [] := (Draw.lead_append rfl).trans hcovers.lead
  have hframe : s.frame p =
      [.hideCursor, .background p.theme.background] ++ s.drawEditor p ++ below := by
    simp [frame, below]
  have hstart : Draw.strokes ([.hideCursor, .background p.theme.background] ++ s.drawEditor p) =
      Draw.strokes (s.drawEditor p) := by
    rw [List.cons_append, Draw.strokes_cons rfl, List.cons_append, Draw.strokes_cons rfl,
      List.nil_append]
  rw [hframe, Draw.strokes_append hlead, hstart, strokes_drawEditor,
    List.getElem?_append_left (by simpa using hr),
    List.getElem?_map, List.getElem?_range hr]
  rfl

theorem getLast?_strokes_frame (s : Screen) (p : Playground) :
    (Draw.strokes (s.frame p)).getLast? = some ⟨(s.cursorCell p).1, (s.cursorCell p).2, []⟩ := by
  obtain ⟨ks, hks, -, -⟩ := s.strokes_frame p
  rw [hks]
  simp

theorem strokes_frame_of_line {r : Nat} (hr : r < s.editorRows p) {line : Text}
    (hline : p.pane.buffer.text.lines[r + p.pane.scroll]? = some line) :
    (Draw.strokes (s.frame p))[r]? = some ⟨0, UInt16.ofNat r, margin p (r + p.pane.scroll) ++
      s.shown p line.trimLineEnd ++ blank (s.room p - line.trimLineEnd.length)⟩ := by
  have hprinted : (s.drawEditorRow p r).flatMap Draw.printed =
      (drawMargin p (r + p.pane.scroll)).flatMap Draw.printed ++
        (drawContent p.theme (s.room p) (p.pane.pieces line.trimLineEnd)
          line.trimLineEnd).flatMap Draw.printed := by
    rw [drawEditorRow_of_line hline, List.flatMap_append]
    rfl
  rw [getElem?_strokes_frame hr, hprinted, printed_drawMargin, printed_drawContent_shown,
    List.append_assoc]

/-! ### The column of the cursor -/

theorem toNat_cursorCell_col (s : Screen) (p : Playground) :
    (s.cursorCell p).1.toNat =
      min ((gutter p.settings.showLineNumbers).toNat + p.pane.cursor.col) (s.width.toNat - 1) := by
  have hwidth := s.width.toNat_lt
  have hcell : (s.cursorCell p).1 = UInt16.ofNat
      (min ((gutter p.settings.showLineNumbers).toNat + p.pane.cursor.col) (s.width.toNat - 1)) := by
    rw [cursorCell, Layout.toNat_monus]
    rfl
  rw [hcell]
  exact UInt16.toNat_ofNat_of_lt' (by show _ < 2 ^ 16; omega)

/-- What the end of a line is, for a cursor: one column further than its text if it has a CR. -/
theorem cursorLineLength_eq {p : Pane} {line : Text}
    (hline : p.buffer.text.lines[p.cursor.line]? = some line) :
    p.cursorLineLength = .ok (line.trimLineEnd.length + if '\r' ∈ line then 1 else 0) := by
  have hlength := Text.length_dropFinalNewline (List.mem_of_getElem? hline)
  rw [Pane.cursorLineLength, Buffer.lineLength, Buffer.line_eq_ok_iff.2 hline, ← hlength]
  rfl

/-- The cursor of the terminal is the last thing that is moved in a frame. With the line of the cursor
on the screen it is moved to the row on which this line is printed. Over a character that is shown it
has the column at which this character is printed if and only if the number of the line, where
numbers are shown, has four digits at most. Then it is also right for a cursor behind the last
character of a line that is shown in full; but the end of the line is there only if the line has
no CR, unless both columns are off the screen. -/
theorem cursor_is_over_its_character {line : Text} (hview : p.pane.CursorInView (s.editorRows p))
    (hline : p.pane.buffer.text.lines[p.pane.cursor.line]? = some line) :
    let content := line.trimLineEnd
    let before := margin p p.pane.cursor.line
    let row := p.pane.cursor.line - p.pane.scroll
    let col := p.pane.cursor.col
    let cell := s.cursorCell p
    let behind := min (before.length + content.length) (s.width.toNat - 1)
    let fits := p.settings.showLineNumbers = true → p.pane.cursor.line + 1 < 10000
    (Draw.strokes (s.frame p)).getLast? = some ⟨cell.1, cell.2, []⟩ ∧
    (Draw.strokes (s.frame p))[row]? = some
      ⟨0, cell.2, before ++ s.shown p content ++ blank (s.room p - content.length)⟩ ∧
    cell.2.toNat = row ∧
    (col < (s.shown p content).length → (cell.1.toNat = before.length + col ↔ fits)) ∧
    (content.length ≤ s.room p → fits →
      (col = content.length → cell.1.toNat = behind) ∧
      (p.pane.cursorLineLength = .ok col →
        (cell.1.toNat = behind ↔ '\r' ∉ line ∨ s.width.toNat ≤ before.length + content.length + 1))) := by
  intro content before row col cell behind fits
  have hrow : cell.2.toNat = row := toNat_cursorCell_row hview
  have hcol : cell.1.toNat =
      min ((gutter p.settings.showLineNumbers).toNat + col) (s.width.toNat - 1) :=
    s.toNat_cursorCell_col p
  have hroom : s.room p = s.width.toNat - (gutter p.settings.showLineNumbers).toNat := rfl
  have hmargin : before.length = (gutter p.settings.showLineNumbers).toNat ↔ fits :=
    length_margin_eq_gutter_iff
  refine ⟨s.getLast?_strokes_frame p, ?_, hrow, fun hshown => ?_, fun hfull hfits => ⟨?_, ?_⟩⟩
  · obtain ⟨hle, hlt⟩ := hview
    have hback : row + p.pane.scroll = p.pane.cursor.line := Nat.sub_add_cancel hle
    rw [← hback] at hline
    rw [strokes_frame_of_line (by omega) hline, hback]
    rfl
  · -- the character is on the screen, so that the column is not cut
    rw [length_shown] at hshown
    rw [← hmargin, hcol]
    omega
  · intro hend
    rw [hcol, hend, ← hmargin.2 hfits]
  · intro hend
    rw [cursorLineLength_eq hline] at hend
    have hplace : content.length + (if '\r' ∈ line then 1 else 0) = col := Except.ok.inj hend
    rw [hcol, ← hplace, ← hmargin.2 hfits]
    by_cases hcr : '\r' ∈ line
    · rw [if_pos hcr]
      simp only [hcr, not_true_eq_false, false_or, behind]
      omega
    · rw [if_neg hcr]
      simp [hcr, behind]

/-- The cursor over a tab that is the last character with room on its row. -/
theorem cursor_is_over_its_character_tab :
    let opened := Playground.ofSource ['a', '\t', 'b', '\r', '\n'] {} (fun _ => .reports [])
      fun _ _ => ⟨[], .value []⟩
    let p := opened.withPane { opened.pane with cursor := ⟨0, 1⟩ }
    let s : Screen := ⟨8, 24⟩
    p.pane.CursorInView (s.editorRows p) ∧
    p.pane.buffer.text.lines[p.pane.cursor.line]? = some ['a', '\t', 'b', '\r', '\n'] ∧
    (Draw.strokes (s.frame p))[0]? =
      some ⟨0, (s.cursorCell p).2, [' ', ' ', ' ', ' ', '1', ' ', 'a', ' ']⟩ ∧
    (s.cursorCell p).1.toNat = 7 := by
  intro opened p s
  have hrows : s.editorRows p = 12 := by decide +kernel
  have hview : p.pane.CursorInView (s.editorRows p) := by
    rw [hrows]
    exact ⟨by decide, by decide⟩
  have hline : p.pane.buffer.text.lines[p.pane.cursor.line]? = some ['a', '\t', 'b', '\r', '\n'] := rfl
  obtain ⟨-, hstroke, -, hover, -⟩ := cursor_is_over_its_character hview hline
  have hmargin : margin p p.pane.cursor.line = [' ', ' ', ' ', ' ', '1', ' '] := by decide +kernel
  rw [hmargin] at hstroke
  have hcol := (hover (by decide +kernel)).2 (by decide)
  rw [hmargin] at hcol
  exact ⟨hview, hline, hstroke, hcol⟩

/-- On line 10000 the number takes a column more than the gutter has for it, and the cursor stands
before the character it is on. At the end of a line with CRLF it stands a column behind the end. -/
theorem cursor_misses_character :
    let s : Screen := ⟨20, 24⟩
    let opened (t : Text) := Playground.ofSource t {} (fun _ => .reports []) fun _ _ => ⟨[], .value []⟩
    (let p := opened (List.replicate 9999 '\n' ++ ['x'])
      ∃ q, p.pane.reactAll (List.replicate 9999 (.pressed .down)) = .ok q ∧
        let p' := (p.withPane q).scrollToCursor 12
        s.editorRows p' = 12 ∧ p'.pane.cursor = ⟨9999, 0⟩ ∧
        (Draw.strokes (s.frame p'))[11]? =
          some ⟨0, 11, [' ', '1', '0', '0', '0', '0', ' ', 'x'] ++ blank 13⟩ ∧
        (Draw.strokes (s.frame p')).getLast? = some ⟨6, 11, []⟩) ∧
    (let p := opened ['a', 'b', '\r', '\n']
      ∃ q, p.pane.reactAll [.pressed .endKey] = .ok q ∧
        let p' := (p.withPane q).scrollToCursor 12
        s.editorRows p' = 12 ∧
        p'.pane.cursorLineLength = .ok p'.pane.cursor.col ∧
        (Draw.strokes (s.frame p'))[0]? =
          some ⟨0, 0, [' ', ' ', ' ', ' ', '1', ' ', 'a', 'b'] ++ blank 12⟩ ∧
        (Draw.strokes (s.frame p')).getLast? = some ⟨9, 0, []⟩) := by
  intro s opened
  refine ⟨?_, ?_⟩
  · intro p
    have hlines : p.pane.buffer.text.lines = List.replicate 9999 ['\n'] ++ [['x']] :=
      Text.lines_newlines_append 9999 ['x']
    have hcount : 0 + 9999 < p.pane.buffer.text.lineCount := by
      rw [Text.lineCount, hlines, List.length_append, List.length_replicate]
      decide
    have hstart : p.pane.showing p.pane.buffer.text 0 0 = p.pane := rfl
    have hdowns := Pane.reactAll_downs p.pane hcount
    rw [hstart, Nat.zero_add] at hdowns
    refine ⟨_, hdowns, ?_⟩
    intro p'
    have hscroll : 11 + p'.pane.scroll = 9999 := by decide +kernel
    have hpane : p'.pane = (p.pane.showing p.pane.buffer.text 9999 0).scrollToCursor 12 := rfl
    have htext : p'.pane.text = p.pane.buffer.text := by
      rw [hpane, Pane.text_scrollToCursor]
      rfl
    have hline : p'.pane.text.lines[11 + p'.pane.scroll]? = some ['x'] := by
      rw [hscroll, htext, hlines, List.getElem?_append_right (by rw [List.length_replicate]),
        List.length_replicate]
      rfl
    have hprinted : margin p' (11 + p'.pane.scroll) ++ s.shown p' (Text.trimLineEnd ['x']) ++
        blank (s.room p' - (Text.trimLineEnd ['x']).length) =
        [' ', '1', '0', '0', '0', '0', ' ', 'x'] ++ blank 13 := by decide +kernel
    have hrows : s.editorRows p' = 12 := by decide +kernel
    have hstroke := strokes_frame_of_line (hrows ▸ (by decide : 11 < 12)) hline
    rw [hprinted] at hstroke
    have hcell : s.cursorCell p' = (6, 11) := by decide +kernel
    have hlast := s.getLast?_strokes_frame p'
    rw [hcell] at hlast
    have hcursor : p'.pane.cursor = ⟨9999, 0⟩ := by
      rw [hpane, Pane.cursor_scrollToCursor]
      rfl
    exact ⟨hrows, hcursor, hstroke, hlast⟩
  · intro p
    have hstart : p.pane.showing ['a', 'b', '\r', '\n'] 0 0 = p.pane := rfl
    have hend : p.pane.reactAll [.pressed .endKey] =
        .ok (p.pane.showing ['a', 'b', '\r', '\n'] 0 3) := by
      rw [← hstart, Pane.reactAll_cons (Pane.react_endKey p.pane 0 rfl)]
      rfl
    refine ⟨_, hend, ?_⟩
    decide +kernel

end ScriptPad.Screen
