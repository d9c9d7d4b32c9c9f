import Mathlib.Data.UInt
import ScriptPad.Proofs.Screen.Canvas

/-!
A frame repaints the screen. Nothing is cleared between frames, so each row must be written to its
end; the rows do this in five ways, and each prints at least the width, however narrow the screen is.
On a screen of three rows or more the parts share the rows out; on a smaller one they overlap, and the
rows that are left are still written.
-/

namespace ScriptPad

namespace Layout

/-- The rows in the order in which they are drawn. -/
def rows (l : Layout) : List UInt16 :=
  (List.range l.editorHeight.toNat).map UInt16.ofNat ++ [l.separatorRow] ++
    (List.range l.outputHeight.toNat).map (fun i => l.outputTop + UInt16.ofNat i) ++ [l.statusRow]

/-- The layout is the one computed with numbers of any size. -/
structure Exact (l : Layout) (height requested : Nat) : Prop where
  outputHeight : l.outputHeight.toNat = min requested (height - 3)
  reserved : (l.outputHeight + 2).toNat = l.outputHeight.toNat + 2
  editorHeight : l.editorHeight.toNat = max (height - (l.outputHeight.toNat + 2)) 1
  separatorRow : l.separatorRow.toNat = l.editorHeight.toNat
  outputTop : l.outputTop.toNat = l.editorHeight.toNat + 1
  outputRow : ∀ i < l.outputHeight.toNat,
    (l.outputTop + UInt16.ofNat i).toNat = l.editorHeight.toNat + 1 + i
  statusRow : l.statusRow.toNat = height - 1

theorem toNat_add_of_lt {a b : UInt16} (h : a.toNat + b.toNat < 2 ^ 16) :
    (a + b).toNat = a.toNat + b.toNat := by
  rw [UInt16.toNat_add, Nat.mod_eq_of_lt h]

theorem exact_ofHeight (height requested : UInt16) :
    (ofHeight height requested).Exact height.toNat requested.toNat := by
  have hheight := height.toNat_lt
  have houtput : (ofHeight height requested).outputHeight.toNat =
      min requested.toNat (height.toNat - 3) := by
    rw [ofHeight, UInt16.toNat_min, toNat_monus]
    rfl
  have hreserved : ((ofHeight height requested).outputHeight + 2).toNat =
      (ofHeight height requested).outputHeight.toNat + 2 := by
    refine toNat_add_of_lt ?_
    show _ + 2 < _
    omega
  have heditor : (ofHeight height requested).editorHeight.toNat =
      max (height.toNat - ((ofHeight height requested).outputHeight.toNat + 2)) 1 := by
    rw [← hreserved, ← toNat_monus]
    exact UInt16.toNat_max _ _
  have htop : (ofHeight height requested).outputTop.toNat =
      (ofHeight height requested).editorHeight.toNat + 1 := by
    refine toNat_add_of_lt ?_
    show (ofHeight height requested).editorHeight.toNat + 1 < _
    omega
  refine ⟨houtput, hreserved, heditor, rfl, htop, fun i hi => ?_, toNat_monus _ _⟩
  have hword : (UInt16.ofNat i).toNat = i := UInt16.toNat_ofNat_of_lt' (by show _ < 2 ^ 16; omega)
  rw [toNat_add_of_lt (by omega), hword, htop]

variable {l : Layout} {height requested : Nat}

theorem Exact.map_toNat_rows (h : l.Exact height requested) :
    l.rows.map UInt16.toNat = List.range l.editorHeight.toNat ++ [l.editorHeight.toNat] ++
      (List.range l.outputHeight.toNat).map (l.editorHeight.toNat + 1 + ·) ++ [height - 1] := by
  have heditor : (List.range l.editorHeight.toNat).map (UInt16.toNat ∘ UInt16.ofNat) =
      List.range l.editorHeight.toNat := by
    refine (List.map_congr_left fun i hi => ?_).trans (List.map_id _)
    have hlt := List.mem_range.1 hi
    have hword := l.editorHeight.toNat_lt
    exact UInt16.toNat_ofNat_of_lt' (Nat.lt_trans hlt hword)
  have houtput : (List.range l.outputHeight.toNat).map
      (UInt16.toNat ∘ fun i => l.outputTop + UInt16.ofNat i) =
      (List.range l.outputHeight.toNat).map (l.editorHeight.toNat + 1 + ·) :=
    List.map_congr_left fun i hi => h.outputRow i (List.mem_range.1 hi)
  simp only [rows, List.map_append, List.map_map, heditor, houtput, List.map_cons, List.map_nil,
    h.separatorRow, h.statusRow]

/-- From three rows on, the parts have the rows of the screen among them, each row once. -/
theorem Exact.rows_eq_range (h : l.Exact height requested) (h3 : 3 ≤ height) :
    l.rows.map UInt16.toNat = List.range height := by
  have houtput := h.outputHeight
  have heditor := h.editorHeight
  have hheight : height = l.editorHeight.toNat + 1 + l.outputHeight.toNat + 1 := by omega
  have hstatus : height - 1 = l.editorHeight.toNat + 1 + l.outputHeight.toNat := by omega
  calc l.rows.map UInt16.toNat
      = List.range (l.editorHeight.toNat + 1 + l.outputHeight.toNat + 1) := by
        rw [h.map_toNat_rows, hstatus, List.range_succ, List.range_add, List.range_succ]
    _ = List.range height := by rw [← hheight]

/-- On any screen every row belongs to some part. -/
theorem Exact.mem_rows (h : l.Exact height requested) {r : Nat} (hr : r < height) :
    r ∈ l.rows.map UInt16.toNat := by
  by_cases h3 : 3 ≤ height
  · rw [h.rows_eq_range h3]
    exact List.mem_range.2 hr
  · have heditor := h.editorHeight
    rw [h.map_toNat_rows]
    simp only [List.mem_append, List.mem_range, List.mem_singleton]
    omega

/-- On two rows the separator and the status line have the same one. -/
example : (ofHeight 2 10).rows = [0, 1, 1] := by decide

end Layout

namespace Screen

open Draw (Prints Covers)

theorem prints_drawFiller (theme : Theme) (width : Nat) :
    Prints (max width 1) (drawFiller theme width) :=
  ⟨by simp [drawFiller, Draw.isMove], by simp [drawFiller, Draw.printed]⟩

theorem prints_drawSign (theme : Theme) (m : Option Marker) : Prints 1 (drawSign theme m) := by
  cases m <;> exact ⟨by simp [drawSign, Draw.isMove], by simp [drawSign, Draw.printed]⟩

theorem prints_drawLineNumber (theme : Theme) (active : Bool) (n : Nat) :
    Prints (max 4 (Text.ofNat n).length) (drawLineNumber theme active n) :=
  ⟨by simp [drawLineNumber, Draw.isMove], by simp [drawLineNumber, Draw.printed]⟩

theorem prints_drawPieces (theme : Theme) (width : Nat) (pieces : List Piece) :
    Prints width (drawPieces theme width pieces) := by
  fun_induction drawPieces theme width pieces with
  | case1 pieces => exact ⟨by simp [Draw.isMove], by simp [Draw.printed]⟩
  | case2 width h => exact ⟨by simp [Draw.isMove], by simp [Draw.printed, blank]⟩
  | case3 width piece rest h shown ih =>
      have hshown : shown.length ≤ width := List.length_take_le ..
      have hhead : Prints shown.length [.foreground (theme.ofWord piece.kind), .print shown] :=
        ⟨by simp [Draw.isMove], by simp [Draw.printed]⟩
      have hall := hhead.append ih
      rwa [Nat.add_sub_cancel' hshown] at hall

/-- A text clipped to the width and filled up. -/
theorem prints_clipped (c : Colour) (width : Nat) (t : Text) :
    Prints width [.foreground c, .print (t.take width),
      .print (blank (width - (t.take width).length))] := by
  refine ⟨by simp [Draw.isMove], ?_⟩
  have hshown : (t.take width).length ≤ width := List.length_take_le ..
  simp only [List.flatMap_cons, List.flatMap_nil, Draw.printed, blank, List.length_append,
    List.length_replicate, List.length_nil]
  omega

theorem prints_drawContent (theme : Theme) (width : Nat) (pieces : List Piece) (content : Text) :
    Prints width (drawContent theme width pieces content) := by
  unfold drawContent
  split
  · exact prints_clipped theme.foreground width content
  · exact prints_drawPieces theme width pieces

theorem prints_drawOutputRow (theme : Theme) (width : Nat) (row : Option (LineKind × Text)) :
    Prints width (drawOutputRow theme width row) := by
  cases row with
  | none => exact ⟨by simp [drawOutputRow, Draw.isMove], by simp [drawOutputRow, Draw.printed, blank]⟩
  | some row => exact prints_clipped (theme.ofOutput row.1) width row.2

/-- Left of the key help the line is filled up, and what is too long is cut. -/
theorem length_statusLine (p : Playground) (width : Nat) : (statusLine p width).length = width := by
  rw [statusLine, List.length_take, List.length_append, Text.length_padRight]
  omega

/-! ### The parts of a frame -/

theorem prints_background (c : Colour) : Prints 0 [.background c] :=
  ⟨by simp [Draw.isMove], by simp [Draw.printed]⟩

/-- The sign, the number and the space take the columns of the gutter, or more if the number is
long. -/
theorem exists_prints_lineNumber (theme : Theme) (lineNumbers active : Bool) (n : Nat) :
    ∃ m, Prints m (if lineNumbers then drawLineNumber theme active n else []) ∧
      (gutter lineNumbers).toNat ≤ 1 + m + 1 := by
  cases lineNumbers with
  | true =>
      refine ⟨_, prints_drawLineNumber theme active n, ?_⟩
      show 6 ≤ _
      omega
  | false => exact ⟨0, ⟨by simp, rfl⟩, Nat.le_refl 2⟩

theorem covers_drawEditorRow (s : Screen) (p : Playground) (row : Nat) :
    Covers s.width.toNat [UInt16.ofNat row] (s.drawEditorRow p row) := by
  have hbackground := prints_background p.theme.background
  have hspace : Prints 1 [.print [' ']] := ⟨by simp [Draw.isMove], by simp [Draw.printed]⟩
  unfold drawEditorRow
  dsimp only
  split
  · exact (hbackground.append (prints_drawFiller p.theme s.width.toNat)).covers (by omega) _
  · next line hline =>
    let i := row + p.pane.scroll
    let width := (Layout.monus s.width (gutter p.settings.showLineNumbers)).toNat
    have hsign := prints_drawSign p.theme (p.pane.marker? i)
    obtain ⟨m, hnumber, hgutter⟩ := exists_prints_lineNumber p.theme p.settings.showLineNumbers
      (i = p.pane.cursor.line) (i + 1)
    have hcontent := prints_drawContent p.theme width (p.pane.pieces line.trimLineEnd)
      line.trimLineEnd
    have hwidth : width = s.width.toNat - (gutter p.settings.showLineNumbers).toNat :=
      Layout.toNat_monus _ _
    have hfull : s.width.toNat ≤ 0 + 1 + m + 1 + width := by omega
    exact ((((hbackground.append hsign).append hnumber).append hspace).append hcontent).covers hfull _

theorem covers_drawEditor (s : Screen) (p : Playground) :
    Covers s.width.toNat ((List.range (s.layout p).editorHeight.toNat).map UInt16.ofNat)
      (s.drawEditor p) :=
  Draw.covers_flatMap _ (s.covers_drawEditorRow p)

theorem covers_drawSeparator (s : Screen) (p : Playground) :
    Covers s.width.toNat [(s.layout p).separatorRow] (s.drawSeparator p) := by
  let title := "── Output [".toList ++ p.runState.label ++ "] ".toList
  have hprints : Prints (title.length + (s.width.toNat - title.length))
      [.background p.theme.background, .foreground p.theme.separator, .print title,
        .print (List.replicate (s.width.toNat - title.length) '─')] :=
    ⟨by simp [Draw.isMove], by simp [Draw.printed]⟩
  exact hprints.covers (by omega) _

theorem covers_drawOutputRow (theme : Theme) (width : Nat) (y : UInt16) (row : Option (LineKind × Text)) :
    Covers width [y] ([.moveTo 0 y, .background theme.background] ++ drawOutputRow theme width row) :=
  ((prints_background theme.background).append (prints_drawOutputRow theme width row)).covers (by omega) y

theorem covers_drawOutput (s : Screen) (p : Playground) :
    Covers s.width.toNat ((List.range (s.layout p).outputHeight.toNat).map
      fun i => (s.layout p).outputTop + UInt16.ofNat i) (s.drawOutput p) :=
  Draw.covers_flatMap _ fun i =>
    covers_drawOutputRow p.theme s.width.toNat ((s.layout p).outputTop + UInt16.ofNat i) _

theorem strokes_drawStatus (s : Screen) (p : Playground) :
    Draw.strokes (s.drawStatus p) =
      [⟨0, (s.layout p).statusRow, statusLine p s.width.toNat⟩] := by
  simp [drawStatus, Draw.strokes, Draw.lead, Draw.isMove, Draw.printed]

theorem covers_drawStatus (s : Screen) (p : Playground) :
    Covers s.width.toNat [(s.layout p).statusRow] (s.drawStatus p) where
  lead := rfl
  rows := by rw [strokes_drawStatus]; rfl
  full := by simp [strokes_drawStatus, length_statusLine]

/-- The strokes of a frame: a stroke for each row of the layout, and at last the move to the cursor. -/
theorem strokes_frame (s : Screen) (p : Playground) :
    ∃ ks, Draw.strokes (s.frame p) = ks ++ [⟨0, (s.layout p).statusRow, statusLine p s.width.toNat⟩,
        ⟨(s.cursorCell p).1, (s.cursorCell p).2, []⟩] ∧
      ks.map (·.row) ++ [(s.layout p).statusRow] = (s.layout p).rows ∧
      ∀ k ∈ ks, k.col = 0 ∧ s.width.toNat ≤ k.text.length := by
  have hstart : Covers s.width.toNat [] [.hideCursor, .background p.theme.background] :=
    ⟨rfl, rfl, by simp [Draw.strokes]⟩
  have hrows := ((hstart.append (s.covers_drawEditor p)).append (s.covers_drawSeparator p)).append
    (s.covers_drawOutput p)
  refine ⟨_, ?_, congrArg (· ++ [_]) hrows.rows, hrows.full⟩
  simp only [frame]
  rw [Draw.strokes_append rfl, Draw.strokes_append (s.covers_drawStatus p).lead,
    strokes_drawStatus, List.append_assoc]
  rfl

/-- A frame repaints the screen. The rows are computed without loss on any screen, and from three
rows on the parts share them out. Each row is written from the first column to the last, the status
row up to there exactly; so what is seen after a frame does not depend on what was seen before. -/
theorem frame_repaints (s : Screen) (p : Playground) :
    let l := s.layout p
    let width := s.width.toNat
    let height := s.height.toNat
    let requested := p.settings.outputHeight.toNat
    l.Exact height requested ∧
    (3 ≤ height → l.rows.map UInt16.toNat = List.range height ∧
      l.outputHeight.toNat = min requested (height - 3) ∧ 1 ≤ l.editorHeight.toNat) ∧
    (∃ ks status cursor, Draw.strokes (s.frame p) = ks ++ [status, cursor] ∧
      (ks ++ [status]).map (·.row) = l.rows ∧
      (∀ k ∈ ks ++ [status], k.col = 0 ∧ width ≤ k.text.length) ∧
      (status.row = l.statusRow ∧ status.text.length = width) ∧
      ∀ r < height, ∃ k ∈ ks ++ [status], k.row.toNat = r) ∧
    ∀ k k' : Canvas, ∀ r < height, ∀ x < width,
      (k.paint s (s.frame p)).cells r x = (k'.paint s (s.frame p)).cells r x := by
  intro l width height requested
  have hexact : l.Exact s.height.toNat p.settings.outputHeight.toNat := Layout.exact_ofHeight ..
  obtain ⟨ks, hstrokes, hrows, hfull⟩ := s.strokes_frame p
  have hlength := length_statusLine p s.width.toNat
  let status : Stroke := ⟨0, l.statusRow, statusLine p s.width.toNat⟩
  have hrows' : (ks ++ [status]).map (·.row) = l.rows := by
    rw [List.map_append]
    exact hrows
  have hfull' : ∀ k ∈ ks ++ [status], k.col = 0 ∧ s.width.toNat ≤ k.text.length :=
    List.forall_mem_append.2 ⟨hfull, by simp [status, hlength]⟩
  have hwritten : ∀ r < s.height.toNat, ∃ k ∈ ks ++ [status], k.row.toNat = r := by
    intro r hr
    have hmem := hexact.mem_rows hr
    rw [← hrows', List.map_map] at hmem
    exact List.mem_map.1 hmem
  refine ⟨hexact, fun h3 => ⟨hexact.rows_eq_range h3, hexact.outputHeight, ?_⟩,
    ⟨ks, status, _, hstrokes, hrows', hfull', ⟨rfl, hlength⟩, hwritten⟩, ?_⟩
  · rw [hexact.editorHeight]
    exact Nat.le_max_right ..
  · intro k k' r hr x hx
    obtain ⟨a, ha, rfl⟩ := hwritten r hr
    obtain ⟨hcol, hreach⟩ := hfull' a ha
    have hmem : a ∈ Draw.strokes (s.frame p) := by
      rw [hstrokes, List.append_cons]
      exact List.mem_append_left _ ha
    have hsame : (k.paint s (s.frame p)).SameAt _ x (k'.paint s (s.frame p)) :=
      Canvas.sameAt_of_mem_strokes hmem hcol hx (Nat.lt_of_lt_of_le hx hreach)
    rw [Nat.min_eq_left (Nat.le_sub_one_of_lt hr)] at hsame
    exact hsame.cell

end Screen

end ScriptPad
