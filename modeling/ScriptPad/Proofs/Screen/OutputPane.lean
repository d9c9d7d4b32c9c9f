import Mathlib.Data.List.Forall2
import ScriptPad.Proofs.Screen.Line
import ScriptPad.Proofs.Text.Newline

/-!
The rows of the output on the screen. Each line of the output is split at its LFs into rows of its class,
the last rows that there is room for are shown from the top of the pane on, each clipped and filled up to
the width, and what is left of the pane is blank. This is so in the commands for the pane, and no other
part of a frame goes over its rows.
-/

namespace ScriptPad

namespace Text

theorem intercalate_append (sep : Char) {as bs : List Text} (ha : as ≠ []) (hb : bs ≠ []) :
    [sep].intercalate (as ++ bs) = [sep].intercalate as ++ sep :: [sep].intercalate bs := by
  obtain ⟨b, bs, rfl⟩ := List.exists_cons_of_ne_nil hb
  induction as with
  | nil => exact absurd rfl ha
  | cons a as ih =>
      cases as with
      | nil => simp [List.intercalate_cons_cons]
      | cons a' as =>
          rw [List.cons_append, List.cons_append, List.intercalate_cons_cons,
            List.intercalate_cons_cons, ← List.cons_append, ih (List.cons_ne_nil a' as)]
          simp

theorem intercalate_consFirst (sep c : Char) {ls : List Text} (h : ls ≠ []) :
    [sep].intercalate (consFirst c ls) = c :: [sep].intercalate ls := by
  obtain ⟨l, ls, rfl⟩ := List.exists_cons_of_ne_nil h
  cases ls with
  | nil => simp [consFirst]
  | cons l' ls => simp [consFirst, List.intercalate_cons_cons]

theorem intercalate_splitAt (sep : Char) (t : Text) : [sep].intercalate (splitAt sep t) = t := by
  induction t with
  | nil => rfl
  | cons c t ih =>
      by_cases hc : c = sep
      · subst hc
        have hjoin := intercalate_append c (List.cons_ne_nil [] []) (splitAt_ne_nil c t)
        rw [splitAt, if_pos rfl]
        exact hjoin.trans (congrArg (c :: ·) ih)
      · rw [splitAt, if_neg hc, intercalate_consFirst sep c (splitAt_ne_nil sep t), ih]

/-- Splitting texts changes nothing about their join. -/
theorem intercalate_flatMap_splitAt (sep : Char) (ts : List Text) :
    [sep].intercalate (ts.flatMap (splitAt sep)) = [sep].intercalate ts := by
  induction ts with
  | nil => rfl
  | cons t ts ih =>
      cases ts with
      | nil => simp [intercalate_splitAt]
      | cons t' ts =>
          have hne : (t' :: ts).flatMap (splitAt sep) ≠ [] := by simp
          rw [List.flatMap_cons, intercalate_append sep (splitAt_ne_nil sep t) hne, intercalate_splitAt, ih,
            List.intercalate_cons_cons]
          simp

end Text

namespace Output

/-- The last rows, as many as there is room for. -/
def latest (o : Output) (room : Nat) : List (LineKind × Text) := o.rows.drop (o.rows.length - room)

/-- A line of the output as rows of its class. -/
structure IsRowsOf (line : Text) (rows : List (LineKind × Text)) : Prop where
  joined : ['\n'].intercalate (rows.map Prod.snd) = line
  free : ∀ row ∈ rows, '\n' ∉ row.2
  kind : ∀ row ∈ rows, row.1 = LineKind.classify line
  nonempty : rows ≠ []

variable (o : Output) (room : Nat)

theorem isRowsOf_splitAt (line : Text) :
    IsRowsOf line ((line.splitAt '\n').map (LineKind.classify line, ·)) where
  joined := by
    rw [List.map_map]
    exact (congrArg _ (List.map_id _)).trans (Text.intercalate_splitAt '\n' line)
  free := by
    rintro row hrow hmem
    obtain ⟨r, hr, rfl⟩ := List.mem_map.1 hrow
    exact (Text.mem_of_mem_splitAt hr '\n' hmem).2 rfl
  kind := by simp
  nonempty := by simp

theorem rows_eq :
    o.rows = o.lines.flatMap fun line => (line.splitAt '\n').map (LineKind.classify line, ·) := by
  rw [rows, classified, List.flatMap_map]

theorem exists_groups : ∃ groups, o.rows = groups.flatten ∧ List.Forall₂ IsRowsOf o.lines groups := by
  refine ⟨o.lines.map fun line => (line.splitAt '\n').map (LineKind.classify line, ·), ?_, ?_⟩
  · rw [rows_eq, List.flatMap]
  · rw [List.forall₂_map_right_iff]
    exact List.forall₂_same.2 fun line _ => isRowsOf_splitAt line

theorem newline_notMem_of_mem_rows {row : LineKind × Text} (h : row ∈ o.rows) : '\n' ∉ row.2 := by
  rw [rows_eq] at h
  obtain ⟨line, -, hrow⟩ := List.mem_flatMap.1 h
  exact (isRowsOf_splitAt line).free row hrow

theorem intercalate_rows : ['\n'].intercalate (o.rows.map Prod.snd) = ['\n'].intercalate o.lines := by
  have htexts : o.rows.map Prod.snd = o.lines.flatMap (Text.splitAt '\n') := by
    simp [rows_eq, List.map_flatMap, Function.comp_def]
  rw [htexts, Text.intercalate_flatMap_splitAt]

theorem rows_ne_nil (h : o.lines ≠ []) : o.rows ≠ [] := by
  rw [rows_eq]
  simpa using List.exists_mem_of_ne_nil _ h

theorem length_latest : (o.latest room).length = min room o.rows.length := by
  rw [latest, List.length_drop]
  omega

theorem getElem?_latest (i : Nat) : (o.latest room)[i]? = o.rows[o.rows.length - room + i]? :=
  List.getElem?_drop

theorem getLast?_latest (hroom : 1 ≤ room) : (o.latest room).getLast? = o.rows.getLast? := by
  rw [latest, List.getLast?_drop]
  split
  · next hle =>
    have hnone : o.rows = [] := List.eq_nil_of_length_eq_zero (by omega)
    rw [hnone]
    rfl
  · rfl

end Output

namespace Screen

variable (s : Screen) (p : Playground)

/-- What a row of the pane shows. -/
def paneRow (width : Nat) : Option (LineKind × Text) → Text
  | some (_, text) => text.take width ++ blank (width - text.length)
  | none => blank width

theorem length_paneRow (width : Nat) (row : Option (LineKind × Text)) :
    (paneRow width row).length = width := by
  cases row with
  | none => simp [paneRow, blank]
  | some row =>
      rw [paneRow, List.length_append, List.length_take, blank, List.length_replicate]
      omega

theorem inked_drawOutputRow (theme : Theme) (width : Nat) (kind : LineKind) (text : Text)
    (ink : Option Colour) :
    Draw.inked ink (drawOutputRow theme width (some (kind, text))) =
      (paneRow width (some (kind, text))).map (·, some (theme.ofOutput kind)) := by
  have hblank : blank (width - (text.take width).length) = blank (width - text.length) := by
    rw [List.length_take]
    congr 1
    omega
  rw [drawOutputRow, hblank, Draw.inked_foreground_print, paneRow, List.map_append]
  simp [Draw.inked, Draw.printed]

theorem printed_drawOutputRow (theme : Theme) (width : Nat) (row : Option (LineKind × Text)) :
    (drawOutputRow theme width row).flatMap Draw.printed = paneRow width row := by
  cases row with
  | none => simp [drawOutputRow, Draw.printed, paneRow]
  | some row =>
      rw [← Draw.map_fst_inked none, inked_drawOutputRow, List.map_map]
      exact List.map_id _

/-- The commands for one row of the pane. -/
def drawPaneRow (i : Nat) : List Draw :=
  [.moveTo 0 ((s.layout p).outputTop + UInt16.ofNat i), .background p.theme.background] ++
    drawOutputRow p.theme s.width.toNat (p.output.latest (s.layout p).outputHeight.toNat)[i]?

theorem drawOutput_eq :
    s.drawOutput p = ((List.range (s.layout p).outputHeight.toNat).map (s.drawPaneRow p)).flatten := by
  rw [drawOutput, ← List.flatMap]
  refine List.flatMap_congr fun i _ => ?_
  rw [drawPaneRow, Output.getElem?_latest]

theorem covers_drawPaneRow (i : Nat) :
    Draw.Covers s.width.toNat [(s.layout p).outputTop + UInt16.ofNat i] (s.drawPaneRow p i) :=
  covers_drawOutputRow ..

theorem strokes_drawPaneRow (i : Nat) :
    Draw.strokes (s.drawPaneRow p i) = [⟨0, (s.layout p).outputTop + UInt16.ofNat i,
      paneRow s.width.toNat (p.output.latest (s.layout p).outputHeight.toNat)[i]?⟩] := by
  rw [(s.covers_drawPaneRow p i).strokes_eq, drawPaneRow, List.flatMap_append, printed_drawOutputRow]
  rfl

/-- The strokes of the pane are among those of the frame. -/
theorem mem_strokes_frame {a : Stroke} (ha : a ∈ Draw.strokes (s.drawOutput p)) :
    a ∈ Draw.strokes (s.frame p) := by
  simp only [frame]
  rw [Draw.strokes_append rfl, Draw.strokes_append (s.covers_drawStatus p).lead,
    Draw.strokes_append (s.covers_drawOutput p).lead]
  exact List.mem_append_left _ (List.mem_append_left _ (List.mem_append_right _ ha))

/-- On a screen that has room for output, the strokes of a frame that print something go to rows of their
own. -/
theorem exists_strokes_frame (h3 : 3 ≤ s.height.toNat) :
    ∃ as cursor, Draw.strokes (s.frame p) = as ++ [cursor] ∧ cursor.text = [] ∧
      (as.map (Canvas.strokeRow s)).Nodup := by
  have hexact : (s.layout p).Exact s.height.toNat p.settings.outputHeight.toNat := Layout.exact_ofHeight ..
  obtain ⟨ks, hstrokes, hrows, -⟩ := s.strokes_frame p
  let status : Stroke := ⟨0, (s.layout p).statusRow, statusLine p s.width.toNat⟩
  refine ⟨ks ++ [status], _, by rw [hstrokes, List.append_assoc]; rfl, rfl, ?_⟩
  have hall : (ks ++ [status]).map (fun a => a.row.toNat) = List.range s.height.toNat := by
    rw [← hexact.rows_eq_range h3, ← hrows]
    simp [status]
  have hclamp : (ks ++ [status]).map (Canvas.strokeRow s) = List.range s.height.toNat := by
    have hmap : (ks ++ [status]).map (Canvas.strokeRow s) =
        ((ks ++ [status]).map fun a => a.row.toNat).map (min · (s.height.toNat - 1)) := by
      rw [List.map_map]
      rfl
    rw [hmap, hall]
    refine (List.map_congr_left fun r hr => ?_).trans (List.map_id _)
    have hlt := List.mem_range.1 hr
    show min r _ = r
    omega
  rw [hclamp]
  exact List.nodup_range

theorem cells_outputRow (k : Canvas) {i x : Nat} (hi : i < (s.layout p).outputHeight.toNat)
    (hx : x < s.width.toNat) :
    (paneRow s.width.toNat (p.output.latest (s.layout p).outputHeight.toNat)[i]?)[x]? =
      some ((k.paint s (s.frame p)).cells ((s.layout p).outputTop.toNat + i) x) := by
  let a : Stroke := ⟨0, (s.layout p).outputTop + UInt16.ofNat i,
    paneRow s.width.toNat (p.output.latest (s.layout p).outputHeight.toNat)[i]?⟩
  have hexact : (s.layout p).Exact s.height.toNat p.settings.outputHeight.toNat := Layout.exact_ofHeight ..
  have houtput := hexact.outputHeight
  have heditor := hexact.editorHeight
  have hlength : a.text.length = s.width.toNat := length_paneRow ..
  have hrow : Canvas.strokeRow s a = (s.layout p).outputTop.toNat + i := by
    rw [Canvas.strokeRow, hexact.outputRow i hi, hexact.outputTop]
    omega
  have hmem : a ∈ Draw.strokes (s.frame p) := by
    refine s.mem_strokes_frame p ?_
    rw [drawOutput_eq, ← List.flatMap, Draw.strokes_flatMap fun j => (s.covers_drawPaneRow p j).lead]
    exact List.mem_flatMap.2 ⟨i, List.mem_range.2 hi, by rw [strokes_drawPaneRow]; exact List.mem_cons_self⟩
  obtain ⟨as, cursor, hstrokes, hcursor, hnodup⟩ := s.exists_strokes_frame p (by omega)
  have ha : a ∈ as := by
    rw [hstrokes] at hmem
    rcases List.mem_append.1 hmem with hmem | hmem
    · exact hmem
    · -- the move to the cursor prints nothing
      rw [List.mem_singleton.1 hmem, hcursor] at hlength
      rw [← hlength] at hx
      cases hx
  have hreach : x < a.text.length := by rwa [hlength]
  have hcell := Canvas.cells_paint (k := k) hstrokes (by simpa using hcursor) hnodup ha rfl
    (Nat.le_of_eq hlength) hreach
  rw [hrow] at hcell
  rw [hcell]
  exact List.getElem?_eq_getElem hreach

/-- The pane shows the latest output. The rows of the output are those of its lines in order, each line
split at its LFs and all of it in the class of the whole line; so no row has an LF, and joined by LFs they
are what the lines are. The last rows that there is room for are shown from the top of the pane on, so the
last of all is if there is room for any. Each is clipped and filled up to the width in the colour of its
class, and what is left of the pane is blank. So it is in the commands for the pane, and so it stands on
the terminal after a frame. -/
theorem output_pane_shows_latest (s : Screen) (p : Playground) :
    let rows := p.output.rows
    let room := (s.layout p).outputHeight.toNat
    let shown := p.output.latest room
    let width := s.width.toNat
    room = min p.settings.outputHeight.toNat (s.height.toNat - 3) ∧
    ((∃ groups, rows = groups.flatten ∧ List.Forall₂ Output.IsRowsOf p.output.lines groups) ∧
      (∀ row ∈ rows, '\n' ∉ row.2) ∧
      ['\n'].intercalate (rows.map Prod.snd) = ['\n'].intercalate p.output.lines) ∧
    (shown <:+ rows ∧ shown.length = min room rows.length ∧
      (1 ≤ room → p.output.lines ≠ [] →
        ∃ last, rows.getLast? = some last ∧ shown.getLast? = some last)) ∧
    (∃ drawn : List (List Draw), s.drawOutput p = drawn.flatten ∧ drawn.length = room ∧
      ∀ i ds, drawn[i]? = some ds →
        Draw.strokes ds = [⟨0, (s.layout p).outputTop + UInt16.ofNat i, paneRow width shown[i]?⟩] ∧
        (paneRow width shown[i]?).length = width ∧
        ∀ kind text, shown[i]? = some (kind, text) → ∀ ink, Draw.inked ink ds =
          (text.take width ++ blank (width - text.length)).map (·, some (p.theme.ofOutput kind))) ∧
    ∀ k : Canvas, ∀ i < room, ∀ x < width, (paneRow width shown[i]?)[x]? =
      some ((k.paint s (s.frame p)).cells ((s.layout p).outputTop.toNat + i) x) := by
  intro rows room shown width
  have hexact : (s.layout p).Exact s.height.toNat p.settings.outputHeight.toNat := Layout.exact_ofHeight ..
  refine ⟨hexact.outputHeight,
    ⟨p.output.exists_groups, fun row => p.output.newline_notMem_of_mem_rows, p.output.intercalate_rows⟩,
    ⟨List.drop_suffix .., p.output.length_latest room, fun hroom hlines => ?_⟩,
    ⟨_, s.drawOutput_eq p, by rw [List.length_map, List.length_range], fun i ds hds => ?_⟩,
    fun k i hi x hx => s.cells_outputRow p k hi hx⟩
  · obtain ⟨last, hlast⟩ := Option.ne_none_iff_exists'.1
      (mt List.getLast?_eq_none_iff.1 (p.output.rows_ne_nil hlines))
    exact ⟨last, hlast, (p.output.getLast?_latest room hroom).trans hlast⟩
  · rw [List.getElem?_map] at hds
    obtain ⟨j, hj, rfl⟩ := Option.map_eq_some_iff.1 hds
    obtain ⟨hi, rfl⟩ := List.getElem?_eq_some_iff.1 hj
    rw [List.getElem_range]
    refine ⟨s.strokes_drawPaneRow p i, length_paneRow .., fun kind text hrow ink => ?_⟩
    rw [drawPaneRow, hrow]
    exact inked_drawOutputRow p.theme width kind text ink

/-- A result takes two rows, the first of them empty. -/
example : (Output.mk #["hello".toList, "\nResult: 3".toList]).latest 2 =
    [(.result, []), (.result, "Result: 3".toList)] := by decide

end Screen

end ScriptPad
