import ScriptPad.Proofs.Origin
import ScriptPad.Proofs.Screen.Cursor
import ScriptPad.Proofs.Screen.OutputPane
import ScriptPad.Script.Run

/-!
The control characters that are sent as text. A terminal does not show such a character but acts on it, and
what is printed after it is in other columns than those counted, or on other rows. A line of the document is
shown without the LF and the CR at its end and with a space for each tab, and a line of the output is split
at its LFs. All other control characters in what is shown go to the terminal as they are, in the editor, in
the output, where tabs are among them, and in the status line, and there are none in the rest of a frame.
-/

namespace ScriptPad

open Playground (Step Typed Sourced)

namespace Text

variable {t : Text} {c : Char}

/-- A character of the category `Cc`. -/
def isControl (c : Char) : Bool := c.toNat < 32 || (127 ≤ c.toNat && c.toNat < 160)

/-- The control characters of a text, in order. -/
def controls (t : Text) : Text := t.filter isControl

theorem mem_controls : c ∈ t.controls ↔ c ∈ t ∧ isControl c := List.mem_filter

theorem controls_append (a b : Text) : (a ++ b).controls = a.controls ++ b.controls :=
  List.filter_append ..

theorem controls_flatMap {α : Type} (l : List α) (g : α → Text) :
    controls (l.flatMap g) = l.flatMap fun x => (g x).controls := List.filter_flatMap

theorem controls_eq_nil_iff : t.controls = [] ↔ ∀ c ∈ t, ¬ isControl c := List.filter_eq_nil_iff

theorem controls_take_eq_nil (h : t.controls = []) (n : Nat) : controls (t.take n) = [] :=
  controls_eq_nil_iff.2 fun c hc => controls_eq_nil_iff.1 h c (List.mem_of_mem_take hc)

theorem controls_replicate (hc : ¬ isControl c) (n : Nat) : controls (List.replicate n c) = [] := by
  refine controls_eq_nil_iff.2 fun d hd => ?_
  rwa [List.eq_of_mem_replicate hd]

theorem controls_padLeft (n : Nat) (t : Text) : (padLeft n t).controls = t.controls := by
  rw [padLeft, controls_append, controls_replicate (by decide), List.nil_append]

theorem controls_padRight (n : Nat) (t : Text) : (padRight n t).controls = t.controls := by
  rw [padRight, controls_append, controls_replicate (by decide), List.append_nil]

theorem controls_ofNat (n : Nat) : controls (ofNat n) = [] := by
  refine controls_eq_nil_iff.2 fun c hc => ?_
  have hdigit : c.isDigit = true := Nat.isDigit_of_mem_toDigits (by decide) (by decide) hc
  obtain ⟨hle, hge⟩ : 48 ≤ c.toNat ∧ c.toNat ≤ 57 := by
    simpa [Char.isDigit, UInt32.le_iff_toNat_le] using hdigit
  simp only [isControl, Bool.or_eq_true, Bool.and_eq_true, decide_eq_true_eq]
  omega

/-- What is left of a line has no LF and no CR, for a line has these at its end only. -/
theorem of_mem_trimLineEnd {l : Text} (hl : l ∈ lines t) (hc : c ∈ l.trimLineEnd) :
    c ∈ t ∧ c ≠ '\n' ∧ c ≠ '\r' := by
  have hmem : c ∈ l := List.mem_reverse.1 ((List.dropWhile_suffix _).subset (List.mem_reverse.1 hc))
  refine ⟨flatten_lines t ▸ List.mem_flatten_of_mem hl hmem, ?_⟩
  obtain ⟨body, e, rfl, hbody, he⟩ := exists_lineEnd hl
  have hbreak : c ∈ body → c ≠ '\n' ∧ c ≠ '\r' := by
    intro hin
    have hnot := hbody c hin
    constructor <;> rintro rfl <;> exact hnot rfl
  cases he with
  | none => exact hbreak (by rwa [trimLineEnd_append hbody (by simp)] at hc)
  | pair => exact hbreak (by rwa [trimLineEnd_append hbody (by simp)] at hc)
  | @single d hd =>
      by_cases hend : d = '\n' ∨ d = '\r'
      · exact hbreak (by rwa [trimLineEnd_append hbody (by simpa using hend)] at hc)
      · obtain ⟨hlf, hcr⟩ := not_or.1 hend
        rcases List.mem_append.1 hmem with hin | hlast
        · exact hbreak hin
        · rw [List.mem_singleton.1 hlast]
          exact ⟨hlf, hcr⟩

end Text

/-- What goes by the elements at the first places goes by the first elements. -/
theorem flatMap_range_getElem? {α β : Type} (g : α → List β) (l : List α) (n : Nat) :
    ((List.range n).flatMap fun i => (l[i]?.map g).getD []) = (l.take n).flatMap g := by
  induction n with
  | zero => rfl
  | succ n ih =>
      rw [List.range_succ, List.flatMap_append, ih, List.take_add_one, List.flatMap_append,
        List.flatMap_singleton]
      congr 1
      cases l[n]? with
      | none => rfl
      | some x => exact (List.flatMap_singleton g x).symm

namespace Draw

/-- The control characters that are printed, in order. -/
def controls (ds : List Draw) : Text := Text.controls (ds.flatMap printed)

theorem controls_append (ds es : List Draw) : controls (ds ++ es) = controls ds ++ controls es := by
  rw [controls, List.flatMap_append, Text.controls_append]
  rfl

theorem controls_flatMap {α : Type} (l : List α) (g : α → List Draw) :
    controls (l.flatMap g) = l.flatMap fun x => controls (g x) := by
  rw [controls, List.flatMap_assoc, Text.controls_flatMap]
  rfl

end Draw

namespace Screen

variable {s : Screen} {p : Playground}

theorem controls_blank (n : Nat) : Text.controls (blank n) = [] :=
  Text.controls_replicate (by decide) n

/-! ### The editor -/

/-- The lines in view as far as there is room for them. -/
def shownLines (s : Screen) (p : Playground) : List Text :=
  ((p.pane.text.lines.drop p.pane.scroll).take (s.editorRows p)).map fun line => s.shown p line.trimLineEnd

theorem controls_margin (p : Playground) (i : Nat) : Text.controls (margin p i) = [] := by
  have hsign : Text.controls [((p.pane.marker? i).map (·.severity.sign)).getD ' '] = [] := by
    cases p.pane.marker? i with
    | none => rfl
    | some m =>
        show Text.controls [m.severity.sign] = []
        cases m.severity <;> rfl
  have hnumber : Text.controls
      (if p.settings.showLineNumbers then Text.padLeft 4 (Text.ofNat (i + 1)) else []) = [] := by
    split
    · rw [Text.controls_padLeft, Text.controls_ofNat]
    · rfl
  rw [margin, ← List.singleton_append, Text.controls_append, Text.controls_append, hsign, hnumber]
  rfl

theorem controls_drawEditorRow (s : Screen) (p : Playground) (row : Nat) :
    Draw.controls (s.drawEditorRow p row) =
      ((p.pane.text.lines.drop p.pane.scroll)[row]?.map fun line =>
        Text.controls (s.shown p line.trimLineEnd)).getD [] := by
  have hplace : (p.pane.text.lines.drop p.pane.scroll)[row]? =
      p.pane.buffer.text.lines[row + p.pane.scroll]? := by
    rw [List.getElem?_drop, Nat.add_comm]
    rfl
  rw [hplace]
  cases hline : p.pane.buffer.text.lines[row + p.pane.scroll]? with
  | none =>
      have hfiller : Draw.controls (s.drawEditorRow p row) =
          Text.controls (Text.padRight s.width.toNat ['~']) := by
        simp [drawEditorRow, hline, drawFiller, Draw.controls, Draw.printed]
      rw [hfiller, Text.controls_padRight]
      rfl
  | some line =>
      have hprinted : (s.drawEditorRow p row).flatMap Draw.printed =
          margin p (row + p.pane.scroll) ++ (s.shown p line.trimLineEnd ++
            blank (s.room p - line.trimLineEnd.length)) := by
        rw [drawEditorRow_of_line hline, List.flatMap_append, printed_drawContent_shown,
          ← printed_drawMargin]
        rfl
      rw [Draw.controls, hprinted, Text.controls_append, Text.controls_append, controls_margin,
        controls_blank, List.append_nil, List.nil_append]
      rfl

theorem controls_drawEditor (s : Screen) (p : Playground) :
    Draw.controls (s.drawEditor p) = Text.controls (s.shownLines p).flatten := by
  rw [drawEditor, Draw.controls_flatMap, List.flatMap_congr fun r _ => s.controls_drawEditorRow p r,
    flatMap_range_getElem?, shownLines, ← List.flatMap, Text.controls_flatMap]

/-! ### Below the editor -/

/-- The last rows of the output as far as there is room for them. -/
def shownRows (s : Screen) (p : Playground) : List Text :=
  (p.output.latest (s.layout p).outputHeight.toNat).map fun row => row.2.take s.width.toNat

theorem controls_drawSeparator (s : Screen) (p : Playground) : Draw.controls (s.drawSeparator p) = [] := by
  let title := "── Output [".toList ++ p.runState.label ++ "] ".toList
  have htitle : Text.controls title = [] := by
    cases hstate : p.runState <;> simp only [title, hstate] <;> decide
  have hprinted : (s.drawSeparator p).flatMap Draw.printed =
      title ++ List.replicate (s.width.toNat - title.length) '─' := by
    simp [drawSeparator, Draw.printed, title]
  rw [Draw.controls, hprinted, Text.controls_append, htitle, Text.controls_replicate (by decide)]
  rfl

theorem controls_paneRow (width : Nat) (row : Option (LineKind × Text)) :
    Text.controls (paneRow width row) = (row.map fun r => Text.controls (r.2.take width)).getD [] := by
  cases row with
  | none => exact controls_blank width
  | some r =>
      rw [paneRow, Text.controls_append, controls_blank, List.append_nil]
      rfl

theorem controls_drawOutput (s : Screen) (p : Playground) :
    Draw.controls (s.drawOutput p) = Text.controls (s.shownRows p).flatten := by
  have hrow (i : Nat) : Draw.controls (s.drawPaneRow p i) =
      ((p.output.latest (s.layout p).outputHeight.toNat)[i]?.map fun r =>
        Text.controls (r.2.take s.width.toNat)).getD [] := by
    rw [← controls_paneRow, ← printed_drawOutputRow p.theme]
    rfl
  have hfits : (p.output.latest (s.layout p).outputHeight.toNat).length ≤
      (s.layout p).outputHeight.toNat := by
    rw [Output.length_latest]
    exact Nat.min_le_left ..
  rw [drawOutput_eq, ← List.flatMap, Draw.controls_flatMap, List.flatMap_congr fun i _ => hrow i,
    flatMap_range_getElem?, List.take_of_length_le hfits, shownRows, ← List.flatMap,
    Text.controls_flatMap]

/-- What the status line has before the text it is about. -/
def statusHead (p : Playground) : Text :=
  let language := ((p.pane.language.map (·.name)).getD "text".toList).map Char.toUpper
  ' ' :: language ++ " | ".toList ++ p.runState.label ++ " | ".toList ++
    Text.ofNat p.pane.errorCount ++ " error(s) ".toList ++ Text.ofNat p.pane.warningCount ++
    " warning(s) | ".toList

theorem statusLeft_eq (p : Playground) : statusLeft p = statusHead p ++ statusDetail p := rfl

/-- What the status line is about, as far as there is room for it. -/
def shownDetail (s : Screen) (p : Playground) : Text :=
  (statusDetail p).take (s.width.toNat - keyHelp.length - (statusHead p).length)

theorem controls_statusHead (hlanguage : p.pane.language = some .rhai) :
    Text.controls (statusHead p) = [] := by
  have hname : Text.controls (((p.pane.language.map (·.name)).getD "text".toList).map Char.toUpper) =
      [] := by
    rw [hlanguage]
    decide
  have hstate : Text.controls p.runState.label = [] := by
    cases p.runState <;> decide
  rw [statusHead, ← List.singleton_append]
  simp only [Text.controls_append, hname, hstate, Text.controls_ofNat]
  decide

theorem controls_drawStatus (s : Screen) (hlanguage : p.pane.language = some .rhai) :
    Draw.controls (s.drawStatus p) = Text.controls (s.shownDetail p) := by
  let room := s.width.toNat - keyHelp.length
  have hprinted : (s.drawStatus p).flatMap Draw.printed = statusLine p s.width.toNat := by
    simp [drawStatus, Draw.printed]
  have hwidth : (Text.padRight room ((statusLeft p).take room)).length ≤ s.width.toNat := by
    rw [Text.length_padRight, List.length_take]
    omega
  have hhelp : Text.controls keyHelp = [] := by decide
  -- only the text is cut to the room left of the help; the last cut takes from the help alone
  rw [Draw.controls, hprinted, statusLine, List.take_append, List.take_of_length_le hwidth,
    Text.controls_append, Text.controls_padRight, Text.controls_take_eq_nil hhelp, List.append_nil,
    statusLeft_eq, List.take_append, Text.controls_append,
    Text.controls_take_eq_nil (controls_statusHead hlanguage)]
  rfl

/-! ### Where they come from -/

variable {c : Char}

/-- The control characters shown of lines are others than tab, LF and CR. -/
theorem of_mem_shownLines (hlanguage : p.pane.language = some .rhai)
    (hc : c ∈ Text.controls (s.shownLines p).flatten) : c ∈ p.pane.text ∧ c ∉ ['\t', '\n', '\r'] := by
  obtain ⟨hmem, hcontrol⟩ := Text.mem_controls.1 hc
  obtain ⟨_, hshown, hin⟩ := List.mem_flatten.1 hmem
  obtain ⟨line, hline, rfl⟩ := List.mem_map.1 hshown
  have hlines : line ∈ p.pane.text.lines := List.mem_of_mem_drop (List.mem_of_mem_take hline)
  rw [shown, hlanguage] at hin
  obtain ⟨d, hd, rfl⟩ := List.mem_map.1 (List.mem_of_mem_take hin)
  obtain ⟨htext, hlf, hcr⟩ := Text.of_mem_trimLineEnd hlines hd
  by_cases htab : d = '\t'
  · subst htab
    exact absurd hcontrol (by decide)
  · rw [showTab, if_neg htab]
    exact ⟨htext, by simp [htab, hlf, hcr]⟩

theorem of_mem_shownRows (hc : c ∈ Text.controls (s.shownRows p).flatten) :
    c ≠ '\n' ∧ ∃ line ∈ p.output.lines, c ∈ line := by
  obtain ⟨hmem, -⟩ := Text.mem_controls.1 hc
  obtain ⟨_, hshown, hin⟩ := List.mem_flatten.1 hmem
  obtain ⟨row, hrow, rfl⟩ := List.mem_map.1 hshown
  have hrows : row ∈ p.output.rows := List.mem_of_mem_drop hrow
  rw [Output.rows_eq] at hrows
  obtain ⟨line, hline, hsplit⟩ := List.mem_flatMap.1 hrows
  obtain ⟨r, hr, rfl⟩ := List.mem_map.1 hsplit
  obtain ⟨hold, hne⟩ := Text.mem_of_mem_splitAt hr c (List.mem_of_mem_take hin)
  exact ⟨hne, line, hline, hold⟩

/-- A refusal has no control characters, so those of the status line are in a marker. -/
theorem of_mem_shownDetail (hmessage : ∀ m ∈ p.message, ∃ e, m = Playground.refusal e)
    (hc : c ∈ Text.controls (s.shownDetail p)) : ∃ m ∈ p.pane.markers, c ∈ m.message := by
  obtain ⟨hmem, hcontrol⟩ := Text.mem_controls.1 hc
  have hdetail : c ∈ statusDetail p := List.mem_of_mem_take hmem
  rw [statusDetail] at hdetail
  cases hm : p.message with
  | some m =>
      obtain ⟨e, rfl⟩ := hmessage m hm
      have hnone : Text.controls (Playground.refusal e) = [] := by cases e <;> decide
      rw [hm] at hdetail
      exact absurd hcontrol (Text.controls_eq_nil_iff.1 hnone c hdetail)
  | none =>
      cases hmarker : p.pane.marker? p.pane.cursor.line with
      | none =>
          rw [hm, hmarker] at hdetail
          cases hdetail
      | some m =>
          rw [hm, hmarker] at hdetail
          exact ⟨m, Marker.mem_of_mostSevere? hmarker, hdetail⟩

variable {source : Text} {f : Analyzer} {ss : List Step}

theorem of_mem_controls_drawEditor (h : p.Sourced source f ss) (hc : c ∈ Draw.controls (s.drawEditor p)) :
    c ∉ ['\t', '\n', '\r'] ∧ (c ∈ source ∨ Typed ss c) := by
  have hcontrol := (Text.mem_controls.1 hc).2
  rw [controls_drawEditor] at hc
  obtain ⟨htext, hnot⟩ := of_mem_shownLines h.language hc
  refine ⟨hnot, ?_⟩
  rcases h.text c htext with hsource | htyped | rfl | rfl
  · exact .inl hsource
  · exact .inr htyped
  · exact absurd hcontrol (by decide)
  · exact absurd hnot (by decide)

theorem of_mem_controls_drawOutput (h : p.Sourced source f ss) (hc : c ∈ Draw.controls (s.drawOutput p)) :
    c ≠ '\n' ∧ ∃ e, .takeRunEvent e ∈ ss ∧ c ∈ e.line := by
  rw [controls_drawOutput] at hc
  obtain ⟨hnot, line, hline, hin⟩ := of_mem_shownRows hc
  obtain ⟨e, he, rfl⟩ := h.output line hline
  exact ⟨hnot, e, he, hin⟩

theorem of_mem_controls_drawStatus (h : p.Sourced source f ss) (hc : c ∈ Draw.controls (s.drawStatus p)) :
    ∃ t rs, f t = .reports rs ∧ ∃ r ∈ rs, c ∈ r.message := by
  rw [controls_drawStatus s h.language] at hc
  obtain ⟨m, hm, hin⟩ := of_mem_shownDetail h.message hc
  obtain ⟨t, rs, hrs, r, hr, rfl⟩ := h.markers m hm
  exact ⟨t, rs, hrs, r, hr, hin⟩

/-! ### The frame -/

theorem controls_frame (s : Screen) (p : Playground) : Draw.controls (s.frame p) =
    Draw.controls (s.drawEditor p) ++ Draw.controls (s.drawOutput p) ++ Draw.controls (s.drawStatus p) := by
  simp only [frame, Draw.controls_append, controls_drawSeparator, List.append_nil]
  have hstart : Draw.controls [.hideCursor, .background p.theme.background] = [] := rfl
  have hend : Draw.controls
      [.moveTo (s.cursorCell p).1 (s.cursorCell p).2, .steadyBar, .showCursor] = [] := rfl
  rw [hstart, hend, List.nil_append, List.append_nil]

/-- After any steps the control characters that a frame prints are those of what it shows, each as often and
in the same order: of the lines in view, of the last rows of the output, and of the message or marker in the
status line. In the editor they come from the source or have been typed, and no tab, LF or CR is among them;
in the output they come from a run, and no LF is among them; in the status line they come from a report.
The separator has none. So a frame prints none if none were given to the playground, apart from tabs, LFs
and CRs in the text and LFs in the output. -/
theorem frame_prints_controls_shown (source : Text) (settings : Settings) (f : Analyzer) (x : Executor)
    (ss : List Step) (p : Playground)
    (h : (Playground.ofSource source settings f x).steps ss = .ok p) (s : Screen) :
    (Draw.controls (s.drawEditor p) = Text.controls (s.shownLines p).flatten ∧
      ∀ c ∈ Draw.controls (s.drawEditor p), c ∉ ['\t', '\n', '\r'] ∧ (c ∈ source ∨ Typed ss c)) ∧
    Draw.controls (s.drawSeparator p) = [] ∧
    (Draw.controls (s.drawOutput p) = Text.controls (s.shownRows p).flatten ∧
      ∀ c ∈ Draw.controls (s.drawOutput p), c ≠ '\n' ∧ ∃ e, .takeRunEvent e ∈ ss ∧ c ∈ e.line) ∧
    (Draw.controls (s.drawStatus p) = Text.controls (s.shownDetail p) ∧
      ∀ c ∈ Draw.controls (s.drawStatus p), ∃ t rs, f t = .reports rs ∧ ∃ r ∈ rs, c ∈ r.message) ∧
    ((∀ c, c ∈ source ∨ Typed ss c → Text.isControl c → c ∈ ['\t', '\n', '\r']) →
      (∀ e, .takeRunEvent e ∈ ss → Text.controls e.line ⊆ ['\n']) →
      (∀ t rs, f t = .reports rs → ∀ r ∈ rs, Text.controls r.message = []) →
      Draw.controls (s.frame p) = []) := by
  have hsourced := Playground.sourced_of_steps h
  refine ⟨⟨s.controls_drawEditor p, fun c => of_mem_controls_drawEditor hsourced⟩,
    s.controls_drawSeparator p,
    ⟨s.controls_drawOutput p, fun c => of_mem_controls_drawOutput hsourced⟩,
    ⟨controls_drawStatus s hsourced.language, fun c => of_mem_controls_drawStatus hsourced⟩,
    fun htext hlines hmessages => ?_⟩
  refine List.eq_nil_iff_forall_not_mem.2 fun c hc => ?_
  have hcontrol : Text.isControl c := (Text.mem_controls.1 hc).2
  rw [controls_frame, List.mem_append, List.mem_append] at hc
  -- it has been given to the playground, and is one that the part of the frame does not print
  rcases hc with (hc | hc) | hc
  · obtain ⟨hnot, hgiven⟩ := of_mem_controls_drawEditor hsourced hc
    exact hnot (htext c hgiven hcontrol)
  · obtain ⟨hnot, e, he, hin⟩ := of_mem_controls_drawOutput hsourced hc
    exact hnot (List.mem_singleton.1 (hlines e he (Text.mem_controls.2 ⟨hin, hcontrol⟩)))
  · obtain ⟨t, rs, hrs, r, hr, hin⟩ := of_mem_controls_drawStatus hsourced hc
    exact Text.controls_eq_nil_iff.1 (hmessages t rs hrs r hr) c hin hcontrol

/-- An ESC in the source, a tab that a run prints and a BEL in a warning; the tab of the source is not
among them. With tabs and line ends in the source and an LF in the output there are none. -/
theorem frame_prints_controls_shown_escape :
    let x : Executor := fun _ _ => ⟨[], .value []⟩
    let opened := Playground.ofSource ['\t', '\x1b'] {} (fun _ => .reports [⟨1, ['\x07'], 2⟩]) x
    let plain := Playground.ofSource ['\t', 'a', '\r', '\n'] {} (fun _ => .reports []) x
    let s : Screen := ⟨80, 24⟩
    (∃ p, opened.steps [.startRun true, .takeRunEvent (.output 1 ['\t', '\n']),
        .react true (.pressed (.char 'a'))] = .ok p ∧
      p.pane.text = ['a', '\t', '\x1b'] ∧ Draw.controls (s.drawEditor p) = ['\x1b'] ∧
      Draw.controls (s.drawOutput p) = ['\t'] ∧ Draw.controls (s.drawStatus p) = ['\x07']) ∧
    ∃ p, plain.steps [.startRun true, .takeRunEvent (.output 1 ['o', '\n'])] = .ok p ∧
      p.output.lines = [['o', '\n']] ∧ Draw.controls (s.frame p) = [] := by
  intro x opened plain s
  have hseen : (fun p : Playground => (p.pane.text, s.shownLines p, s.shownRows p, s.shownDetail p)) <$>
      opened.steps [.startRun true, .takeRunEvent (.output 1 ['\t', '\n']),
        .react true (.pressed (.char 'a'))] =
      .ok (['a', '\t', '\x1b'], [['a', ' ', '\x1b']], [['\t'], []], ['\x07']) := by decide +kernel
  obtain ⟨p, hp, heq⟩ := exists_of_map_eq_ok hseen
  simp only [Prod.mk.injEq] at heq
  obtain ⟨htext, hlines, hrows, hdetail⟩ := heq
  obtain ⟨⟨heditor, -⟩, -, ⟨houtput, -⟩, ⟨hstatus, -⟩, -⟩ := frame_prints_controls_shown _ _ _ _ _ p hp s
  refine ⟨⟨p, hp, htext, ?_, ?_, ?_⟩, ?_⟩
  · rw [heditor, hlines]
    decide
  · rw [houtput, hrows]
    decide
  · rw [hstatus, hdetail]
    decide
  · have hsource : Text.controls ['\t', 'a', '\r', '\n'] = ['\t', '\r', '\n'] := by decide
    have hsteps : plain.steps [.startRun true, .takeRunEvent (.output 1 ['o', '\n'])] = .ok _ := rfl
    obtain ⟨-, -, -, -, hnone⟩ := frame_prints_controls_shown _ _ _ _ _ _ hsteps s
    refine ⟨_, hsteps, rfl, hnone ?_ ?_ fun t rs hrs r hr => ?_⟩
    · rintro c (hc | ⟨hosted, e, he, -⟩) hcontrol
      · have hmem : c ∈ ['\t', '\r', '\n'] := hsource ▸ Text.mem_controls.2 ⟨hc, hcontrol⟩
        simpa [or_comm] using hmem
      · simp at he
    · intro e he
      obtain rfl : e = .output 1 ['o', '\n'] := by simpa using he
      decide
    · cases hrs
      cases hr

/-- A script prints a string with a tab. In the line of the script the tab is a space, and in the output it
goes to the terminal. -/
theorem output_row_prints_tab :
    let limits : Script.Limits := ⟨100, 64⟩
    let opened := Playground.ofSource "p(\"a\tb\")".toList {} (Script.analyzer limits)
      (Script.executor limits 100)
    let e : RunEvent := .output 1 ['a', '\t', 'b']
    let s : Screen := ⟨20, 24⟩
    ∃ p q, opened.steps [.startRun true, .work 0] = .ok p ∧ p.workshop.queue = [e] ∧
      p.steps [.receive, .takeRunEvent e] = .ok q ∧ .print ['a', '\t', 'b'] ∈ s.drawOutput q ∧
      Text.isControl '\t' ∧ s.shownLines q = ["p(\"a b\")".toList] := by
  intro limits opened e s
  have hseen : (do
      let p ← opened.steps [.startRun true, .work 0]
      let q ← p.steps [.receive, .takeRunEvent e]
      pure (p.workshop.queue, decide (Draw.print ['a', '\t', 'b'] ∈ s.drawOutput q), s.shownLines q)) =
      .ok ([e], true, ["p(\"a b\")".toList]) := by decide +kernel
  obtain ⟨p, hp, hrest⟩ := exists_of_bind_eq_ok hseen
  obtain ⟨q, hq, heq⟩ := exists_of_bind_eq_ok hrest
  have hparts := Except.ok.inj heq
  simp only [Prod.mk.injEq, decide_eq_true_eq] at hparts
  obtain ⟨hqueue, hprint, hlines⟩ := hparts
  exact ⟨p, q, hp, hqueue, hq, hprint, rfl, hlines⟩

end Screen

end ScriptPad
