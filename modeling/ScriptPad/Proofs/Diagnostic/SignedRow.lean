import ScriptPad.Proofs.Diagnostic.Gutter
import ScriptPad.Proofs.Playground
import ScriptPad.Proofs.Screen.Line
import ScriptPad.Proofs.Text.SourceLine
import ScriptPad.Script.Run

/-!
The row that has the sign of an error. An interpreter says on which line a script cannot be read, the
marker takes over this number, and the gutter has the sign on the row of that number. The line begins on
that row if the lines before it end in LF, and on a later row if one of them ends in another way.
-/

namespace ScriptPad

open Playground (Step)

namespace Playground

variable {f : Analyzer} {p p' : Playground}

/-- After any steps the markers are those of the reports for the text in the pane, if there are any. -/
theorem markers_of_reports {source : Text} {settings : Settings} {x : Executor} {ss : List Step}
    (h : (ofSource source settings f x).steps ss = .ok p) {rs : List Report}
    (hrs : f p.pane.text = .reports rs) : p.pane.markers = rs.map fun r => r.diagnostic.marker := by
  obtain ⟨v, hv, rfl⟩ := Visit.exists_steps (v := .opened source settings f x) h
  have hfollows := ((Visit.orderly_opened source settings f x).steps hv).1.follows
  have htold := (upToDate_unread_change source settings f).foldl v.changes
  rw [← hfollows.told] at hrs
  exact hfollows.markers.trans (htold.markers rs hrs)

/-! ### The sign -/

theorem marker?_of_report {q : Pane} {r : Report} (h : q.markers = [r].map fun r => r.diagnostic.marker)
    (j : Nat) : q.marker? j = if j + 1 = r.line then some r.diagnostic.marker else none := by
  rw [Pane.marker?, h, Marker.mostSevere?_reports]
  by_cases hj : j + 1 = r.line
  · by_cases hcode : r.code = 1
    · simp [hj, hcode]
    · simp [hj, hcode]
  · simp [Ne.symm hj, hj]

/-- The first character on the row of a line. -/
theorem head?_printed_drawEditorRow (s : Screen) {row : Nat}
    (hrow : row + p.pane.scroll < p.pane.text.lineCount) :
    ((s.drawEditorRow p row).flatMap Draw.printed).head? =
      some (((p.pane.marker? (row + p.pane.scroll)).map (·.severity.sign)).getD ' ') := by
  have hline : p.pane.buffer.text.lines[row + p.pane.scroll]? = some _ := List.getElem?_eq_getElem hrow
  rw [Screen.drawEditorRow_of_line hline, List.flatMap_append, List.flatMap_cons, List.flatMap_cons,
    Screen.printed_drawMargin]
  rfl

/-- For every line number of a text, one for each LF and one more, there is a row of that number, and it
begins where the line does exactly if all lines before end in LF. After any steps there is no sign if the
text in the pane can be read. If it cannot, the number of a line of it is reported, that of the last line if
the interpreter names none, and the row of this number has the sign of an error and no other row has one. -/
theorem signs_follow_line_numbers (i : Script.Interpreter) (limits : Script.Limits) (source : Text)
    (settings : Settings) (x : Executor) (ss : List Step) (p : Playground)
    (h : (ofSource source settings (i.analyzer limits) x).steps ss = .ok p) :
    let text := p.pane.text
    ((∀ n, 1 ≤ n → n ≤ text.count '\n' + 1 → ∃ u v, text.SourceLine n u v) ∧
      ∀ n u v, text.SourceLine n u v →
        n - 1 < text.lineCount ∧ (text.lineStart (n - 1) = u.length ↔ u.NewlineEnded)) ∧
    (∀ code, i.read (.forChecks limits) text = .ok code → ∀ j, p.pane.marker? j = none) ∧
    ∀ r, i.read (.forChecks limits) text = .error r →
      (∀ n ∈ r.line?, 1 ≤ n ∧ n ≤ text.count '\n' + 1) →
      ∃ n, n = r.line?.getD (max text.sourceLineCount 1) ∧ 1 ≤ n ∧ n ≤ text.count '\n' + 1 ∧
        (∀ j, p.pane.marker? j =
          if j + 1 = n then some ⟨n, n, 1, Marker.lastColumn, r.reason, .error⟩ else none) ∧
        ∀ (s : Screen) row, row + p.pane.scroll < text.lineCount →
          ((s.drawEditorRow p row).flatMap Draw.printed).head? =
            some (if row + p.pane.scroll + 1 = n then 'E' else ' ') := by
  intro text
  refine ⟨⟨fun n => Text.exists_sourceLine, fun n u v hline => hline.lineStart_eq_iff⟩,
    fun code hread j => ?_, fun r hread hlaw => ?_⟩
  · have hreports : i.analyzer limits text = .reports [] := by
      rw [Script.Interpreter.analyzer, hread]
    have hmarkers := markers_of_reports h hreports
    rw [Pane.marker?, hmarkers, Marker.mostSevere?_reports]
    rfl
  · let n := r.line?.getD (max text.sourceLineCount 1)
    have hbounds : 1 ≤ n ∧ n ≤ text.count '\n' + 1 := by
      cases hline : r.line? with
      | none =>
          simp only [n, hline, Option.getD_none]
          exact ⟨Nat.le_max_right .., text.sourceLineCount_le⟩
      | some m =>
          simp only [n, hline, Option.getD_some]
          exact hlaw m (by rw [hline]; rfl)
    have hreports : i.analyzer limits text = .reports [⟨n, r.reason, Script.parseErrorCode⟩] := by
      rw [Script.Interpreter.analyzer, hread]
    have hmarkers := markers_of_reports h hreports
    have hmarker := marker?_of_report hmarkers
    refine ⟨n, rfl, hbounds.1, hbounds.2, hmarker, fun s row hrow => ?_⟩
    rw [head?_printed_drawEditorRow s hrow, hmarker]
    split
    · rfl
    · rfl

/-- An error typed on a line after one with CRLF is signed where its line begins. -/
theorem signs_follow_line_numbers_crlf :
    let i := Script.interpreter 100
    let text : Text := "let a = 1;\r\n=".toList
    ∃ p r, (ofSource "let a = 1;\r\n".toList {} (i.analyzer ⟨100, 64⟩) (i.executor ⟨100, 64⟩)).steps
        [.react true (.pressed .down), .react true (.pressed (.char '='))] = .ok p ∧
      p.pane.text = text ∧ i.read (.forChecks ⟨100, 64⟩) text = .error r ∧
      (∀ n ∈ r.line?, 1 ≤ n ∧ n ≤ text.count '\n' + 1) ∧
      p.pane.marker? 1 = some ⟨2, 2, 1, Marker.lastColumn, "Unexpected '='".toList, .error⟩ ∧
      text.lineStart 1 = "let a = 1;\r\n".toList.length := by
  intro i text
  have hsteps : (fun p : Playground => p.pane.text) <$>
      (ofSource "let a = 1;\r\n".toList {} (i.analyzer ⟨100, 64⟩) (i.executor ⟨100, 64⟩)).steps
        [.react true (.pressed .down), .react true (.pressed (.char '='))] = .ok text := by
    decide +kernel
  obtain ⟨p, hp, htext⟩ := exists_of_map_eq_ok hsteps
  have hread : (match i.read (.forChecks ⟨100, 64⟩) text with
      | .ok _ => none
      | .error r => some r) = some ⟨some 2, "Unexpected '='".toList,
        "Unexpected '=' (line 2, position 1)".toList⟩ := by decide +kernel
  obtain ⟨r, hr⟩ : ∃ r, i.read (.forChecks ⟨100, 64⟩) text = .error r := by
    cases hread' : i.read (.forChecks ⟨100, 64⟩) text with
    | ok code =>
        rw [hread'] at hread
        cases hread
    | error r => exact ⟨r, rfl⟩
  rw [hr] at hread
  obtain rfl := Option.some.inj hread
  obtain ⟨⟨-, hrow⟩, -, hsign⟩ := signs_follow_line_numbers i _ _ _ _ _ p hp
  rw [htext] at hrow hsign
  have hlaw : ∀ n ∈ some 2, 1 ≤ n ∧ n ≤ text.count '\n' + 1 := by decide
  obtain ⟨n, rfl, -, -, hmarker, -⟩ := hsign _ hr hlaw
  have hline : text.SourceLine 2 "let a = 1;\r\n".toList ['='] :=
    ⟨rfl, fun c hc => (Option.some.inj hc).symm, by decide⟩
  exact ⟨p, _, hp, htext, hr, hlaw, hmarker 1, (hrow 2 _ _ hline).2.2 (by decide)⟩

/-- A form feed in a comment puts the sign one row above the line that cannot be read. -/
theorem sign_misses_line :
    let i := Script.interpreter 100
    let text : Text := "// \x0c\nlet = 3;".toList
    let p := ofSource text {} (i.analyzer ⟨100, 64⟩) (i.executor ⟨100, 64⟩)
    text.SourceLine 2 "// \x0c\n".toList "let = 3;".toList ∧
      text.lineStart (2 - 1) ≠ "// \x0c\n".toList.length ∧
      p.pane.marker? (2 - 1) =
        some ⟨2, 2, 1, Marker.lastColumn, "Expecting name of a variable".toList, .error⟩ ∧
      text.lineStart 2 = "// \x0c\n".toList.length ∧ p.pane.marker? 2 = none := by
  intro i text p
  have hmarkers : p.pane.markers =
      [⟨2, 2, 1, Marker.lastColumn, "Expecting name of a variable".toList, .error⟩] := by decide +kernel
  refine ⟨⟨rfl, fun c hc => (Option.some.inj hc).symm, by decide⟩, by decide, ?_, by decide, ?_⟩
  · rw [Pane.marker?, hmarkers]
    rfl
  · rw [Pane.marker?, hmarkers]
    rfl

end Playground

end ScriptPad
