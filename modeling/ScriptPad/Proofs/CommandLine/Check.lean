import ScriptPad.CommandLine.Program
import ScriptPad.Proofs.Diagnostic.ReadBack
import ScriptPad.Proofs.Diagnostic.SignedRow

/-!
A check of a source and a pane that shows the source. The command asks the analyzer once and prints what it
finds; a failure counts as nothing found. The editor asks after every change under a new ticket, and a
failure leaves the markers of an earlier text. Where the analyzer succeeds the two come to the same, for the
ticket of a change is newer than all that were applied before, whatever came of those. That the printed list
is the list of the pane is also said without the printer, by what a reader finds in it (`Marker.read?`).

An analyzer may answer otherwise from step to step, so a run may have any successes and failures behind it.
-/

namespace ScriptPad

namespace Command

variable {f : Analyzer} {source : Text} {rs : List Report}

theorem any_error_iff (ms : List Marker) :
    ms.any (·.severity == .error) ↔ 0 < Marker.countOf .error ms := by
  rw [Marker.countOf, List.countP_pos_iff, List.any_eq_true]

theorem check_of_reports (h : f source = .reports rs) :
    let ms := rs.map fun r => r.diagnostic.marker
    check f source =
      { code := if 0 < Marker.countOf .error ms then 1 else 0, stdout := line (Marker.jsonList ms) } := by
  intro ms
  have hattempt := Analysis.attempt_of_reports (a := { analyzer := f }) h
  have hmarkers : (Analysis.analyze { analyzer := f } source).map Diagnostic.marker = ms := by
    rw [Analysis.analyze, hattempt]
    exact List.map_map
  simp only [check, hmarkers, any_error_iff]

theorem check_of_failure (h : ∀ rs, f source ≠ .reports rs) :
    check f source = { code := 0, stdout := line "[]".toList } := by
  obtain ⟨e, he⟩ := Analysis.exists_attempt_eq_error (a := { analyzer := f }) h
  have hnone : Analysis.analyze { analyzer := f } source = [] := by rw [Analysis.analyze, he]
  rw [check, hnone]
  rfl

/-- What a check of a source and a pane that has been told of it have in common, where the pane had the
markers `before`. -/
structure Agrees (f : Analyzer) (source : Text) (before : List Marker) (pane : Pane) : Prop where
  of_reports : ∀ rs, f source = .reports rs →
    pane.markers = rs.map (fun r => r.diagnostic.marker) ∧
    check f source =
      { code := if 0 < pane.errorCount then 1 else 0, stdout := line (Marker.jsonList pane.markers) } ∧
    Marker.read? (check f source).stdout = some pane.markers
  of_failure : (∀ rs, f source ≠ .reports rs) →
    pane.markers = before ∧ check f source = { code := 0, stdout := line "[]".toList }

/-- A pane with the markers of a document that has been told of a source. -/
theorem agrees_change {d : LiveDocument Pane} (hd : d.analysis.applied ≤ d.analysis.issued) {t : Text}
    {pane : Pane} (hpane : pane.markers = (d.change t).surface.markers) :
    Agrees d.analysis.analyzer t d.surface.markers pane where
  of_reports rs hrs := by
    have hmarkers := hpane.trans (LiveDocument.markers_change_of_reports hd hrs)
    rw [Pane.errorCount, hmarkers, check_of_reports hrs]
    exact ⟨rfl, rfl, Marker.read?_jsonList _⟩
  of_failure hfail := by
    obtain ⟨e, he⟩ := Analysis.exists_attempt_eq_error hfail
    refine ⟨hpane.trans ?_, check_of_failure hfail⟩
    rw [LiveDocument.change_of_error he]

end Command

namespace Playground

/-- The playground with its analyzer as it has become. -/
def through (p : Playground) (f : Analyzer) : Playground :=
  { p with editor.analysis := p.editor.analysis.through f }

/-- Takes steps, each with the analyzer as it is at the time, as long as none fails. -/
def stepsThrough (p : Playground) : List (Analyzer × Step) → Except OutOfRange Playground
  | [] => .ok p
  | (f, s) :: ss => do
    let p ← (p.through f).step s
    p.stepsThrough ss

variable {p p' : Playground} {d : LiveDocument Pane} {f : Analyzer}

theorem Follows.through (h : p.Follows d) (f : Analyzer) :
    (p.through f).Follows { d with analysis := d.analysis.through f } :=
  ⟨h.anchored, h.document, h.told, congrArg (·.through f) h.analysis, h.markers⟩

/-- What is followed has applied no answer whose ticket is yet to come. So what has come of earlier
tickets does not matter for the next change: none of them is as new. -/
theorem Follows.stepsThrough {ss : List (Analyzer × Step)} (h : p.Follows d)
    (hd : d.analysis.applied ≤ d.analysis.issued) (hs : p.stepsThrough ss = .ok p') :
    ∃ d', p'.Follows d' ∧ d'.analysis.applied ≤ d'.analysis.issued := by
  induction ss generalizing p d with
  | nil =>
      obtain rfl := Except.ok.inj hs
      exact ⟨d, h, hd⟩
  | cons c ss ih =>
      obtain ⟨p₁, hp₁, hrest⟩ := exists_of_bind_eq_ok hs
      have hstep := (h.through c.1).step hp₁
      unfold newTexts at hstep
      split at hstep
      · exact ih hstep hd hrest
      · refine ih hstep ?_ hrest
        rw [List.foldl_cons, List.foldl_nil, LiveDocument.analysis_change]
        exact Analysis.applied_le_issued_refresh (a := d.analysis.through c.1) hd _

/-- A step leaves the document and the markers, or it is an edit on which check and pane agree. -/
theorem Follows.agrees_step (h : p.Follows d) (hd : d.analysis.applied ≤ d.analysis.issued) {s : Step}
    (hs : (p.through f).step s = .ok p') :
    if p'.editor.document = p.editor.document then p'.pane.markers = p.pane.markers
    else Command.Agrees f p'.editor.document p.pane.markers p'.pane := by
  have hstep := (h.through f).step hs
  have hpane : (p.through f).pane = p.pane := rfl
  rw [hstep.document, h.document]
  rw [newTexts, hpane] at hstep
  split
  · next htext =>
    rw [if_pos htext] at hstep
    exact hstep.markers.trans h.markers.symm
  · next htext =>
    rw [if_neg htext] at hstep
    rw [h.markers]
    exact Command.agrees_change (d := { d with analysis := d.analysis.through f }) hd hstep.markers

/-- A pane is told of a source when it is opened on it and when it is edited into it. If the analyzer
succeeds on the source, a check of it prints the markers that the pane then has, in order, so that they are
read back from what it prints, and ends with a failure if one of them is an error. If the analyzer fails or crashes, a check prints an empty list and ends well, and
the pane has the markers that it had before. Between one edit and the next the markers stay. It does not
matter for this what steps have gone before, and what the analyzer made of the texts then. -/
theorem check_agrees_with_pane (source : Text) (settings : Settings) (f₀ : Analyzer) (x : Executor)
    (ss : List (Analyzer × Step)) (p : Playground)
    (h : (ofSource source settings f₀ x).stepsThrough ss = .ok p) :
    (ofSource source settings f₀ x).editor.document = source ∧
    Command.Agrees f₀ source [] (ofSource source settings f₀ x).pane ∧
    ∀ f s p', (p.through f).step s = .ok p' →
      if p'.editor.document = p.editor.document then p'.pane.markers = p.pane.markers
      else Command.Agrees f p'.editor.document p.pane.markers p'.pane := by
  have hopened := follows_ofSource source settings f₀ x
  have hmounted := upToDate_unread_change source settings f₀
  obtain ⟨d, hd, horder⟩ := hopened.stepsThrough hmounted.inOrder h
  refine ⟨LiveDocument.document_change _ _, ?_, fun f s p' hs => hd.agrees_step horder hs⟩
  exact Command.agrees_change (d := unread source settings f₀) (Nat.le_refl 0) hopened.markers

/-- A text on which the analyzer crashes comes between two on which it finds an error. -/
theorem check_agrees_with_pane_crash :
    let finds : Analyzer := fun t => .reports [⟨1, t, 1⟩]
    let crashes : Analyzer := fun _ => .crash none
    let opened := ofSource ['a'] {} finds fun _ _ => ⟨[], .value []⟩
    let typed (c : Char) : Step := .react true (.pressed (.char c))
    ∃ p p', opened.stepsThrough [(crashes, typed 'b')] = .ok p ∧
      (p.through finds).step (typed 'c') = .ok p' ∧
      p.editor.document = ['b', 'a'] ∧ p.pane.markers = opened.pane.markers ∧
      Command.check crashes ['b', 'a'] = { code := 0, stdout := "[]\n".toList } ∧
      p'.pane.markers = [⟨1, 1, 1, Marker.lastColumn, ['b', 'c', 'a'], .error⟩] ∧
      Command.check finds ['b', 'c', 'a'] =
        { code := 1, stdout := Command.line (Marker.jsonList p'.pane.markers) } ∧
      Marker.read? (Command.check finds ['b', 'c', 'a']).stdout = some p'.pane.markers := by
  intro finds crashes opened typed
  have hseen : (do
      let p ← (opened.through crashes).step (typed 'b')
      let p' ← (p.through finds).step (typed 'c')
      pure (p.editor.document, p'.editor.document)) = .ok (['b', 'a'], ['b', 'c', 'a']) := by
    decide +kernel
  obtain ⟨p, hp, hrest⟩ := exists_of_bind_eq_ok hseen
  obtain ⟨p', hp', heq⟩ := exists_of_bind_eq_ok hrest
  obtain ⟨hfirst, hsecond⟩ := Prod.mk.inj (Except.ok.inj heq)
  have hsteps : opened.stepsThrough [(crashes, typed 'b')] = .ok p := by
    rw [stepsThrough, hp]
    rfl
  have hcrash := (check_agrees_with_pane ['a'] {} finds _ [] opened rfl).2.2 crashes _ p hp
  rw [hfirst, if_neg (by decide)] at hcrash
  obtain ⟨hkept, hempty⟩ := hcrash.of_failure fun rs h => AnalysisAnswer.noConfusion h
  have hfound := (check_agrees_with_pane ['a'] {} finds _ _ p hsteps).2.2 finds _ p' hp'
  rw [hfirst, hsecond, if_neg (by decide)] at hfound
  obtain ⟨hmarkers, hcheck, hread⟩ := hfound.of_reports _ rfl
  have hcount : 0 < p'.pane.errorCount := by
    rw [Pane.errorCount, hmarkers]
    decide
  rw [if_pos hcount] at hcheck
  exact ⟨p, p', hsteps, hp', hfirst, hkept, hempty, hmarkers, hcheck, hread⟩

end Playground

end ScriptPad
