import ScriptPad.Proofs.Document.Shown

/-!
From the reports of an analyzer to the gutter. A report numbers lines from one and carries a code; the
gutter asks for the marker of a row, counted from zero. Between the two a code becomes a severity and
a line a range of lines, the markers replace those that were shown, and among the markers over a line
an error is looked for first.
-/

namespace ScriptPad

namespace Report

variable {r : Report} {n : Nat}

theorem covers_marker_diagnostic : r.diagnostic.marker.covers n ↔ r.line = n :=
  Marker.covers_marker

theorem severity_marker_diagnostic_eq_error :
    r.diagnostic.marker.severity = .error ↔ r.code = 1 :=
  Severity.ofCode_eq_error_iff

theorem severity_marker_diagnostic_eq_warning :
    r.diagnostic.marker.severity = .warning ↔ r.code ≠ 1 := by
  rw [ne_eq, ← severity_marker_diagnostic_eq_error]
  cases r.diagnostic.marker.severity <;> decide

end Report

namespace Marker

/-- The markers of reports over a line come down to the reports for it. -/
theorem mostSevere?_reports (rs : List Report) (n : Nat) :
    mostSevere? (rs.map fun r => r.diagnostic.marker) n =
      ((rs.find? fun r => r.line = n ∧ r.code = 1).or (rs.find? fun r => r.line = n)).map
        fun r => r.diagnostic.marker := by
  have herror : ((fun m : Marker => m.covers n && m.severity == .error) ∘
      fun r : Report => r.diagnostic.marker) = fun r => decide (r.line = n ∧ r.code = 1) := by
    funext r
    rw [Bool.eq_iff_iff, decide_eq_true_eq, Function.comp_apply, Bool.and_eq_true, beq_iff_eq,
      Report.covers_marker_diagnostic, Report.severity_marker_diagnostic_eq_error]
  have hany : ((fun m : Marker => m.covers n) ∘ fun r : Report => r.diagnostic.marker) =
      fun r => decide (r.line = n) := by
    funext r
    rw [Bool.eq_iff_iff, decide_eq_true_eq, Function.comp_apply, Report.covers_marker_diagnostic]
  rw [mostSevere?_eq, List.find?_map, List.find?_map, herror, hany, Option.map_or]

theorem mostSevere?_eq_none_iff {ms : List Marker} {n : Nat} :
    mostSevere? ms n = none ↔ ∀ m ∈ ms, ¬ m.covers n := by
  rw [mostSevere?_eq, Option.or_eq_none_iff, List.find?_eq_none, List.find?_eq_none]
  refine ⟨And.right, fun h => ⟨fun m hm hboth => h m hm ?_, h⟩⟩
  exact (Bool.and_eq_true_iff.1 hboth).1

theorem countOf_reports (s : Severity) (rs : List Report) :
    countOf s (rs.map fun r => r.diagnostic.marker) =
      rs.countP fun r => r.diagnostic.marker.severity = s := by
  rw [countOf, List.countP_map]
  congr

end Marker

namespace LiveDocument

/-- A successful call leaves its own markers on a pane, whatever was there. -/
theorem markers_call_of_reports {d : LiveDocument Pane}
    (hd : d.analysis.applied ≤ d.analysis.issued) {f : Analyzer} {c : Call} {rs : List Report}
    (hrs : (d.inquiry f c).answer = .reports rs) :
    (d.call f c).surface.markers = rs.map fun r => r.diagnostic.marker := by
  have hms : (d.inquiry f c).markers? = some (rs.map fun r => r.diagnostic.marker) := by
    simp [Inquiry.markers?, hrs]
  rw [view_call Pane.showsMarkers hd, hms]
  rfl

/-- After a successful analysis a row of the gutter has the marker of the first report for its line
with code one, or else of the first report for its line, and none if there is no such report. The
reports are counted by whether their code is one. What came before does not matter. -/
theorem gutter_shows_reports (s : Pane) (l : Language) (f₀ : Analyzer) (h : List (Analyzer × Call))
    (f : Analyzer) (c : Call) {rs : List Report}
    (hrs : (((ofSurface s f₀ l).after h).inquiry f c).answer = .reports rs) :
    let p := (((ofSurface s f₀ l).after h).call f c).surface
    (∀ i, (p.marker? i = none ↔ ∀ r ∈ rs, r.line ≠ i + 1) ∧
      p.marker? i =
        ((rs.find? fun r => r.line = i + 1 ∧ r.code = 1).or (rs.find? fun r => r.line = i + 1)).map
          fun r => r.diagnostic.marker) ∧
    p.errorCount = rs.countP (·.code = 1) ∧ p.warningCount = rs.countP (·.code ≠ 1) := by
  intro p
  have hd : (ofSurface s f₀ l).analysis.applied ≤ (ofSurface s f₀ l).analysis.issued := Nat.le_refl 0
  have hmarkers : p.markers = rs.map fun r => r.diagnostic.marker :=
    markers_call_of_reports (applied_le_issued_after hd h) hrs
  refine ⟨fun i => ⟨?_, ?_⟩, ?_, ?_⟩
  · rw [Pane.marker?, hmarkers, Marker.mostSevere?_eq_none_iff, List.forall_mem_map]
    simp only [Report.covers_marker_diagnostic, ne_eq]
  · rw [Pane.marker?, hmarkers, Marker.mostSevere?_reports]
  · simp only [Pane.errorCount, hmarkers, Marker.countOf_reports,
      Report.severity_marker_diagnostic_eq_error]
  · simp only [Pane.warningCount, hmarkers, Marker.countOf_reports,
      Report.severity_marker_diagnostic_eq_warning]

/-- Over line two stand a warning and two errors after it, over line one two warnings, and two reports
are for no line of the text. The markers before were those of another text, and a crash came between. -/
theorem gutter_shows_reports_mixed :
    let rs : List Report := [⟨2, ['w'], 2⟩, ⟨0, ['z'], 1⟩, ⟨2, ['e'], 1⟩, ⟨9, ['f'], 1⟩,
      ⟨2, ['g'], 1⟩, ⟨1, ['a'], -7⟩, ⟨1, ['b'], 2⟩]
    let warns : Analyzer := fun _ => .reports [⟨3, ['o'], 2⟩]
    let crashes : Analyzer := fun _ => .crash none
    let finds : Analyzer := fun _ => .reports rs
    let d := (ofSurface (Pane.ofText ['a', '\n', 'b'] 4) warns .rhai).after
      [(warns, .mount), (crashes, .change [])]
    let p := (d.call finds (.change ['c', '\n'])).surface
    (d.inquiry finds (.change ['c', '\n'])).answer = .reports rs ∧
      p.marker? 0 = some ⟨1, 1, 1, Marker.lastColumn, ['a'], .warning⟩ ∧
      p.marker? 1 = some ⟨2, 2, 1, Marker.lastColumn, ['e'], .error⟩ ∧
      p.marker? 2 = none ∧ p.errorCount = 4 ∧ p.warningCount = 3 := by
  intro rs warns crashes finds d p
  have hanswer : (d.inquiry finds (.change ['c', '\n'])).answer = .reports rs := rfl
  obtain ⟨hmarker, herrors, hwarnings⟩ := gutter_shows_reports (Pane.ofText ['a', '\n', 'b'] 4) .rhai
    warns [(warns, .mount), (crashes, .change [])] finds (.change ['c', '\n']) hanswer
  exact ⟨hanswer, (hmarker 0).2, (hmarker 1).2, (hmarker 2).1.2 (by decide), herrors, hwarnings⟩

end LiveDocument

end ScriptPad
