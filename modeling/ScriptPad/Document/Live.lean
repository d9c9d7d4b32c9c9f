import ScriptPad.Diagnostic.Analysis
import ScriptPad.Document.Pane

/-!
A document kept in step with the surface that shows it. Every change the surface reports becomes the
document and is analyzed; the markers on the surface are replaced only by a successful analysis.
-/

namespace ScriptPad

/-- What a document needs of the widget that shows it. -/
class Surface (σ : Type) where
  text : σ → Text
  withLanguage : σ → Language → σ
  withMarkers : σ → List Marker → σ

instance : Surface Pane where
  text := Pane.text
  withLanguage := Pane.withLanguage
  withMarkers := Pane.withMarkers

structure LiveDocument (σ : Type) where
  surface : σ
  language : Language
  /-- The text last reported by the surface. -/
  document : Text := []
  analysis : Analysis

namespace LiveDocument

variable {σ : Type} [Surface σ] {m : Type → Type} [Monad m]

def ofSurface (surface : σ) (analyzer : Analyzer) (language : Language) : LiveDocument σ where
  surface := surface
  language := language
  analysis := { analyzer := analyzer }

def putMarkers (d : LiveDocument σ) (ms : List Marker) : LiveDocument σ :=
  { d with surface := Surface.withMarkers d.surface ms }

/-- Takes a new text from the surface and analyzes it. -/
def changeM (d : LiveDocument σ) (ask : Asking m) (text : Text) : m (LiveDocument σ) := do
  let (markers, analysis) ← d.analysis.refreshM ask text
  let d' := { d with document := text, analysis := analysis }
  pure <| match markers with
    | some ms => d'.putMarkers ms
    | none => d'

def change (d : LiveDocument σ) (text : Text) : LiveDocument σ := (d.changeM .plain text).run

/-- Registers the language with the surface and takes the text it starts with. -/
def mountM (d : LiveDocument σ) (ask : Asking m) : m (LiveDocument σ) :=
  let surface := Surface.withLanguage d.surface d.language
  changeM { d with surface := surface } ask (Surface.text surface)

def mount (d : LiveDocument σ) : LiveDocument σ := (d.mountM .plain).run

theorem change_eq (d : LiveDocument σ) (text : Text) :
    d.change text =
      match (d.analysis.refresh text).1 with
      | some ms =>
        { d with document := text, analysis := (d.analysis.refresh text).2 }.putMarkers ms
      | none => { d with document := text, analysis := (d.analysis.refresh text).2 } := rfl

@[simp] theorem document_putMarkers (d : LiveDocument σ) (ms : List Marker) :
    (d.putMarkers ms).document = d.document := rfl

@[simp] theorem document_change (d : LiveDocument σ) (t : Text) : (d.change t).document = t := by
  rw [change_eq]; split <;> rfl

@[simp] theorem analysis_change (d : LiveDocument σ) (t : Text) :
    (d.change t).analysis = (d.analysis.refresh t).2 := by
  rw [change_eq]; split <;> rfl

theorem change_of_ok {d : LiveDocument σ} (h : d.analysis.applied ≤ d.analysis.issued) {t : Text}
    {ds : List Diagnostic} (hds : d.analysis.attempt t = .ok ds) :
    d.change t = { d with
      document := t
      analysis := (d.analysis.refresh t).2
      surface := Surface.withMarkers d.surface (ds.map Diagnostic.marker) } := by
  simp only [change_eq, Analysis.refresh_of_ok h hds]
  rfl

theorem change_of_error {d : LiveDocument σ} {t : Text} {e : AnalysisError}
    (he : d.analysis.attempt t = .error e) :
    d.change t = { d with document := t, analysis := d.analysis.issue.2 } := by
  simp only [change_eq, Analysis.refresh_of_error he]

end LiveDocument

end ScriptPad
