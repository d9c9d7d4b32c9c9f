import Mathlib.Data.List.Induction
import ScriptPad.Document.Live

/-!
Which markers a surface shows. A history is a list of calls on a live document, mounts and changes in
any order, each with the analyzer as it is at the time; it may fail or crash on one text and not on
the next, or on the same text later. Beside the document stand the inquiries, what the analyzer was
asked and what it answered, and every success puts its markers on the surface.

Nothing is known of the surface but that it can be called, so its calls are counted by watching it:
a watched surface behaves as the one inside it and writes down its orders.
-/

namespace ScriptPad

/-- What an analyzer was asked and what it answered. -/
structure Inquiry where
  text : Text
  answer : AnalysisAnswer
  deriving DecidableEq, Repr

/-- The findings of a success, in order, as the surface is to show them. -/
def Inquiry.markers? (q : Inquiry) : Option (List Marker) :=
  match q.answer with
  | .reports rs => some (rs.map fun r => r.diagnostic.marker)
  | .unavailable _ | .crash _ => none

theorem Inquiry.diagnostics_of_some {q : Inquiry} {ms : List Marker} (h : q.markers? = some ms) :
    ∃ ds, q.answer.diagnostics = .ok ds ∧ ds.map Diagnostic.marker = ms := by
  cases ha : q.answer with
  | reports rs =>
      refine ⟨_, rfl, ?_⟩
      simpa [Inquiry.markers?, ha, Function.comp_def] using h
  | unavailable reason => simp [Inquiry.markers?, ha] at h
  | crash message => simp [Inquiry.markers?, ha] at h

theorem Inquiry.diagnostics_of_none {q : Inquiry} (h : q.markers? = none) :
    ∃ e, q.answer.diagnostics = .error e := by
  cases ha : q.answer with
  | reports rs => simp [Inquiry.markers?, ha] at h
  | unavailable reason => exact ⟨_, rfl⟩
  | crash message => exact ⟨_, rfl⟩

namespace Surface

variable {σ : Type} [Surface σ]

/-- The markers can be read off the surface. -/
structure ShowsMarkers (view : σ → List Marker) : Prop where
  withMarkers : ∀ s ms, view (withMarkers s ms) = ms
  withLanguage : ∀ s l, view (withLanguage s l) = view s

/-- What a surface is told to do. -/
inductive Order
  | language (l : Language)
  | markers (ms : List Marker)

def Order.markers? : Order → Option (List Marker)
  | .language _ => none
  | .markers ms => some ms

/-- A surface and the orders that it has been given. -/
structure Watched (σ : Type) where
  inner : σ
  orders : List Order := []

instance : Surface (Watched σ) where
  text w := text w.inner
  withLanguage w l := ⟨withLanguage w.inner l, w.orders ++ [.language l]⟩
  withMarkers w ms := ⟨withMarkers w.inner ms, w.orders ++ [.markers ms]⟩

end Surface

theorem Pane.showsMarkers : Surface.ShowsMarkers Pane.markers := ⟨fun _ _ => rfl, fun _ _ => rfl⟩

open Surface (ShowsMarkers Order Watched)

namespace LiveDocument

variable {σ : Type} [Surface σ]

/-- What is asked of a document. -/
inductive Call
  | mount
  | change (text : Text)

/-- A mount registers the language before it analyzes. -/
def prepared (d : LiveDocument σ) : Call → LiveDocument σ
  | .mount => { d with surface := Surface.withLanguage d.surface d.language }
  | .change _ => d

/-- The text that a call reports. -/
def told (d : LiveDocument σ) : Call → Text
  | .mount => Surface.text (d.prepared .mount).surface
  | .change t => t

/-- What the analyzer `f` is asked in a call and what it answers. -/
def inquiry (d : LiveDocument σ) (f : Analyzer) (c : Call) : Inquiry := ⟨d.told c, f (d.told c)⟩

def call (d : LiveDocument σ) (f : Analyzer) : Call → LiveDocument σ
  | .mount => mount { d with analysis := d.analysis.through f }
  | .change t => change { d with analysis := d.analysis.through f } t

def after (d : LiveDocument σ) (h : List (Analyzer × Call)) : LiveDocument σ :=
  h.foldl (fun d c => d.call c.1 c.2) d

/-- The inquiries of a history, in order. -/
def inquiries (d : LiveDocument σ) : List (Analyzer × Call) → List Inquiry
  | [] => []
  | c :: h => d.inquiry c.1 c.2 :: (d.call c.1 c.2).inquiries h

/-- The same document on a surface that is watched, with the orders given to it until now. -/
def watched (d : LiveDocument σ) (orders : List Order) : LiveDocument (Watched σ) where
  surface := ⟨d.surface, orders⟩
  language := d.language
  document := d.document
  analysis := d.analysis

@[simp] theorem after_append (d : LiveDocument σ) (h : List (Analyzer × Call)) (f : Analyzer)
    (c : Call) : d.after (h ++ [(f, c)]) = (d.after h).call f c := by
  simp [after]

theorem inquiries_append (d : LiveDocument σ) (h : List (Analyzer × Call)) (f : Analyzer)
    (c : Call) : d.inquiries (h ++ [(f, c)]) = d.inquiries h ++ [(d.after h).inquiry f c] := by
  induction h generalizing d with
  | nil => rfl
  | cons e h ih =>
      rw [List.cons_append, inquiries, ih]
      rfl

/-! ### One call -/

variable {d : LiveDocument σ} {f : Analyzer} {c : Call} {ms : List Marker}

theorem call_eq (d : LiveDocument σ) (f : Analyzer) (c : Call) :
    d.call f c =
      change { d.prepared c with analysis := d.analysis.through f } (d.inquiry f c).text := by
  cases c <;> rfl

@[simp] theorem document_call (d : LiveDocument σ) (f : Analyzer) (c : Call) :
    (d.call f c).document = (d.inquiry f c).text := by
  rw [call_eq, document_change]

theorem call_of_success (hd : d.analysis.applied ≤ d.analysis.issued)
    (h : (d.inquiry f c).markers? = some ms) :
    d.call f c = { d.prepared c with
      document := (d.inquiry f c).text
      analysis := ((d.analysis.through f).refresh (d.inquiry f c).text).2
      surface := Surface.withMarkers (d.prepared c).surface ms } := by
  obtain ⟨ds, hds, rfl⟩ := Inquiry.diagnostics_of_some h
  rw [call_eq]
  exact change_of_ok (d := { d.prepared c with analysis := d.analysis.through f }) hd hds

theorem call_of_failure (h : (d.inquiry f c).markers? = none) :
    d.call f c = { d.prepared c with
      document := (d.inquiry f c).text
      analysis := (d.analysis.through f).issue.2 } := by
  obtain ⟨e, he⟩ := Inquiry.diagnostics_of_none h
  rw [call_eq]
  exact change_of_error (d := { d.prepared c with analysis := d.analysis.through f }) he

theorem applied_le_issued_call (hd : d.analysis.applied ≤ d.analysis.issued) (f : Analyzer)
    (c : Call) : (d.call f c).analysis.applied ≤ (d.call f c).analysis.issued := by
  rw [call_eq, analysis_change]
  exact Analysis.applied_le_issued_refresh (a := d.analysis.through f) hd _

theorem view_prepared {view : σ → List Marker} (hview : ShowsMarkers view) (d : LiveDocument σ)
    (c : Call) : view (d.prepared c).surface = view d.surface := by
  cases c with
  | mount => exact hview.withLanguage _ _
  | change t => rfl

theorem view_call {view : σ → List Marker} (hview : ShowsMarkers view)
    (hd : d.analysis.applied ≤ d.analysis.issued) (f : Analyzer) (c : Call) :
    view (d.call f c).surface = (d.inquiry f c).markers?.getD (view d.surface) := by
  cases hms : (d.inquiry f c).markers? with
  | none =>
      rw [call_of_failure hms]
      exact view_prepared hview d c
  | some ms =>
      rw [call_of_success hd hms]
      exact hview.withMarkers _ ms

theorem inquiry_watched (d : LiveDocument σ) (log : List Order) (f : Analyzer) (c : Call) :
    (d.watched log).inquiry f c = d.inquiry f c := by
  cases c <;> rfl

/-- The orders of a mount before it analyzes. -/
def registration (d : LiveDocument σ) : Call → List Order
  | .mount => [.language d.language]
  | .change _ => []

theorem prepared_watched (d : LiveDocument σ) (log : List Order) (c : Call) :
    (d.watched log).prepared c = (d.prepared c).watched (log ++ d.registration c) := by
  cases c with
  | mount => rfl
  | change t => simp [prepared, registration]

/-- A watched surface gets one order for the markers of a success and none for a failure. -/
theorem call_watched (hd : d.analysis.applied ≤ d.analysis.issued) (f : Analyzer) (c : Call)
    (log : List Order) :
    (d.watched log).call f c = (d.call f c).watched
      (log ++ (d.registration c ++ (d.inquiry f c).markers?.toList.map Order.markers)) := by
  have hq : (d.watched log).inquiry f c = d.inquiry f c := inquiry_watched d log f c
  cases hms : (d.inquiry f c).markers? with
  | none =>
      rw [call_of_failure hms, call_of_failure (hq ▸ hms), hq, prepared_watched]
      simp [watched]
  | some ms =>
      rw [call_of_success hd hms, call_of_success (d := d.watched log) hd (hq ▸ hms), hq,
        prepared_watched]
      simp [watched, Surface.withMarkers]

/-! ### A history -/

theorem applied_le_issued_after (hd : d.analysis.applied ≤ d.analysis.issued)
    (h : List (Analyzer × Call)) :
    (d.after h).analysis.applied ≤ (d.after h).analysis.issued := by
  induction h using List.reverseRecOn with
  | nil => exact hd
  | append_singleton h e ih =>
      rw [after_append]
      exact applied_le_issued_call ih e.1 e.2

theorem document_after (d : LiveDocument σ) (h : List (Analyzer × Call)) :
    (d.after h).document = ((d.inquiries h).getLast?.map (·.text)).getD d.document := by
  induction h using List.reverseRecOn with
  | nil => rfl
  | append_singleton h e ih =>
      rw [after_append, inquiries_append, document_call, List.getLast?_concat]
      rfl

theorem view_after {view : σ → List Marker} (hview : ShowsMarkers view)
    (hd : d.analysis.applied ≤ d.analysis.issued) (h : List (Analyzer × Call)) :
    view (d.after h).surface =
      ((d.inquiries h).filterMap Inquiry.markers?).getLast?.getD (view d.surface) := by
  induction h using List.reverseRecOn with
  | nil => rfl
  | append_singleton h e ih =>
      rw [after_append, view_call hview (applied_le_issued_after hd h), inquiries_append,
        List.filterMap_append, ih]
      cases hms : ((d.after h).inquiry e.1 e.2).markers? with
      | none => simp [hms]
      | some ms => simp [hms]

theorem after_watched (hd : d.analysis.applied ≤ d.analysis.issued) (h : List (Analyzer × Call)) :
    ∃ orders, (d.watched []).after h = (d.after h).watched orders ∧
      orders.filterMap Order.markers? = (d.inquiries h).filterMap Inquiry.markers? := by
  induction h using List.reverseRecOn with
  | nil => exact ⟨[], rfl, rfl⟩
  | append_singleton h e ih =>
      obtain ⟨orders, hafter, horders⟩ := ih
      have hcall := call_watched (applied_le_issued_after hd h) e.1 e.2 orders
      rw [← hafter, ← after_append, ← after_append] at hcall
      refine ⟨_, hcall, ?_⟩
      have hregistration : ((d.after h).registration e.2).filterMap Order.markers? = [] := by
        cases e.2 <;> rfl
      rw [List.filterMap_append, List.filterMap_append, hregistration, horders, inquiries_append,
        List.filterMap_append]
      cases hms : ((d.after h).inquiry e.1 e.2).markers? with
      | none => simp [hms]
      | some ms => simp [hms, Order.markers?]

/-- After any calls the document is the text last reported, and whatever surface it is on shows the
markers of the last success, or those it had. The surface is given the markers of every success once,
in order, and no others. A failure changes the document only, beside the ticket that it takes. -/
theorem last_success_is_shown (s : σ) (l : Language) (f₀ : Analyzer) (h : List (Analyzer × Call)) :
    let d := (ofSurface s f₀ l).after h
    let watched := (ofSurface (⟨s, []⟩ : Watched σ) f₀ l).after h
    let inquiries := (ofSurface s f₀ l).inquiries h
    d.document = (inquiries.getLast?.map (·.text)).getD [] ∧
    (∀ view : σ → List Marker, ShowsMarkers view →
      view d.surface = (inquiries.filterMap Inquiry.markers?).getLast?.getD (view s)) ∧
    (watched.surface.inner = d.surface ∧
      watched.surface.orders.filterMap Order.markers? = inquiries.filterMap Inquiry.markers?) ∧
    ∀ f c, (d.inquiry f c).markers? = none →
      d.call f c = { d.prepared c with
        document := (d.inquiry f c).text
        analysis := (d.analysis.through f).issue.2 } := by
  intro d watched inquiries
  have hd : (ofSurface s f₀ l).analysis.applied ≤ (ofSurface s f₀ l).analysis.issued := Nat.le_refl 0
  obtain ⟨orders, hafter, horders⟩ := after_watched hd h
  refine ⟨document_after _ h, fun view hview => view_after hview hd h, ⟨?_, ?_⟩, fun f c hms => ?_⟩
  · exact congrArg (·.surface.inner) hafter
  · rw [show watched.surface.orders = orders from congrArg (·.surface.orders) hafter, horders]
  · exact call_of_failure hms

/-- A pane keeps its markers when the analyzer crashes on the next text. -/
theorem last_success_is_shown_crash :
    let finds : Analyzer := fun _ => .reports [⟨1, [], 1⟩]
    let crashes : Analyzer := fun _ => .crash none
    let d := (ofSurface (Pane.ofText ['a'] 4) finds .rhai).after
      [(finds, .mount), (crashes, .change [])]
    ShowsMarkers Pane.markers ∧ d.document = [] ∧
      d.surface.markers = [⟨1, 1, 1, Marker.lastColumn, [], .error⟩] := by
  intro finds crashes d
  have hshown := last_success_is_shown (Pane.ofText ['a'] 4) .rhai finds
    [(finds, .mount), (crashes, .change [])]
  exact ⟨Pane.showsMarkers, hshown.1, hshown.2.1 Pane.markers Pane.showsMarkers⟩

end LiveDocument

end ScriptPad
