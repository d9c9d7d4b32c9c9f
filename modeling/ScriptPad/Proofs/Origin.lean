import ScriptPad.Proofs.Playground

/-!
Where what a playground shows comes from. The text has the characters of the source and those typed, and
besides only the LFs and spaces of Enter and Tab. The output has lines that events of runs brought, the
markers are those of reports, and a message says that a run was refused.
-/

namespace ScriptPad

open Playground (Step)

/-- The line that an event leaves in the output of its run. -/
def RunEvent.line : RunEvent → Text
  | .output _ line => line
  | .finished _ outcome => outcome.line

theorem Console.lines_apply (c : Console) (e : RunEvent) :
    (c.apply e).2.output.lines = c.output.lines ∨
      (c.apply e).2.output.lines = c.output.lines ++ [e.line] := by
  by_cases hactive : c.active = some e.run
  · refine .inr ?_
    cases e with
    | output run line =>
        rw [apply_output (r := run) hactive]
        exact Output.lines_push ..
    | finished run outcome =>
        rw [apply_finished (r := run) hactive]
        exact Output.lines_push ..
  · exact .inl (by rw [apply_of_ne hactive])

theorem Console.output_of_start {c c' : Console} {hosted : Bool} {run : RunId}
    (h : c.start hosted = .ok (run, c')) : c'.output.lines = [] := by
  cases hstate : c.state with
  | running =>
      rw [start_of_running hstate] at h
      cases h
  | idle =>
      cases hosted with
      | false =>
          rw [start_unhosted hstate] at h
          cases h
      | true =>
          rw [start_hosted hstate] at h
          obtain ⟨-, rfl⟩ := Prod.mk.inj (Except.ok.inj h)
          exact Output.lines_clear c.output

namespace Analysis

variable {a : Analysis} {ms : List Marker}

theorem eq_of_complete {ticket : Ticket} {ds : List Diagnostic}
    (h : (a.complete ticket (.ok ds)).1 = some ms) : ms = ds.map Diagnostic.marker := by
  unfold complete at h
  dsimp only at h
  split at h
  · cases h
  · exact (Option.some.inj h).symm

/-- Markers that are to be shown are those of reports. -/
theorem exists_reports_of_refresh {t : Text} (h : (a.refresh t).1 = some ms) :
    ∃ rs, a.analyzer t = .reports rs ∧ ms = rs.map fun r => r.diagnostic.marker := by
  by_cases hanswer : ∃ rs, a.analyzer t = .reports rs
  · obtain ⟨rs, hrs⟩ := hanswer
    rw [refresh_eq, attempt_of_reports hrs] at h
    exact ⟨rs, hrs, (eq_of_complete h).trans List.map_map⟩
  · obtain ⟨e, he⟩ := exists_attempt_eq_error (not_exists.1 hanswer)
    rw [refresh_of_error he] at h
    cases h

end Analysis

/-! ### The text -/

theorem Text.Spliced.mem {t t' old new : Text} {i : Nat} {c : Char} (h : Spliced t t' i old new)
    (hc : c ∈ t') : c ∈ t ∨ c ∈ new := by
  obtain ⟨pre, post, rfl, rfl, -⟩ := h
  simp only [List.mem_append] at hc ⊢
  tauto

namespace Buffer

variable {b b' : Buffer} {line col : Nat} {changed : Bool} {c : Char}

theorem mem_of_deleteForward (h : b.deleteForward line col = .ok (changed, b')) (hc : c ∈ b'.text) :
    c ∈ b.text := by
  rcases spliced_of_deleteForward h with ⟨-, rfl⟩ | ⟨-, -, d, hsplice⟩
  · exact hc
  · exact (hsplice.mem hc).resolve_right List.not_mem_nil

theorem mem_of_deleteBackward (h : b.deleteBackward line col = .ok (changed, b')) (hc : c ∈ b'.text) :
    c ∈ b.text := by
  obtain ⟨-, ⟨rfl, -⟩ | ⟨i, d, -, hsplice⟩⟩ := spliced_of_deleteBackward h
  · exact hc
  · exact (hsplice.mem hc).resolve_right List.not_mem_nil

end Buffer

namespace Pane

variable {p q : Pane} {a : Action} {c : Char} {edited : Bool}

theorem SameBeside.language_eq (h : p.SameBeside q) : q.language = p.language := by
  unfold SameBeside at h
  rw [h]

theorem language_scrollToCursor (p : Pane) (height : Nat) :
    (p.scrollToCursor height).language = p.language := by
  unfold scrollToCursor
  dsimp only
  split <;> rfl

theorem Change.text_eq (h : Change p a q) (ha : a ≠ .edited) : q.text = p.text := by
  cases h with
  | none hrest hne htext => exact htext
  | onLine | breaks | joins => exact absurd rfl ha

theorem mem_text_of_insertInLine {s : Text} (h : p.insertInLine s = .ok (edited, q))
    (hc : c ∈ q.text) : c ∈ p.text ∨ c ∈ s := by
  obtain ⟨b, hb, hq⟩ := exists_of_bind_eq_ok h
  obtain ⟨-, rfl⟩ := Prod.mk.inj (Except.ok.inj hq)
  exact (Buffer.spliced_of_insert hb).2.mem hc

theorem mem_text_of_breakLine (h : p.breakLine = .ok (edited, q)) (hc : c ∈ q.text) :
    c ∈ p.text ∨ c = '\n' := by
  obtain ⟨b, hb, hq⟩ := exists_of_bind_eq_ok h
  obtain ⟨-, rfl⟩ := Prod.mk.inj (Except.ok.inj hq)
  exact ((Buffer.spliced_of_insert hb).2.mem hc).imp_right List.mem_singleton.1

theorem mem_text_of_deleteForward (h : p.deleteForward = .ok (edited, q)) (hc : c ∈ q.text) :
    c ∈ p.text := by
  obtain ⟨⟨changed, b⟩, hb, hq⟩ := exists_of_bind_eq_ok h
  obtain ⟨-, rfl⟩ := Prod.mk.inj (Except.ok.inj hq)
  exact Buffer.mem_of_deleteForward hb hc

theorem mem_text_of_deleteBackward (h : p.deleteBackward = .ok (edited, q)) (hc : c ∈ q.text) :
    c ∈ p.text := by
  rw [deleteBackward] at h
  split at h
  · obtain ⟨⟨changed, b⟩, hb, hq⟩ := exists_of_bind_eq_ok h
    obtain ⟨-, rfl⟩ := Prod.mk.inj (Except.ok.inj hq)
    exact Buffer.mem_of_deleteBackward hb hc
  · split at h
    · obtain ⟨n, -, hdelete⟩ := exists_of_bind_eq_ok h
      obtain ⟨⟨changed, b⟩, hb, hq⟩ := exists_of_bind_eq_ok hdelete
      obtain ⟨-, rfl⟩ := Prod.mk.inj (Except.ok.inj hq)
      exact Buffer.mem_of_deleteBackward hb hc
    · obtain ⟨-, rfl⟩ := Prod.mk.inj (Except.ok.inj h)
      exact hc

theorem exists_of_edit {r : Except OutOfRange (Bool × Pane)} (h : editAction <$> r = .ok (a, q)) :
    ∃ edited, r = .ok (edited, q) := by
  obtain ⟨⟨edited, q₁⟩, hq₁, heq⟩ := exists_of_map_eq_ok h
  obtain ⟨-, rfl⟩ := Prod.mk.inj heq
  exact ⟨edited, hq₁⟩

theorem ne_edited_of_redraw {r : Except OutOfRange Pane} (h : (Action.redraw, ·) <$> r = .ok (a, q)) :
    a ≠ .edited := by
  obtain ⟨q₁, -, heq⟩ := exists_of_map_eq_ok h
  obtain ⟨rfl, -⟩ := Prod.mk.inj heq
  decide

/-- A character of the text was there before the key, or the key has put it there. -/
theorem mem_text_of_press {k : Key} (h : p.press k = .ok (a, q)) (hc : c ∈ q.text) :
    c ∈ p.text ∨ k = .char c ∨ c = ' ' ∨ c = '\n' := by
  cases k with
  | char d =>
      obtain ⟨edited, hq⟩ := exists_of_edit h
      refine (mem_text_of_insertInLine hq hc).imp_right fun hd => .inl ?_
      rw [List.mem_singleton.1 hd]
  | tab =>
      obtain ⟨edited, hq⟩ := exists_of_edit h
      exact (mem_text_of_insertInLine hq hc).imp_right fun hd => .inr (.inl (List.eq_of_mem_replicate hd))
  | enter =>
      obtain ⟨edited, hq⟩ := exists_of_edit h
      exact (mem_text_of_breakLine hq hc).imp_right fun hd => .inr (.inr hd)
  | backspace =>
      obtain ⟨edited, hq⟩ := exists_of_edit h
      exact .inl (mem_text_of_deleteBackward hq hc)
  | delete =>
      obtain ⟨edited, hq⟩ := exists_of_edit h
      exact .inl (mem_text_of_deleteForward hq hc)
  | right | endKey | up | down =>
      -- a key that moves does not say that it edits, and then the text is the same
      rw [(change_press h).text_eq (ne_edited_of_redraw h)] at hc
      exact .inl hc
  | left | home | function n | other =>
      obtain ⟨-, rfl⟩ := Prod.mk.inj (Except.ok.inj h)
      exact .inl hc

theorem mem_text_of_react {e : Event} (h : p.react e = .ok (a, q)) (hc : c ∈ q.text) :
    c ∈ p.text ∨ e.typed? = some c ∨ c = ' ' ∨ c = '\n' := by
  cases e with
  | key k =>
      obtain ⟨key, control, phase⟩ := k
      rw [react] at h
      split at h
      · obtain ⟨-, rfl⟩ := Prod.mk.inj (Except.ok.inj h)
        exact .inl hc
      · next hphase =>
        split at h
        · obtain ⟨-, rfl⟩ := Prod.mk.inj (Except.ok.inj h)
          exact .inl hc
        · next hcontrol =>
          obtain rfl : control = false := Bool.eq_false_iff.2 hcontrol
          refine (mem_text_of_press h hc).imp_right (Or.imp_left ?_)
          rintro rfl
          cases phase with
          | release => exact absurd rfl hphase
          | press => rfl
          | repeated => rfl
  | resize | ignored =>
      obtain ⟨-, rfl⟩ := Prod.mk.inj (Except.ok.inj h)
      exact .inl hc

end Pane

/-! ### The playground -/

namespace Playground

/-- A key of the steps has typed the character. -/
def Typed (ss : List Step) (c : Char) : Prop := ∃ hosted e, .react hosted e ∈ ss ∧ e.typed? = some c

/-- What is shown comes from the source, from the steps and from what the analyzer reports. -/
structure Sourced (source : Text) (f : Analyzer) (ss : List Step) (p : Playground) : Prop where
  language : p.pane.language = some .rhai
  analyzer : p.editor.analysis.analyzer = f
  text : ∀ c ∈ p.pane.text, c ∈ source ∨ Typed ss c ∨ c = ' ' ∨ c = '\n'
  markers : ∀ m ∈ p.pane.markers, ∃ t rs, f t = .reports rs ∧ ∃ r ∈ rs, m = r.diagnostic.marker
  message : ∀ m ∈ p.message, ∃ e, m = refusal e
  output : ∀ line ∈ p.output.lines, ∃ e, .takeRunEvent e ∈ ss ∧ line = e.line

variable {source : Text} {f : Analyzer} {ss : List Step} {p p' : Playground}

theorem Sourced.withPane (h : p.Sourced source f ss) {q : Pane} (hlanguage : q.language = p.pane.language)
    (hmarkers : q.markers = p.pane.markers)
    (htext : ∀ c ∈ q.text, c ∈ source ∨ Typed ss c ∨ c = ' ' ∨ c = '\n') :
    (p.withPane q).Sourced source f ss where
  language := hlanguage.trans h.language
  analyzer := h.analyzer
  text := htext
  markers := by
    rw [pane_withPane, hmarkers]
    exact h.markers
  message := h.message
  output := h.output

theorem Sourced.startRun (h : p.Sourced source f ss) (hosted : Bool) :
    (p.startRun hosted).Sourced source f ss := by
  rw [Playground.startRun, Workshop.start]
  cases hstart : p.workshop.console.start hosted with
  | error e =>
      refine ⟨h.language, h.analyzer, h.text, h.markers, fun m hm => ⟨e, ?_⟩, h.output⟩
      exact (Option.some.inj hm).symm
  | ok r =>
      refine ⟨h.language, h.analyzer, h.text, h.markers, h.message, fun line hline => ?_⟩
      have hnone : r.2.output.lines = [] := Console.output_of_start hstart
      have hmem : line ∈ r.2.output.lines := hline
      rw [hnone] at hmem
      cases hmem

/-- The markers of a changed text are those of reports for it, or they stay. -/
theorem Sourced.edited (h : p.Sourced source f ss) (hosted : Bool) :
    (p.act hosted .edited).Sourced source f ss := by
  have hpane := pane_of_change (p := p.act hosted .edited) (d := p.editor) (t := p.pane.text) rfl
  refine ⟨?_, ?_, ?_, ?_, h.message, h.output⟩
  · rw [hpane]
    exact h.language
  · show (p.editor.change p.pane.text).analysis.analyzer = f
    rw [LiveDocument.analysis_change, Analysis.analyzer_refresh, h.analyzer]
  · rw [hpane]
    exact h.text
  · rw [hpane]
    intro m hm
    cases hrefresh : (p.editor.analysis.refresh p.pane.text).1 with
    | none =>
        rw [hrefresh] at hm
        exact h.markers m hm
    | some ms =>
        obtain ⟨rs, hrs, rfl⟩ := Analysis.exists_reports_of_refresh hrefresh
        rw [hrefresh] at hm
        obtain ⟨r, hr, rfl⟩ := List.mem_map.1 hm
        exact ⟨_, rs, h.analyzer ▸ hrs, r, hr, rfl⟩

theorem Sourced.act (h : p.Sourced source f ss) (hosted : Bool) (a : Action) :
    (p.act hosted a).Sourced source f ss := by
  cases a with
  | edited => exact h.edited hosted
  | run => exact h.startRun hosted
  | none | quit | redraw => exact ⟨h.language, h.analyzer, h.text, h.markers, h.message, h.output⟩

theorem Sourced.clearMessage (h : p.Sourced source f ss) (e : Event) :
    (p.clearMessage e).Sourced source f ss := by
  cases e with
  | key k => exact ⟨h.language, h.analyzer, h.text, h.markers, by simp [Playground.clearMessage], h.output⟩
  | resize | ignored => exact h

theorem Sourced.react (h : p.Sourced source f ss) {hosted : Bool} {e : Event}
    (he : .react hosted e ∈ ss) (hp : p.react hosted e = .ok p') : p'.Sourced source f ss := by
  obtain ⟨a, q, hq, rfl⟩ := exists_of_react hp
  have hsame := (Pane.change_react hq).sameBeside
  have hpane : (p.clearMessage e).pane = p.pane := by cases e <;> rfl
  rw [← hpane] at hsame hq
  refine ((h.clearMessage e).withPane hsame.language_eq hsame.markers_eq fun c hc => ?_).act hosted a
  rcases Pane.mem_text_of_react hq hc with hold | htyped | hspace
  · exact (h.clearMessage e).text c hold
  · exact .inr (.inl ⟨hosted, e, he, htyped⟩)
  · exact .inr (.inr hspace)

theorem Sourced.takeRunEvent (h : p.Sourced source f ss) {e : RunEvent} (he : .takeRunEvent e ∈ ss) :
    (p.takeRunEvent e).Sourced source f ss where
  language := h.language
  analyzer := h.analyzer
  text := h.text
  markers := h.markers
  message := h.message
  output line hline := by
    have hmem : line ∈ (p.workshop.console.apply e).2.output.lines := hline
    rcases p.workshop.console.lines_apply e with hsame | hmore
    · exact h.output line (hsame ▸ hmem)
    · rw [hmore, List.mem_append] at hmem
      exact hmem.elim (h.output line) fun hnew => ⟨e, he, List.mem_singleton.1 hnew⟩

theorem Sourced.step (h : p.Sourced source f ss) {s : Step} (hs : s ∈ ss) (hp : p.step s = .ok p') :
    p'.Sourced source f ss := by
  cases s with
  | react hosted e => exact h.react hs hp
  | startRun hosted =>
      obtain rfl := Except.ok.inj hp
      exact h.startRun hosted
  | takeRunEvent e =>
      obtain rfl := Except.ok.inj hp
      exact h.takeRunEvent hs
  | scrollToCursor height =>
      obtain rfl := Except.ok.inj hp
      refine h.withPane (Pane.language_scrollToCursor ..) (Pane.markers_scrollToCursor ..) ?_
      rw [Pane.text_scrollToCursor]
      exact h.text
  | work i =>
      obtain rfl := Except.ok.inj hp
      refine ⟨h.language, h.analyzer, h.text, h.markers, h.message, ?_⟩
      show ∀ line ∈ (p.workshop.work i).console.output.lines, _
      rw [Workshop.console_work]
      exact h.output
  | receive =>
      obtain rfl := Except.ok.inj hp
      exact ⟨h.language, h.analyzer, h.text, h.markers, h.message, h.output⟩

theorem Sourced.steps {more : List Step} (h : p.Sourced source f ss) (hss : more ⊆ ss)
    (hp : p.steps more = .ok p') : p'.Sourced source f ss := by
  induction more generalizing p with
  | nil =>
      obtain rfl := Except.ok.inj hp
      exact h
  | cons s more ih =>
      obtain ⟨p₁, hp₁, hrest⟩ := exists_of_bind_eq_ok hp
      obtain ⟨hs, hmore⟩ := List.cons_subset.1 hss
      exact ih (h.step hs hp₁) hmore hrest

/-- A source is opened as if the whole of it had been put in by an edit. -/
theorem sourced_ofSource (source : Text) (settings : Settings) (f : Analyzer) (x : Executor)
    (ss : List Step) : (ofSource source settings f x).Sourced source f ss := by
  let opened := (Pane.ofText source settings.tabWidth).withLanguage .rhai
  let unread : Playground :=
    { editor := LiveDocument.ofSurface opened f .rhai
      workshop := { executor := x }
      theme := Theme.named settings.theme
      settings := settings }
  have hunread : unread.Sourced source f ss :=
    { language := rfl
      analyzer := rfl
      text := fun c hc => .inl hc
      markers := fun m hm => absurd hm List.not_mem_nil
      message := fun m hm => absurd hm (Option.not_mem_none m)
      output := fun line hline => absurd hline List.not_mem_nil }
  exact hunread.edited true

theorem sourced_of_steps {settings : Settings} {x : Executor}
    (hp : (ofSource source settings f x).steps ss = .ok p) : p.Sourced source f ss :=
  (sourced_ofSource source settings f x ss).steps (List.Subset.refl ss) hp

end Playground

end ScriptPad
