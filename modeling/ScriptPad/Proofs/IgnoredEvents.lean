import ScriptPad.Proofs.Playground

/-!
Events that the input ignores. They do nothing to the pane and ask for nothing, so a run without them
comes to the same playground but for the message: the release of a key clears it like the key itself. That
is seen in the end if no later step decides over the message again, which a step does or does not do
whatever the message is (`Playground.rewrites`).
-/

namespace ScriptPad

/-- Key releases, focus changes, mouse events and pastes. -/
def Event.isIgnored : Event → Bool
  | .key k => k.phase == .release
  | .resize _ _ => false
  | .ignored => true

namespace Playground

def Step.isIgnored : Step → Bool
  | .react _ e => e.isIgnored
  | _ => false

/-- The release of a key. -/
def Step.isRelease : Step → Bool
  | .react _ (.key k) => k.phase == .release
  | _ => false

/-- The steps that are not ignored. -/
def heeded (ss : List Step) : List Step := ss.filter (!·.isIgnored)

def hush (p : Playground) : Playground := { p with message := none }

/-- Whether a step decides over the message: a key clears it, and a run that is refused sets it. -/
def rewrites (p : Playground) : Step → Bool
  | .react _ (.key _) => true
  | .startRun hosted =>
    match p.workshop.start hosted p.editor.document with
    | .ok _ => false
    | .error _ => true
  | _ => false

/-- The steps that decide over the message when they are taken, in order. -/
def rewriting (p : Playground) : List Step → List Step
  | [] => []
  | s :: ss =>
    let later := match p.step s with
      | .ok q => q.rewriting ss
      | .error _ => []
    if p.rewrites s then s :: later else later

/-- The last of them is a release. -/
def endsHushed (p : Playground) (ss : List Step) : Bool := (p.rewriting ss).getLast?.any Step.isRelease

variable {p q : Playground} {s : Step} {ss : List Step}

theorem Step.exists_of_isRelease (h : s.isRelease) :
    ∃ hosted k, s = .react hosted (.key k) ∧ k.phase = .release := by
  cases s with
  | react hosted e =>
      cases e with
      | key k => exact ⟨hosted, k, rfl, eq_of_beq h⟩
      | resize | ignored => cases h
  | startRun | takeRunEvent | scrollToCursor | work | receive => cases h

theorem Step.isRelease_or_of_isIgnored (h : s.isIgnored) :
    s.isRelease ∨ s.isRelease = false ∧ ∃ hosted, s = .react hosted .ignored := by
  cases s with
  | react hosted e =>
      cases e with
      | key k => exact .inl h
      | resize => cases h
      | ignored => exact .inr ⟨rfl, hosted, rfl⟩
  | startRun | takeRunEvent | scrollToCursor | work | receive => cases h

theorem step_of_isRelease (h : s.isRelease) : p.step s = .ok p.hush := by
  obtain ⟨hosted, k, rfl, hk⟩ := Step.exists_of_isRelease h
  have hpane : p.pane.react (.key k) = .ok (.none, p.pane) := if_pos hk
  show p.react hosted (.key k) = _
  rw [react_eq, hpane]
  rfl

theorem rewrites_of_isRelease (h : s.isRelease) : p.rewrites s := by
  obtain ⟨hosted, k, rfl, -⟩ := Step.exists_of_isRelease h
  rfl

theorem Step.not_isRelease_of_not_isIgnored (h : s.isIgnored = false) : s.isRelease = false := by
  refine Bool.eq_false_iff.2 fun hs => ?_
  obtain ⟨hosted, k, rfl, hk⟩ := Step.exists_of_isRelease hs
  exact Bool.eq_false_iff.1 h (beq_iff_eq.2 hk)

/-! ### What the message decides -/

theorem rewrites_hush (p : Playground) (s : Step) : p.hush.rewrites s = p.rewrites s := by
  cases s <;> rfl

theorem step_hush_of_rewrites (h : p.rewrites s) : p.hush.step s = p.step s := by
  cases s with
  | react hosted e =>
      cases e with
      | key k => rfl
      | resize | ignored => cases h
  | startRun hosted =>
      show Except.ok (p.hush.startRun hosted) = .ok (p.startRun hosted)
      rw [rewrites] at h
      cases hstart : p.workshop.start hosted p.editor.document with
      | ok r =>
          rw [hstart] at h
          cases h
      | error e =>
          have hrefused : p.hush.workshop.start hosted p.hush.editor.document = .error e := hstart
          rw [startRun, startRun, hstart, hrefused]
          rfl
  | _ => cases h

theorem step_hush_of_not_rewrites (h : p.rewrites s = false) : p.hush.step s = hush <$> p.step s := by
  cases s with
  | react hosted e =>
      cases e with
      | key k => cases h
      | resize | ignored => rfl
  | startRun hosted =>
      show Except.ok (p.hush.startRun hosted) = .ok (p.startRun hosted).hush
      rw [rewrites] at h
      cases hstart : p.workshop.start hosted p.editor.document with
      | ok r =>
          have haccepted : p.hush.workshop.start hosted p.hush.editor.document = .ok r := hstart
          rw [startRun, startRun, hstart, haccepted]
          rfl
      | error e =>
          rw [hstart] at h
          cases h
  | _ => rfl

/-! ### Runs -/

theorem rewriting_cons_of_ok (h : p.step s = .ok q) (ss : List Step) :
    p.rewriting (s :: ss) = if p.rewrites s then s :: q.rewriting ss else q.rewriting ss := by
  rw [rewriting, h]

theorem steps_cons_of_ok (h : p.step s = .ok q) (ss : List Step) : p.steps (s :: ss) = q.steps ss := by
  rw [steps, h]
  rfl

theorem steps_cons_of_error {e : OutOfRange} (h : p.step s = .error e) (ss : List Step) :
    p.steps (s :: ss) = .error e := by
  rw [steps, h]
  rfl

theorem rewriting_hush (p : Playground) (ss : List Step) : p.hush.rewriting ss = p.rewriting ss := by
  induction ss generalizing p with
  | nil => rfl
  | cons s ss ih =>
      rw [rewriting, rewriting, rewrites_hush]
      cases hr : p.rewrites s with
      | true => rw [step_hush_of_rewrites hr]
      | false =>
          rw [step_hush_of_not_rewrites hr]
          cases p.step s with
          | error e => rfl
          | ok q => simp only [Except.map_ok, ih]

/-- A message that was there at the start is there in the end if no step decides over it. -/
theorem steps_hush (p : Playground) (ss : List Step) :
    p.hush.steps ss = (fun q => if p.rewriting ss = [] then q.hush else q) <$> p.steps ss := by
  induction ss generalizing p with
  | nil => rfl
  | cons s ss ih =>
      cases hr : p.rewrites s with
      | true =>
          have hne : p.rewriting (s :: ss) ≠ [] := by simp [rewriting, hr]
          rw [steps, steps, step_hush_of_rewrites hr]
          simp [hne]
      | false =>
          rw [steps, steps, step_hush_of_not_rewrites hr]
          cases hp : p.step s with
          | error e => rfl
          | ok q =>
              rw [rewriting_cons_of_ok hp, hr]
              exact ih q

theorem heeded_cons_of_ignored (h : s.isIgnored) (ss : List Step) : heeded (s :: ss) = heeded ss :=
  List.filter_cons_of_neg (by simp [h])

theorem heeded_cons_of_not_ignored (h : s.isIgnored = false) (ss : List Step) :
    heeded (s :: ss) = s :: heeded ss :=
  List.filter_cons_of_pos (by simp [h])

theorem rewriting_cons_of_isRelease (h : s.isRelease) (ss : List Step) :
    p.rewriting (s :: ss) = s :: p.rewriting ss := by
  rw [rewriting_cons_of_ok (step_of_isRelease h), if_pos (rewrites_of_isRelease h), rewriting_hush]

theorem rewriting_heeded (p : Playground) (ss : List Step) :
    p.rewriting (heeded ss) = (p.rewriting ss).filter (!·.isRelease) := by
  induction ss generalizing p with
  | nil => rfl
  | cons s ss ih =>
      cases hi : s.isIgnored with
      | true =>
          rw [heeded_cons_of_ignored hi]
          rcases Step.isRelease_or_of_isIgnored hi with hs | ⟨-, hosted, rfl⟩
          · rw [rewriting_cons_of_isRelease hs, List.filter_cons_of_neg (by simp [hs]), ih]
          · exact ih p
      | false =>
          have hs := Step.not_isRelease_of_not_isIgnored hi
          rw [heeded_cons_of_not_ignored hi, rewriting, rewriting]
          cases p.step s with
          | error e => by_cases hr : p.rewrites s <;> simp [hr, hs]
          | ok q => by_cases hr : p.rewrites s <;> simp [hr, hs, ih]

theorem endsHushed_hush (p : Playground) (ss : List Step) : p.hush.endsHushed ss = p.endsHushed ss := by
  rw [endsHushed, endsHushed, rewriting_hush]

theorem endsHushed_cons_of_not_isRelease (hs : s.isRelease = false) (h : p.step s = .ok q)
    (ss : List Step) : p.endsHushed (s :: ss) = q.endsHushed ss := by
  rw [endsHushed, endsHushed, rewriting_cons_of_ok h]
  split
  · rw [List.getLast?_cons]
    cases (q.rewriting ss).getLast? with
    | none => exact hs
    | some r => rfl
  · rfl

/-- After a release the message is cleared in the end also if no heeded step decides over it. -/
theorem endsHushed_cons_of_isRelease (h : s.isRelease) (ss : List Step) :
    p.endsHushed (s :: ss) = (p.endsHushed ss || decide (p.rewriting (heeded ss) = [])) := by
  rw [endsHushed, rewriting_cons_of_isRelease h, List.getLast?_cons, endsHushed, rewriting_heeded]
  cases hlast : (p.rewriting ss).getLast? with
  | none =>
      rw [List.getLast?_eq_none_iff.1 hlast]
      exact h
  | some r =>
      cases hr : r.isRelease with
      | true => simp [hr]
      | false =>
          -- this step is heeded, so it decides over the message without the release as well
          have hkept : (p.rewriting ss).filter (!·.isRelease) ≠ [] :=
            List.ne_nil_of_mem (List.mem_filter.2 ⟨List.mem_of_getLast? hlast, by simp [hr]⟩)
          simp [hr, hkept]

theorem steps_eq_heeded (p : Playground) (ss : List Step) :
    p.steps ss = (fun q => if p.endsHushed ss then q.hush else q) <$> p.steps (heeded ss) := by
  induction ss generalizing p with
  | nil => rfl
  | cons s ss ih =>
      cases hi : s.isIgnored with
      | true =>
          rw [heeded_cons_of_ignored hi]
          rcases Step.isRelease_or_of_isIgnored hi with hs | ⟨-, hosted, rfl⟩
          · have hrun : p.steps (s :: ss) =
                (fun q => if p.endsHushed ss then q.hush else q) <$> p.hush.steps (heeded ss) := by
              rw [steps_cons_of_ok (step_of_isRelease hs), ih, endsHushed_hush]
            rw [hrun, steps_hush, Functor.map_map, endsHushed_cons_of_isRelease hs]
            refine congrArg (· <$> _) (funext fun q => ?_)
            by_cases hends : p.endsHushed ss
            · by_cases hnone : p.rewriting (heeded ss) = []
              · simp only [hends, hnone, if_true, Bool.true_or]
                rfl
              · simp [hends, hnone]
            · simp [hends]
          · exact ih p
      | false =>
          have hs := Step.not_isRelease_of_not_isIgnored hi
          rw [heeded_cons_of_not_ignored hi]
          cases hp : p.step s with
          | error e =>
              rw [steps_cons_of_error hp, steps_cons_of_error hp]
              rfl
          | ok q =>
              rw [steps_cons_of_ok hp, steps_cons_of_ok hp, endsHushed_cons_of_not_isRelease hs hp]
              exact ih q

/-- Without the ignored steps a run comes to the same end, an error included, but that the message may have
been cleared: that is so if the last step that decided over the message was the release of a key. So nothing
at all is different exactly if it was not, or if there was no message to be cleared. -/
theorem ignored_steps_leave_message_at_most (p : Playground) (ss : List Step) :
    p.steps ss = (fun q => if p.endsHushed ss then { q with message := none } else q) <$>
      p.steps (heeded ss) ∧
    (p.steps ss = p.steps (heeded ss) ↔
      (p.endsHushed ss → ∀ q, p.steps (heeded ss) = .ok q → q.message = none)) := by
  have heq := p.steps_eq_heeded ss
  refine ⟨heq, ?_⟩
  rw [heq]
  cases hends : p.endsHushed ss with
  | false =>
      cases p.steps (heeded ss) with
      | error e => simp
      | ok q => simp
  | true =>
      cases hq : p.steps (heeded ss) with
      | error e => simp
      | ok q =>
          simp only [if_true, Except.map_ok, Except.ok.injEq, forall_const, forall_eq']
          constructor
          · intro hsame
            rw [← hsame]
            rfl
          · intro hnone
            rw [hush, ← hnone]

/-- The release of the key that asked for a second run clears the message that there is one. -/
theorem release_clears_refusal :
    let p := ofSource [] {} (fun _ => .reports []) fun _ _ => ⟨[], .value []⟩
    let f5 (phase : KeyPhase) : Step := .react true (.key { key := .function 5, phase := phase })
    let ss := [f5 .press, f5 .release, f5 .press, f5 .release]
    heeded ss = [f5 .press, f5 .press] ∧
      (·.message) <$> p.steps ss = .ok none ∧
      (·.message) <$> p.steps (heeded ss) = .ok (some "A run is already in progress".toList) := by
  decide +kernel

end Playground

end ScriptPad
