import ScriptPad.CommandLine.Session
import ScriptPad.Proofs.Playground

/-!
The order in which a session takes its inputs. Terminal events and events of runs come from two
sources, and nothing says which source is asked first. Of the terminal events only a request for a
run looks at the console; every other one can change places with an event of a run, since it changes
the editor, the message and the screen, and the event of a run changes the console.

What both change is the view, which follows the cursor after each input. An event of a run leaves
the cursor and the screen as they were, so after it the view stays, provided that it was right before;
and it is right after every turn, because a view that has followed the cursor has no further to go.
-/

namespace ScriptPad

namespace Pane

/-- The cursor line is among the `height` lines from the first one in view. -/
def CursorInView (p : Pane) (height : Nat) : Prop :=
  p.scroll ≤ p.cursor.line ∧ p.cursor.line < p.scroll + height

/-- The pane with another first line in view. -/
def withScroll (p : Pane) (scroll : Nat) : Pane := { p with scroll := scroll }

variable {p : Pane} {height : Nat}

/-- Up to the cursor line, down until it is the last one shown, or not at all. -/
theorem scrollToCursor_cases (p : Pane) (h : 0 < height) :
    p.cursor.line < p.scroll ∧ p.scrollToCursor height = p.withScroll p.cursor.line ∨
    p.scroll + height ≤ p.cursor.line ∧
      p.scrollToCursor height = p.withScroll (p.cursor.line + 1 - height) ∨
    p.CursorInView height ∧ p.scrollToCursor height = p := by
  by_cases habove : p.cursor.line < p.scroll
  · have hshown : ¬ (0 < height ∧ min p.scroll p.cursor.line + height ≤ p.cursor.line) := by omega
    refine .inl ⟨habove, ?_⟩
    rw [scrollToCursor, if_neg hshown, Nat.min_eq_right habove.le]
    rfl
  · have hmin : min p.scroll p.cursor.line = p.scroll := Nat.min_eq_left (Nat.le_of_not_lt habove)
    by_cases hbelow : p.scroll + height ≤ p.cursor.line
    · refine .inr (.inl ⟨hbelow, ?_⟩)
      rw [scrollToCursor, hmin, if_pos ⟨h, hbelow⟩]
      rfl
    · refine .inr (.inr ⟨⟨by omega, by omega⟩, ?_⟩)
      rw [scrollToCursor, hmin, if_neg (fun hboth => hbelow hboth.2)]

theorem cursorInView_scrollToCursor (p : Pane) (h : 0 < height) :
    (p.scrollToCursor height).CursorInView height := by
  obtain ⟨habove, heq⟩ | ⟨hbelow, heq⟩ | ⟨hview, heq⟩ := p.scrollToCursor_cases h
  · rw [heq]
    exact ⟨Nat.le_refl _, Nat.lt_add_of_pos_right h⟩
  · rw [heq]
    show p.cursor.line + 1 - height ≤ p.cursor.line ∧
      p.cursor.line < p.cursor.line + 1 - height + height
    omega
  · rwa [heq]

theorem scrollToCursor_of_inView (h : 0 < height) (hview : p.CursorInView height) :
    p.scrollToCursor height = p := by
  obtain ⟨hle, hlt⟩ := hview
  obtain ⟨habove, -⟩ | ⟨hbelow, -⟩ | ⟨-, heq⟩ := p.scrollToCursor_cases h
  · omega
  · omega
  · exact heq

/-- A view that has followed the cursor has no further to go. -/
theorem scrollToCursor_scrollToCursor (p : Pane) (height : Nat) :
    (p.scrollToCursor height).scrollToCursor height = p.scrollToCursor height := by
  rcases Nat.eq_zero_or_pos height with rfl | h
  · simp [scrollToCursor]
  · exact scrollToCursor_of_inView h (p.cursorInView_scrollToCursor h)

end Pane

/-- An event that no pane takes for a request to run the script or to leave the program. -/
def Event.NoCommand (e : Event) : Prop :=
  ∀ (p : Pane) (a : Action) (q : Pane), p.react e = .ok (a, q) → a ≠ .run ∧ a ≠ .quit

namespace Pane

variable {p p' : Pane} {a : Action}

/-- Of the keys pressed without the control key only F5 asks for anything. -/
theorem press_command {k : Key} (ha : a = .run ∨ a = .quit) (h : p.press k = .ok (a, p')) :
    k = .function 5 ∧ a = .run := by
  have hedit : ∀ {x : Except OutOfRange (Bool × Pane)}, editAction <$> x ≠ .ok (a, p') := by
    intro x hx
    obtain ⟨⟨changed, q⟩, -, heq⟩ := exists_of_map_eq_ok hx
    cases changed <;> rcases ha with rfl | rfl <;> cases heq
  have hmove : ∀ {x : Except OutOfRange Pane}, (Action.redraw, ·) <$> x ≠ .ok (a, p') := by
    intro x hx
    obtain ⟨q, -, heq⟩ := exists_of_map_eq_ok hx
    rcases ha with rfl | rfl <;> cases heq
  cases k with
  | function n =>
      obtain ⟨rfl, -⟩ := Prod.mk.inj (Except.ok.inj h)
      by_cases hn : n = 5
      · simp [hn]
      · simp [hn] at ha
  | left | home | other => rcases ha with rfl | rfl <;> cases h
  | right | up | down | endKey => exact absurd h hmove
  | char c | tab | enter | backspace | delete => exact absurd h hedit

/-- What an event asks for does not depend on the pane. -/
theorem react_command {e : Event} (ha : a = .run ∨ a = .quit) (h : p.react e = .ok (a, p'))
    (q : Pane) : q.react e = .ok (a, q) := by
  cases e with
  | resize width height | ignored => rcases ha with rfl | rfl <;> cases h
  | key k =>
      by_cases hphase : k.phase = .release
      · rw [react, if_pos hphase] at h
        rcases ha with rfl | rfl <;> cases h
      · rw [react, if_neg hphase] at h ⊢
        by_cases hcontrol : k.control
        · rw [if_pos hcontrol] at h ⊢
          obtain ⟨rfl, -⟩ := Prod.mk.inj (Except.ok.inj h)
          rfl
        · rw [if_neg hcontrol] at h ⊢
          obtain ⟨hkey, rfl⟩ := press_command ha h
          rw [hkey]
          rfl

end Pane

/-- So one pane that takes it for something else is enough. -/
theorem Event.noCommand_of_react {e : Event} {p q : Pane} {a : Action} (h : p.react e = .ok (a, q))
    (ha : a ≠ .run ∧ a ≠ .quit) : e.NoCommand := by
  intro p' a' q' h'
  by_contra hcommand
  have ha' : a' = .run ∨ a' = .quit := by tauto
  have heq : a = a' := (Prod.mk.inj (Except.ok.inj (h.symm.trans (Pane.react_command ha' h' p)))).1
  rcases ha' with rfl | rfl
  · exact ha.1 heq
  · exact ha.2 heq

namespace Playground

theorem scrollToCursor_scrollToCursor (p : Playground) (height : Nat) :
    (p.scrollToCursor height).scrollToCursor height = p.scrollToCursor height :=
  congrArg p.withPane (p.pane.scrollToCursor_scrollToCursor height)

variable {p p' : Playground} {e : Event}

/-- An event that asks for no run has the same effect before and after an event of a run. -/
theorem react_takeRunEvent (he : e.NoCommand) (hosted : Bool) (r : RunEvent) :
    (p.takeRunEvent r).react hosted e = (·.takeRunEvent r) <$> p.react hosted e := by
  rw [react_eq, react_eq, pane_takeRunEvent]
  cases hq : p.pane.react e with
  | error f => rfl
  | ok result =>
      obtain ⟨a, q⟩ := result
      cases a with
      | run => exact absurd rfl (he _ _ _ hq).1
      | none | edited | quit | redraw => cases e <;> rfl

theorem running_of_react (he : e.NoCommand) {hosted : Bool} (h : p.react hosted e = .ok p') :
    p'.running = p.running := by
  obtain ⟨a, q, hq, rfl⟩ := exists_of_react h
  cases a with
  | run => exact absurd rfl (he _ _ _ hq).1
  | quit => exact absurd rfl (he _ _ _ hq).2
  | none | edited | redraw => cases e <;> rfl

end Playground

namespace Session

/-- The terminal event that an input is. -/
def Input.terminal? : Input → Option Event
  | .terminal e => some e
  | .run _ => none

/-- The event of a run that an input is. -/
def Input.run? : Input → Option RunEvent
  | .terminal _ => none
  | .run r => some r

/-- Turns for inputs in order, for as long as the program goes on. -/
def turns (s : Session) : List Input → Except OutOfRange Session
  | [] => .ok s
  | i :: is => if s.playground.running then s.turn i >>= (·.turns is) else .ok s

/-- Takes an event of a run and leaves the view as it is. -/
def takeRunEvent (s : Session) (r : RunEvent) : Session :=
  { s with playground := s.playground.takeRunEvent r }

def takeRunEvents (s : Session) (rs : List RunEvent) : Session := rs.foldl takeRunEvent s

variable {s s' : Session} {e : Event}

/-- How many rows the editor has does not depend on what is in them. -/
theorem editorRows_scrollToCursor (screen : Screen) (p : Playground) (height : Nat) :
    screen.editorRows (p.scrollToCursor height) = screen.editorRows p := by
  simp only [Screen.editorRows, Screen.layout, Playground.scrollToCursor, Playground.withPane]

theorem follow_follow (s : Session) : s.follow.follow = s.follow := by
  simp only [follow, editorRows_scrollToCursor, Playground.scrollToCursor_scrollToCursor]

@[simp] theorem running_follow (s : Session) :
    s.follow.playground.running = s.playground.running := by
  simp only [follow, Playground.scrollToCursor, Playground.withPane]

theorem follow_of_turn {i : Input} (h : s.turn i = .ok s') : s'.follow = s' := by
  obtain ⟨s₁, -, rfl⟩ := exists_of_map_eq_ok h
  exact s₁.follow_follow

/-- An event of a run leaves the cursor and the screen as they were. -/
theorem follow_takeRunEvent (s : Session) (r : RunEvent) :
    (s.takeRunEvent r).follow = s.follow.takeRunEvent r := by
  simp only [follow, takeRunEvent, Screen.editorRows, Screen.layout]
  rfl

/-- Where the view is right, the turn of an event of a run is that event and nothing else. -/
theorem turn_run (h : s.follow = s) (r : RunEvent) : s.turn (.run r) = .ok (s.takeRunEvent r) := by
  show Except.ok (s.takeRunEvent r).follow = _
  rw [follow_takeRunEvent, h]

theorem turn_terminal (s : Session) (e : Event) : s.turn (.terminal e) =
    (fun p => follow ⟨p, resized s.screen e⟩) <$> s.playground.react true e := by
  cases h : s.playground.react true e <;> simp only [turn, receive, h] <;> rfl

theorem turn_terminal_takeRunEvent (he : e.NoCommand) (s : Session) (r : RunEvent) :
    (s.takeRunEvent r).turn (.terminal e) = (·.takeRunEvent r) <$> s.turn (.terminal e) := by
  rw [turn_terminal, turn_terminal, takeRunEvent, Playground.react_takeRunEvent he]
  cases s.playground.react true e <;> rfl

theorem running_of_turn_terminal (he : e.NoCommand) (h : s.turn (.terminal e) = .ok s') :
    s'.playground.running = s.playground.running := by
  rw [turn_terminal] at h
  obtain ⟨p, hp, rfl⟩ := exists_of_map_eq_ok h
  rw [running_follow]
  exact Playground.running_of_react he hp

/-- Events of the terminal go the same way before and after an event of a run. -/
theorem turns_terminals_takeRunEvent (es : List Event) (hes : ∀ e ∈ es, e.NoCommand) (s : Session)
    (r : RunEvent) :
    (s.takeRunEvent r).turns (es.map .terminal) =
      (·.takeRunEvent r) <$> s.turns (es.map .terminal) := by
  induction es generalizing s with
  | nil => rfl
  | cons e es ih =>
      simp only [List.map_cons, turns]
      have hrunning : (s.takeRunEvent r).playground.running = s.playground.running := rfl
      rw [hrunning, turn_terminal_takeRunEvent (hes e List.mem_cons_self)]
      split
      · cases hs : s.turn (.terminal e) with
        | error f => rfl
        | ok s₁ => exact ih (fun e he => hes e (List.mem_cons_of_mem _ he)) s₁
      · rfl

/-- The turns of a program that goes on come to those for the terminal events, with the events of
runs taken at the end. -/
theorem turns_eq (is : List Input) (his : ∀ e ∈ is.filterMap Input.terminal?, e.NoCommand)
    (hview : s.follow = s) (hrunning : s.playground.running = true) :
    s.turns is = (·.takeRunEvents (is.filterMap Input.run?)) <$>
      s.turns ((is.filterMap Input.terminal?).map .terminal) := by
  induction is generalizing s with
  | nil => rfl
  | cons i is ih =>
      rw [turns, if_pos hrunning]
      cases i with
      | terminal e =>
          have he : e.NoCommand := his e List.mem_cons_self
          simp only [List.filterMap_cons, Input.terminal?, Input.run?, List.map_cons, turns,
            if_pos hrunning]
          cases hs : s.turn (.terminal e) with
          | error f => rfl
          | ok s₁ =>
              exact ih (fun e he => his e (List.mem_cons_of_mem _ he)) (follow_of_turn hs)
                ((running_of_turn_terminal he hs).trans hrunning)
      | run r =>
          simp only [List.filterMap_cons, Input.terminal?, Input.run?]
          have hnext := ih (s := s.takeRunEvent r) his
            (by rw [follow_takeRunEvent, hview]) hrunning
          rw [turns_terminals_takeRunEvent (is.filterMap Input.terminal?) his] at hnext
          rw [turn_run hview]
          refine hnext.trans ?_
          cases s.turns ((is.filterMap Input.terminal?).map .terminal) <;> rfl

theorem turns_of_not_running (h : s.playground.running = false) (is : List Input) :
    s.turns is = .ok s := by
  cases is with
  | nil => rfl
  | cons i is => rw [turns, h, if_neg Bool.false_ne_true]

/-- A session whose view is right is given terminal events, of which none asks for a run or to leave,
and events of any runs. In whatever order it takes the events of the two kinds, each kind in its own
order, it comes to the same; and that is what the terminal events alone lead to, with the events of
runs taken after them. -/
theorem turns_interleaved (s : Session) (es : List Event) (rs : List RunEvent)
    (hes : ∀ e ∈ es, e.NoCommand) :
    (∀ is js, is.filterMap Input.terminal? = es → is.filterMap Input.run? = rs →
      js.filterMap Input.terminal? = es → js.filterMap Input.run? = rs →
      s.follow.turns is = s.follow.turns js) ∧
    (s.playground.running = true →
      ∀ is, is.filterMap Input.terminal? = es → is.filterMap Input.run? = rs →
        s.follow.turns is = (·.takeRunEvents rs) <$> s.follow.turns (es.map .terminal)) := by
  have hturns : s.playground.running = true →
      ∀ is, is.filterMap Input.terminal? = es → is.filterMap Input.run? = rs →
        s.follow.turns is = (·.takeRunEvents rs) <$> s.follow.turns (es.map .terminal) := by
    rintro hrunning is rfl rfl
    exact turns_eq is hes s.follow_follow (s.running_follow.trans hrunning)
  refine ⟨fun is js hise hisr hjse hjsr => ?_, hturns⟩
  cases hrunning : s.playground.running with
  | true => rw [hturns hrunning is hise hisr, hturns hrunning js hjse hjsr]
  | false =>
      have hended : s.follow.playground.running = false := s.running_follow.trans hrunning
      rw [turns_of_not_running hended, turns_of_not_running hended]

/-- A text is broken into two lines on a screen that shrinks to one row for it, while a run prints
and ends. -/
theorem turns_interleaved_shrinking :
    let p := Playground.ofSource ['a'] {} (fun _ => .reports []) fun _ _ => ⟨[['b']], .value []⟩
    let s : Session := ⟨p.startRun true, 20, 24⟩
    let enter := Event.pressed .enter
    let shrink := Event.resize 20 4
    let type := Event.pressed (.char 'c')
    let prints := RunEvent.output 1 ['b']
    let ends := RunEvent.finished 1 (.value [])
    let es := [enter, shrink, type]
    let rs := [prints, ends]
    (∀ e ∈ es, e.NoCommand) ∧
    ∃ s', s.follow.turns (es.map .terminal) = .ok s' ∧
      s.follow.turns [.terminal enter, .run prints, .terminal shrink, .run ends, .terminal type] =
        .ok (s'.takeRunEvents rs) ∧
      s.follow.turns [.run prints, .run ends, .terminal enter, .terminal shrink, .terminal type] =
        .ok (s'.takeRunEvents rs) ∧
      s'.playground.pane.text = ['\n', 'c', 'a'] ∧ s'.playground.pane.scroll = 1 ∧
      (s'.takeRunEvents rs).playground.runState = .idle := by
  intro p s enter shrink type prints ends es rs
  have hes : ∀ e ∈ es, e.NoCommand := by
    have hreact : ∀ e ∈ es, ∃ a q, p.pane.react e = .ok (a, q) ∧ a ≠ .run ∧ a ≠ .quit := by
      simp only [es, List.forall_mem_cons]
      exact ⟨⟨.edited, _, rfl, by decide⟩, ⟨.redraw, _, rfl, by decide⟩,
        ⟨.edited, _, rfl, by decide⟩, by simp⟩
    intro e he
    obtain ⟨a, q, hq, ha⟩ := hreact e he
    exact Event.noCommand_of_react hq ha
  have hseen : (fun s : Session => (s.playground.pane.text, s.playground.pane.scroll,
      (s.takeRunEvents rs).playground.runState)) <$> s.follow.turns (es.map .terminal) =
      .ok (['\n', 'c', 'a'], 1, .idle) := by decide +kernel
  obtain ⟨s', hs', heq⟩ := exists_of_map_eq_ok hseen
  obtain ⟨htext, hscroll, hstate⟩ : _ ∧ _ ∧ _ := by simpa using heq
  obtain ⟨-, hturns⟩ := turns_interleaved s es rs hes
  refine ⟨hes, s', hs', ?_, ?_, htext, hscroll, hstate⟩
  · rw [hturns rfl _ rfl rfl, hs']
    rfl
  · rw [hturns rfl _ rfl rfl, hs']
    rfl

end Session

end ScriptPad
