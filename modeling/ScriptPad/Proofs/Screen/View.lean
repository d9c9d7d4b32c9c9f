import Mathlib.Data.Nat.Dist
import ScriptPad.Proofs.Screen.Repaint
import ScriptPad.Proofs.Session

/-!
The view follows the cursor. A move of the view puts the cursor line among the lines shown and goes no
further than that takes, so it does nothing where the line is shown already. The editor has a row on
any screen, and a session moves its view after each input, whatever the input did to the text, the
cursor or the screen; so each frame has the terminal cursor on a row of the editor.
-/

namespace ScriptPad

namespace Pane

variable {p : Pane} {height : Nat}

theorem scrollToCursor_eq_withScroll (p : Pane) (h : 0 < height) :
    p.scrollToCursor height = p.withScroll (p.scrollToCursor height).scroll := by
  obtain ⟨-, heq⟩ | ⟨-, heq⟩ | ⟨-, heq⟩ := p.scrollToCursor_cases h
  · rw [heq]
    rfl
  · rw [heq]
    rfl
  · rw [heq]
    rfl

/-- Every other place from which the cursor line is shown is further away. -/
theorem dist_scroll_lt (p : Pane) (h : 0 < height) {s : Nat}
    (hs : (p.withScroll s).CursorInView height) (hne : s ≠ (p.scrollToCursor height).scroll) :
    Nat.dist p.scroll (p.scrollToCursor height).scroll < Nat.dist p.scroll s := by
  obtain ⟨hle, hlt⟩ : s ≤ p.cursor.line ∧ p.cursor.line < s + height := hs
  obtain ⟨habove, heq⟩ | ⟨hbelow, heq⟩ | ⟨-, heq⟩ := p.scrollToCursor_cases h
  · rw [heq] at hne ⊢
    change s ≠ p.cursor.line at hne
    show Nat.dist p.scroll p.cursor.line < Nat.dist p.scroll s
    simp only [Nat.dist]
    omega
  · rw [heq] at hne ⊢
    change s ≠ p.cursor.line + 1 - height at hne
    show Nat.dist p.scroll (p.cursor.line + 1 - height) < Nat.dist p.scroll s
    simp only [Nat.dist]
    omega
  · rw [heq] at hne ⊢
    simp only [Nat.dist]
    omega

end Pane

theorem Screen.editorRows_pos (s : Screen) (p : Playground) : 0 < s.editorRows p := by
  have hexact : (s.layout p).Exact s.height.toNat p.settings.outputHeight.toNat :=
    Layout.exact_ofHeight ..
  rw [Screen.editorRows, hexact.editorHeight]
  exact Nat.le_max_right ..

/-- With the cursor line in view the row of the terminal cursor is computed without loss. -/
theorem Screen.toNat_cursorCell_row {s : Screen} {p : Playground}
    (h : p.pane.CursorInView (s.editorRows p)) :
    (s.cursorCell p).2.toNat = p.pane.cursor.line - p.pane.scroll := by
  obtain ⟨hle, hlt⟩ := h
  have hrows : s.editorRows p < 2 ^ 16 := (s.layout p).editorHeight.toNat_lt
  exact UInt16.toNat_ofNat_of_lt' (by show _ < 2 ^ 16; omega)

namespace Session

variable {s s' : Session}

/-- Where the view has followed the cursor, the cursor line is on a row of the editor. -/
theorem cursorInView_of_follow (h : s.follow = s) :
    s.playground.pane.CursorInView (s.screen.editorRows s.playground) := by
  have hview := s.playground.pane.cursorInView_scrollToCursor (s.screen.editorRows_pos s.playground)
  have hpane : s.playground.pane.scrollToCursor (s.screen.editorRows s.playground) =
      s.playground.pane := congrArg (·.playground.pane) h
  rwa [hpane] at hview

theorem follow_of_turns (h : s.follow = s) {is : List Input} (hs : s.turns is = .ok s') :
    s'.follow = s' := by
  induction is generalizing s with
  | nil =>
      obtain rfl : s = s' := Except.ok.inj hs
      exact h
  | cons i is ih =>
      rw [turns] at hs
      split at hs
      · cases hturn : s.turn i with
        | error e =>
            rw [hturn] at hs
            cases hs
        | ok s₁ =>
            rw [hturn] at hs
            exact ih (follow_of_turn hturn) hs
      · obtain rfl : s = s' := Except.ok.inj hs
        exact h

end Session

/-- The view moves to the nearest place from which the cursor line is shown, and changes nothing else;
moved again it stays. So in each frame of a session, after any inputs on any screens, the cursor line is
among the lines shown, and the terminal cursor goes to its row, which is one of the editor. -/
theorem view_follows_cursor :
    (∀ (p : Pane) (height : Nat), 1 ≤ height →
      let q := p.scrollToCursor height
      q = p.withScroll q.scroll ∧ q.CursorInView height ∧
      (∀ s, (p.withScroll s).CursorInView height → s ≠ q.scroll →
        Nat.dist p.scroll q.scroll < Nat.dist p.scroll s) ∧
      (p.CursorInView height → q = p) ∧ q.scrollToCursor height = q) ∧
    ∀ (p : Playground) (screen : Screen) (is : List Session.Input) (s : Session),
      (Session.ofPlayground p screen).turns is = .ok s →
      let pane := s.playground.pane
      let rows := s.screen.editorRows s.playground
      pane.CursorInView rows ∧
      ∃ ks col row, Draw.strokes s.frame = ks ++ [⟨col, row, []⟩] ∧
        row.toNat = pane.cursor.line - pane.scroll ∧ row.toNat < rows := by
  refine ⟨fun p height h => ?_, fun p screen is s hs => ?_⟩
  · exact ⟨p.scrollToCursor_eq_withScroll h, p.cursorInView_scrollToCursor h,
      fun s => p.dist_scroll_lt h, Pane.scrollToCursor_of_inView h,
      p.scrollToCursor_scrollToCursor height⟩
  · have hfollow : s.follow = s := Session.follow_of_turns (Session.follow_follow ⟨p, screen⟩) hs
    have hview := Session.cursorInView_of_follow hfollow
    have hrow := Screen.toNat_cursorCell_row hview
    obtain ⟨ks, hstrokes, -, -⟩ := s.screen.strokes_frame s.playground
    refine ⟨hview, _, _, _, hstrokes.trans (List.append_cons ks _ _), hrow, ?_⟩
    rw [hrow]
    obtain ⟨hle, hlt⟩ := hview
    omega

/-- A view of three lines that has to go down by two, and a session whose screen shrinks until the editor
has one row, between moves of the cursor and a line printed by a run. -/
theorem view_follows_cursor_shrinking :
    let pane : Pane :=
      { Pane.ofText ['\n', '\n', '\n', '\n', '\n'] 4 with cursor := ⟨5, 0⟩, scroll := 1 }
    let p := Playground.ofSource ['a', '\n', 'b', '\n', 'c'] {} (fun _ => .reports [])
      fun _ _ => ⟨[], .value []⟩
    let is : List Session.Input := [.terminal (.pressed .down), .terminal (.pressed .down),
      .terminal (.resize 20 5), .run (.output 1 ['x']), .terminal (.pressed .up)]
    (1 ≤ 3 ∧ (pane.scrollToCursor 3).scroll = 3 ∧
      pane.scrollToCursor 3 = pane.withScroll (pane.scrollToCursor 3).scroll) ∧
    ∃ s, (Session.ofPlayground p ⟨20, 24⟩).turns is = .ok s ∧ s.playground.pane.cursor.line = 1 ∧
      s.screen.editorRows s.playground = 1 ∧ s.playground.pane.CursorInView 1 := by
  intro pane p is
  have hseen :
      (fun s : Session => (s.playground.pane.cursor.line, s.screen.editorRows s.playground)) <$>
        (Session.ofPlayground p ⟨20, 24⟩).turns is = .ok (1, 1) := by decide +kernel
  obtain ⟨s, hs, heq⟩ := exists_of_map_eq_ok hseen
  obtain ⟨hline, hrows⟩ := Prod.mk.inj heq
  obtain ⟨hview, -⟩ := view_follows_cursor.2 p ⟨20, 24⟩ is s hs
  rw [hrows] at hview
  exact ⟨⟨by decide, rfl, (view_follows_cursor.1 pane 3 (by decide)).1⟩, s, hs, hline, hrows, hview⟩

end ScriptPad
