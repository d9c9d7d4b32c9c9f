import ScriptPad.Proofs.Highlight.Slices
import ScriptPad.Proofs.Screen.Repaint

/-!
A line on its row of the screen. The row begins with a margin, the sign of a marker, a number and a
space, and then has the text in pieces of one colour each. Put together the pieces show the line,
clipped to the room behind the gutter and filled up with spaces; the colours come from the kinds of
the tokens, one over each character.

The text may as well be drawn by slicing the line at the places of its tokens and counting down the
room (`drawSlices?`): this can fail in two ways, and does in neither.
-/

namespace ScriptPad

namespace Pane

theorem pieces_of_language {p : Pane} {l : Language} (h : p.language = some l) (line : Text) :
    p.pieces line = l.pieces line := by
  rw [Pane.pieces, h]
  rfl

theorem pieces_of_none {p : Pane} (h : p.language = none) (line : Text) :
    p.pieces line = [] := by
  rw [Pane.pieces, h]
  rfl

theorem flatMap_text_pieces (p : Pane) {line : Text} (h : p.pieces line ≠ []) :
    (p.pieces line).flatMap (·.text) = line := by
  cases hl : p.language with
  | none => exact absurd (pieces_of_none hl line) h
  | some l => rw [pieces_of_language hl, l.flatMap_text_pieces]

/-- The tokens of a pane are the places of its pieces. -/
theorem tokens_eq (p : Pane) (line : Text) : p.tokens line = Token.ofPieces 0 (p.pieces line) := by
  rw [Pane.tokens, Pane.pieces]
  cases p.language <;> rfl

end Pane

namespace Draw

/-- What is printed, each character in the foreground colour of its time; none is the terminal's own. -/
def inked : Option Colour → List Draw → List (Char × Option Colour)
  | _, [] => []
  | _, foreground c :: ds => inked (some c) ds
  | _, resetStyle :: ds => inked none ds
  | ink, d :: ds => d.printed.map (·, ink) ++ inked ink ds

theorem map_fst_inked (ink : Option Colour) (ds : List Draw) :
    (inked ink ds).map Prod.fst = ds.flatMap printed := by
  induction ds generalizing ink with
  | nil => rfl
  | cons d ds ih =>
      cases d with
      | foreground c => exact ih (some c)
      | resetStyle => exact ih none
      | _ => simp [inked, ih, Function.comp_def]

theorem inked_foreground_print (ink : Option Colour) (c : Colour) (t : Text) (ds : List Draw) :
    inked ink (foreground c :: print t :: ds) = t.map (·, some c) ++ inked (some c) ds := rfl

end Draw

namespace Screen

/-! ### The margin -/

/-- The sign, the number if wanted, and the space before line `i`. -/
def drawMargin (p : Playground) (i : Nat) : List Draw :=
  drawSign p.theme (p.pane.marker? i) ++
    (if p.settings.showLineNumbers then
      drawLineNumber p.theme (i = p.pane.cursor.line) (i + 1) else []) ++
    [.print [' ']]

/-- What is printed before line `i`. -/
def margin (p : Playground) (i : Nat) : Text :=
  ((p.pane.marker? i).map (·.severity.sign)).getD ' ' ::
    (if p.settings.showLineNumbers then Text.padLeft 4 (Text.ofNat (i + 1)) else []) ++ [' ']

theorem printed_drawMargin (p : Playground) (i : Nat) :
    (drawMargin p i).flatMap Draw.printed = margin p i := by
  have hsign : (drawSign p.theme (p.pane.marker? i)).flatMap Draw.printed =
      [((p.pane.marker? i).map (·.severity.sign)).getD ' '] := by
    cases p.pane.marker? i <;> rfl
  rw [drawMargin, List.flatMap_append, List.flatMap_append, hsign, margin]
  cases p.settings.showLineNumbers <;> simp [drawLineNumber, Draw.printed]

theorem length_margin (p : Playground) (i : Nat) :
    (margin p i).length =
      2 + if p.settings.showLineNumbers then max 4 (Text.ofNat (i + 1)).length else 0 := by
  cases h : p.settings.showLineNumbers with
  | false => simp [margin, h]
  | true =>
      simp [margin, h]
      omega

/-- The margin is as wide as the gutter for numbers of up to four digits. -/
theorem length_margin_eq_gutter_iff {p : Playground} {i : Nat} :
    (margin p i).length = (gutter p.settings.showLineNumbers).toNat ↔
      (p.settings.showLineNumbers = true → i + 1 < 10000) := by
  have hdigits : (Text.ofNat (i + 1)).length ≤ 4 ↔ i + 1 < 10 ^ 4 :=
    Nat.length_toDigits_le_iff (by decide) (by decide)
  rw [length_margin]
  cases p.settings.showLineNumbers with
  | false => exact ⟨fun _ h => absurd h Bool.false_ne_true, fun _ => rfl⟩
  | true =>
      show 2 + max 4 (Text.ofNat (i + 1)).length = 6 ↔ _
      simp only [forall_const]
      omega

/-- The columns behind the gutter. -/
def room (s : Screen) (p : Playground) : Nat :=
  s.width.toNat - (gutter p.settings.showLineNumbers).toNat

theorem drawEditorRow_of_line {s : Screen} {p : Playground} {row : Nat} {line : Text}
    (hline : p.pane.buffer.text.lines[row + p.pane.scroll]? = some line) :
    s.drawEditorRow p row =
      .moveTo 0 (UInt16.ofNat row) :: .background p.theme.background ::
        drawMargin p (row + p.pane.scroll) ++
      drawContent p.theme (s.room p) (p.pane.pieces line.trimLineEnd) line.trimLineEnd := by
  rw [drawEditorRow]
  dsimp only
  rw [hline]
  dsimp only
  rw [Layout.toNat_monus, drawMargin, room]
  simp only [List.cons_append, List.nil_append, List.append_assoc]

/-! ### The text -/

/-- The characters of the pieces as they are shown, in their colours. -/
def colouredPieces (theme : Theme) (ps : List Piece) : List (Char × Option Colour) :=
  ps.flatMap fun p => p.text.map fun c => (showTab c, some (theme.ofWord p.kind))

theorem map_fst_colouredPieces (theme : Theme) (ps : List Piece) :
    (colouredPieces theme ps).map Prod.fst = (ps.flatMap (·.text)).map showTab := by
  simp [colouredPieces, List.map_flatMap, Function.comp_def]

theorem inked_drawPieces (theme : Theme) (ink : Option Colour) (n : Nat) (ps : List Piece) :
    ∃ last, Draw.inked ink (drawPieces theme n ps) =
      (colouredPieces theme ps).take n ++
        (blank (n - (colouredPieces theme ps).length)).map (·, last) := by
  induction ps generalizing ink n with
  | nil =>
      cases n with
      | zero => exact ⟨none, rfl⟩
      | succ n => exact ⟨ink, by simp [drawPieces, Draw.inked, Draw.printed, colouredPieces]⟩
  | cons p ps ih =>
      cases n with
      | zero => exact ⟨none, by simp [drawPieces, Draw.inked, Draw.printed, blank]⟩
      | succ n =>
          let shown := (p.text.map showTab).take (n + 1)
          have hlength : shown.length = min (n + 1) p.text.length := by simp [shown]
          have hrest : n + 1 - shown.length = n + 1 - p.text.length := by omega
          obtain ⟨last, hlast⟩ := ih (some (theme.ofWord p.kind)) (n + 1 - p.text.length)
          refine ⟨last, ?_⟩
          have hpiece : colouredPieces theme (p :: ps) =
              (p.text.map showTab).map (·, some (theme.ofWord p.kind)) ++ colouredPieces theme ps := by
            simp [colouredPieces, Function.comp_def]
          show Draw.inked ink (.foreground (theme.ofWord p.kind) :: .print shown ::
            drawPieces theme (n + 1 - shown.length) ps) = _
          rw [Draw.inked_foreground_print, hrest, hlast, hpiece, List.take_append, ← List.map_take,
            List.length_append, List.length_map, List.length_map, List.append_assoc, Nat.sub_add_eq]

/-- A character of the line is in the colour of a token over it. -/
theorem exists_over_colouredPieces (theme : Theme) {line before : Text} {ps : List Piece} {k : Nat}
    {c : Char} (hline : line = before ++ ps.flatMap (·.text))
    (hc : (ps.flatMap (·.text))[k]? = some c) :
    ∃ t ∈ Token.ofPieces before.byteLength ps, t.Over line (before.length + k) ∧
      (colouredPieces theme ps)[k]? = some (showTab c, some (theme.ofWord t.kind)) := by
  induction ps generalizing before k with
  | nil => simp at hc
  | cons p ps ih =>
      rw [List.flatMap_cons] at hline hc
      have hpiece : colouredPieces theme (p :: ps) =
          p.text.map (fun c => (showTab c, some (theme.ofWord p.kind))) ++ colouredPieces theme ps := rfl
      rw [Token.ofPieces_cons, hpiece]
      by_cases hk : k < p.text.length
      · rw [List.getElem?_append_left hk] at hc
        refine ⟨_, List.mem_cons_self, ?_, ?_⟩
        · rw [hline]
          exact Token.over_spanning hk p.kind
        · rw [List.getElem?_append_left (by rwa [List.length_map]), List.getElem?_map, hc]
          rfl
      · have hle : p.text.length ≤ k := Nat.le_of_not_lt hk
        rw [List.getElem?_append_right hle] at hc
        rw [← List.append_assoc] at hline
        obtain ⟨t, ht, hover, hcolour⟩ := ih hline hc
        refine ⟨t, List.mem_cons_of_mem _ ht, ?_, ?_⟩
        · rw [List.length_append] at hover
          have hplace : before.length + p.text.length + (k - p.text.length) = before.length + k := by
            omega
          rwa [hplace] at hover
        · rw [List.getElem?_append_right (by rwa [List.length_map]), List.length_map]
          exact hcolour

/-! ### Drawing by slices -/

/-- Draws the slices at the tokens of a line for as long as there is room. There is no drawing if a token
begins or ends inside a character, or if more is drawn than there is room for. -/
def drawSlices? (theme : Theme) (content : Text) : Nat → List Token → Option (List Draw)
  | 0, _ => some [.print []]
  | n + 1, [] => some [.print (blank (n + 1))]
  | n + 1, t :: ts =>
    (content.slice? t.start t.stop).bind fun word =>
      let shown := (word.map showTab).take (n + 1)
      if shown.length ≤ n + 1 then
        (drawSlices? theme content (n + 1 - shown.length) ts).map fun rest =>
          .foreground (theme.ofWord t.kind) :: .print shown :: rest
      else none

/-- Draws a line by its tokens, or as it is if it has none. -/
def drawTokens? (theme : Theme) (room : Nat) (tokens : List Token) (content : Text) :
    Option (List Draw) :=
  if tokens = [] then
    let shown := content.take room
    if shown.length ≤ room then
      some [.foreground theme.foreground, .print shown, .print (blank (room - shown.length))]
    else none
  else drawSlices? theme content room tokens

theorem drawSlices?_ofPieces (theme : Theme) {content before : Text} (n : Nat) {ps : List Piece}
    (hcontent : content = before ++ ps.flatMap (·.text)) :
    drawSlices? theme content n (Token.ofPieces before.byteLength ps) =
      some (drawPieces theme n ps) := by
  induction ps generalizing before n with
  | nil => cases n <;> rfl
  | cons p ps ih =>
      rw [Token.ofPieces_cons]
      cases n with
      | zero => rfl
      | succ n =>
          rw [List.flatMap_cons] at hcontent
          have hslice : content.slice? (Token.spanning before p.text p.kind).start
              (Token.spanning before p.text p.kind).stop = some p.text := by
            rw [Token.stop_spanning, hcontent]
            exact Text.slice?_append before p.text _
          have hshown : ((p.text.map showTab).take (n + 1)).length ≤ n + 1 := List.length_take_le ..
          rw [← List.append_assoc] at hcontent
          rw [drawSlices?, hslice, Option.bind_some]
          dsimp only
          rw [if_pos hshown, ih _ hcontent]
          rfl

/-- Neither way of failing ever comes about. -/
theorem drawTokens?_eq (theme : Theme) (n : Nat) (p : Pane) (content : Text) :
    drawTokens? theme n (p.tokens content) content =
      some (drawContent theme n (p.pieces content) content) := by
  rw [p.tokens_eq, drawTokens?, drawContent]
  cases hps : p.pieces content with
  | nil => simp [Token.ofPieces]
  | cons q ps =>
      have hflat : content = [] ++ (p.pieces content).flatMap (·.text) :=
        (p.flatMap_text_pieces (by simp [hps])).symm
      rw [if_neg (by simp [Token.ofPieces]), if_neg (by simp), ← hps]
      exact drawSlices?_ofPieces theme n hflat

/-! ### The row -/

theorem inked_drawContent (theme : Theme) (ink : Option Colour) (n : Nat) {l : Language} {p : Pane}
    (hl : p.language = some l) (content : Text) :
    ∃ last, Draw.inked ink (drawContent theme n (p.pieces content) content) =
      (colouredPieces theme (l.pieces content)).take n ++
        (blank (n - content.length)).map (·, last) := by
  have hflat := l.flatMap_text_pieces content
  rw [Pane.pieces_of_language hl, drawContent]
  split
  · next hnil =>
    rw [hnil] at hflat ⊢
    obtain rfl : [] = content := hflat
    exact ⟨some theme.foreground, by simp [Draw.inked, Draw.printed, colouredPieces]⟩
  · obtain ⟨last, hlast⟩ := inked_drawPieces theme ink n (l.pieces content)
    have hlength : (colouredPieces theme (l.pieces content)).length = content.length := by
      have hchars := congrArg List.length (map_fst_colouredPieces theme (l.pieces content))
      rwa [hflat, List.length_map, List.length_map] at hchars
    rw [hlength] at hlast
    exact ⟨last, hlast⟩

theorem printed_drawContent (theme : Theme) (n : Nat) {l : Language} {p : Pane}
    (hl : p.language = some l) (content : Text) :
    (drawContent theme n (p.pieces content) content).flatMap Draw.printed =
      (content.map showTab).take n ++ blank (n - content.length) := by
  obtain ⟨last, hlast⟩ := inked_drawContent theme none n hl content
  rw [← Draw.map_fst_inked none, hlast, List.map_append, List.map_take, map_fst_colouredPieces,
    l.flatMap_text_pieces]
  simp [Function.comp_def]

/-- On the row of a line stands, behind its margin, the line without its end, a space for each tab,
clipped to the room there is or filled up to it. It comes out the same when the line is sliced at its
tokens, which never fails; and each character has the colour for the kind of the one token over it. -/
theorem line_is_shown_in_colours (s : Screen) (p : Playground) (row : Nat) {l : Language} {line : Text}
    (hl : p.pane.language = some l)
    (hline : p.pane.buffer.text.lines[row + p.pane.scroll]? = some line) :
    let content := line.trimLineEnd
    let tokens := p.pane.tokens content
    let room := s.width.toNat - (gutter p.settings.showLineNumbers).toNat
    ∃ before drawn, s.drawEditorRow p row = before ++ drawn ∧
      before.flatMap Draw.printed = margin p (row + p.pane.scroll) ∧
      drawTokens? p.theme room tokens content = some drawn ∧
      drawn.flatMap Draw.printed =
        (content.map showTab).take room ++ blank (room - content.length) ∧
      ∀ k c, content[k]? = some c →
        ∃ t ∈ tokens, t.Over content k ∧ (∀ t' ∈ tokens, t'.Over content k → t' = t) ∧
          (k < room → ∀ ink,
            (Draw.inked ink drawn)[k]? = some (showTab c, some (p.theme.ofWord t.kind))) := by
  intro content tokens room
  have htokens : tokens = l.tokens content := by
    show (p.pane.language.map (·.tokens content)).getD [] = _
    rw [hl]
    rfl
  have hflat : content = [] ++ (l.pieces content).flatMap (·.text) :=
    (l.flatMap_text_pieces content).symm
  let before : List Draw := .moveTo 0 (UInt16.ofNat row) :: .background p.theme.background ::
    drawMargin p (row + p.pane.scroll)
  let drawn := drawContent p.theme room (p.pane.pieces content) content
  have hbefore : before.flatMap Draw.printed = margin p (row + p.pane.scroll) :=
    printed_drawMargin p (row + p.pane.scroll)
  refine ⟨before, drawn, drawEditorRow_of_line hline, hbefore, drawTokens?_eq ..,
    printed_drawContent p.theme room hl content, fun k c hc => ?_⟩
  have hk : k < content.length := (List.getElem?_eq_some_iff.1 hc).1
  rw [hflat, List.nil_append] at hc
  obtain ⟨t, ht, hover, hcolour⟩ := exists_over_colouredPieces p.theme hflat hc
  rw [List.length_nil, Nat.zero_add] at hover
  rw [htokens]
  refine ⟨t, ht, hover, fun t' ht' hover' => ?_, fun hroom ink => ?_⟩
  · exact (l.tiles_tokens content).eq_of_over hk ht' ht hover' hover
  · obtain ⟨last, hlast⟩ := inked_drawContent p.theme ink room hl content
    rw [hlast, List.getElem?_append_left, List.getElem?_take_of_lt hroom, hcolour]
    exact (List.getElem?_eq_some_iff.1 ((List.getElem?_take_of_lt hroom).trans hcolour)).1

/-- A line with a tab, a letter of two bytes and CRLF, on a screen with room for two characters of it. -/
theorem line_is_shown_in_colours_clipped :
    let p := Playground.ofSource ['a', '\t', 'é', '\r', '\n', 'b'] {} (fun _ => .reports [⟨1, [], 1⟩])
      fun _ _ => ⟨[], .value []⟩
    let s : Screen := ⟨8, 24⟩
    p.pane.language = some .rhai ∧
    p.pane.buffer.text.lines[0 + p.pane.scroll]? = some ['a', '\t', 'é', '\r', '\n'] ∧
    ∃ before drawn, s.drawEditorRow p 0 = before ++ drawn ∧
      before.flatMap Draw.printed = ['E', ' ', ' ', ' ', '1', ' '] ∧
      drawn.flatMap Draw.printed = ['a', ' '] ∧
      ∃ t ∈ Language.rhai.tokens ['a', '\t', 'é'], t.Over ['a', '\t', 'é'] 1 ∧
        (Draw.inked none drawn)[1]? = some (' ', some (p.theme.ofWord t.kind)) := by
  intro p s
  have hl : p.pane.language = some .rhai := rfl
  have hline : p.pane.buffer.text.lines[0 + p.pane.scroll]? = some ['a', '\t', 'é', '\r', '\n'] := rfl
  obtain ⟨before, drawn, hrow, hbefore, -, hdrawn, hcolour⟩ := line_is_shown_in_colours s p 0 hl hline
  obtain ⟨t, ht, hover, -, hink⟩ := hcolour 1 '\t' rfl
  have hmargin : margin p (0 + p.pane.scroll) = ['E', ' ', ' ', ' ', '1', ' '] := by decide +kernel
  exact ⟨hl, hline, before, drawn, hrow, hbefore.trans hmargin, hdrawn, t, ht, hover, hink (by decide) none⟩

end Screen

end ScriptPad
