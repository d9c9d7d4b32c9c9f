import ScriptPad.Screen.Frame

/-!
What is left on a terminal by drawing commands. A list of commands is a list of strokes: each move
begins one, and all that is printed up to the next move is its text. A canvas has one character in
each cell, which leaves colours out; lines do not wrap, so what does not fit is written over the last
cell of the row, and a move beyond an edge ends at the edge.

Two canvases that have received the same commands agree in a cell once a stroke has gone over it,
whatever was there before. That is because they agree on the cell to be written next from the first
move on, and no command reads a cell.
-/

namespace ScriptPad

/-- A text printed from a cell on. -/
structure Stroke where
  col : UInt16
  row : UInt16
  text : Text
  deriving DecidableEq, Repr

namespace Draw

def printed : Draw → Text
  | print t => t
  | _ => []

def isMove : Draw → Bool
  | moveTo _ _ => true
  | _ => false

/-- What is printed before the first move. -/
def lead : List Draw → Text
  | [] => []
  | d :: ds => if d.isMove then [] else d.printed ++ lead ds

/-- The strokes that begin with the moves. -/
def strokes : List Draw → List Stroke
  | [] => []
  | moveTo col row :: ds => ⟨col, row, lead ds⟩ :: strokes ds
  | _ :: ds => strokes ds

variable {d : Draw} {ds es : List Draw}

theorem lead_cons (h : d.isMove = false) : lead (d :: ds) = d.printed ++ lead ds := by
  simp [lead, h]

theorem strokes_cons (h : d.isMove = false) : strokes (d :: ds) = strokes ds := by
  cases d with
  | moveTo col row => cases h
  | _ => rfl

theorem lead_append (h : lead es = []) : lead (ds ++ es) = lead ds := by
  induction ds with
  | nil => exact h
  | cons d ds ih => simp only [List.cons_append, lead, ih]

/-- Commands that print nothing before they move begin with strokes of their own. -/
theorem strokes_append (h : lead es = []) : strokes (ds ++ es) = strokes ds ++ strokes es := by
  induction ds with
  | nil => rfl
  | cons d ds ih =>
      cases d with
      | moveTo col row => simp only [List.cons_append, strokes, lead_append h, ih]
      | _ => exact ih

/-- Strokes after one another, where none prints before it moves. -/
theorem strokes_flatMap {ι : Type} {f : ι → List Draw} (h : ∀ i, lead (f i) = []) (is : List ι) :
    strokes (is.flatMap f) = is.flatMap fun i => strokes (f i) := by
  have hlead : ∀ is : List ι, lead (is.flatMap f) = [] := by
    intro is
    induction is with
    | nil => rfl
    | cons i is ih => rw [List.flatMap_cons, lead_append ih, h i]
  induction is with
  | nil => rfl
  | cons i is ih => rw [List.flatMap_cons, List.flatMap_cons, strokes_append (hlead is), ih]

/-- All that is printed is in the strokes, but for what is printed before the first of them. -/
theorem lead_append_texts (ds : List Draw) :
    lead ds ++ (strokes ds).flatMap (·.text) = ds.flatMap printed := by
  induction ds with
  | nil => rfl
  | cons d ds ih =>
      cases d with
      | moveTo col row => exact ih
      | _ => rw [lead_cons rfl, strokes_cons rfl, List.append_assoc, ih, List.flatMap_cons]

/-- Commands that stay where they are and print a number of characters. -/
structure Prints (n : Nat) (ds : List Draw) : Prop where
  still : ∀ d ∈ ds, d.isMove = false
  length : (ds.flatMap printed).length = n

theorem Prints.append {m n : Nat} (hd : Prints m ds) (he : Prints n es) :
    Prints (m + n) (ds ++ es) where
  still := List.forall_mem_append.2 ⟨hd.still, he.still⟩
  length := by simp only [List.flatMap_append, List.length_append, hd.length, he.length]

theorem strokes_of_still (h : ∀ d ∈ ds, d.isMove = false) : strokes ds = [] := by
  induction ds with
  | nil => rfl
  | cons d ds ih =>
      obtain ⟨hd, hds⟩ := List.forall_mem_cons.1 h
      rw [strokes_cons hd, ih hds]

theorem Prints.lead_eq {n : Nat} (h : Prints n ds) : (lead ds).length = n := by
  have htexts := lead_append_texts ds
  rw [strokes_of_still h.still, List.flatMap_nil, List.append_nil] at htexts
  rw [htexts, h.length]

/-- Commands that draw strokes in the given rows, each from the first column on and over at least the
given width. -/
structure Covers (width : Nat) (rows : List UInt16) (ds : List Draw) : Prop where
  lead : lead ds = []
  rows : (strokes ds).map (·.row) = rows
  full : ∀ k ∈ strokes ds, k.col = 0 ∧ width ≤ k.text.length

variable {width : Nat} {rows rows' : List UInt16}

theorem covers_nil (width : Nat) : Covers width [] [] := ⟨rfl, rfl, by simp [strokes]⟩

theorem Covers.append (hd : Covers width rows ds) (he : Covers width rows' es) :
    Covers width (rows ++ rows') (ds ++ es) where
  lead := (lead_append he.lead).trans hd.lead
  rows := by rw [strokes_append he.lead, List.map_append, hd.rows, he.rows]
  full := by
    rw [strokes_append he.lead]
    exact List.forall_mem_append.2 ⟨hd.full, he.full⟩

/-- Commands for one row are one stroke. -/
theorem Covers.strokes_eq {row : UInt16} (h : Covers width [row] ds) :
    strokes ds = [⟨0, row, ds.flatMap printed⟩] := by
  obtain ⟨k, hk, hrow⟩ := List.map_eq_singleton_iff.1 h.rows
  have htext := lead_append_texts ds
  have hcol := (h.full k (by simp [hk])).1
  rw [h.lead, hk] at htext
  rw [hk, ← htext, ← hrow, ← hcol]
  simp

theorem covers_flatMap {ι : Type} {row : ι → UInt16} {f : ι → List Draw} (is : List ι)
    (h : ∀ i, Covers width [row i] (f i)) : Covers width (is.map row) (is.flatMap f) := by
  induction is with
  | nil => exact covers_nil width
  | cons i is ih => exact (h i).append ih

/-- One row, with enough printed on it. -/
theorem Prints.covers {n : Nat} (h : Prints n ds) (hn : width ≤ n) (row : UInt16) :
    Covers width [row] (moveTo 0 row :: ds) where
  lead := rfl
  rows := by simp [strokes, strokes_of_still h.still]
  full := by simp [strokes, strokes_of_still h.still, h.lead_eq, hn]

end Draw

/-! ### The canvas -/

/-- The characters in the cells, by row and column, and the cell that is written next. -/
structure Canvas where
  cells : Nat → Nat → Char
  row : Nat
  col : Nat

namespace Canvas

/-- Writes the next cell. In the last column it stays there. -/
def put (s : Screen) (k : Canvas) (c : Char) : Canvas where
  cells r x := if r = k.row ∧ x = k.col then c else k.cells r x
  row := k.row
  col := min (k.col + 1) (s.width.toNat - 1)

def draw (s : Screen) (k : Canvas) : Draw → Canvas
  | .moveTo col row =>
    { k with row := min row.toNat (s.height.toNat - 1), col := min col.toNat (s.width.toNat - 1) }
  | d => d.printed.foldl (put s) k

def paint (s : Screen) (k : Canvas) (ds : List Draw) : Canvas := ds.foldl (draw s) k

/-- Two canvases with the same cell to be written next and the same character in one cell. -/
structure SameAt (k : Canvas) (r x : Nat) (k' : Canvas) : Prop where
  row : k.row = k'.row
  col : k.col = k'.col
  cell : k.cells r x = k'.cells r x

variable {s : Screen} {k k' : Canvas} {r x : Nat}

theorem SameAt.put (h : k.SameAt r x k') (c : Char) : (k.put s c).SameAt r x (k'.put s c) where
  row := h.row
  col := by simp [Canvas.put, h.col]
  cell := by simp [Canvas.put, h.row, h.col, h.cell]

theorem SameAt.print (h : k.SameAt r x k') (t : Text) :
    (t.foldl (Canvas.put s) k).SameAt r x (t.foldl (Canvas.put s) k') := by
  induction t generalizing k k' with
  | nil => exact h
  | cons c t ih => exact ih (h.put c)

theorem SameAt.draw (h : k.SameAt r x k') (d : Draw) : (k.draw s d).SameAt r x (k'.draw s d) := by
  cases d with
  | moveTo col row => exact ⟨rfl, rfl, h.cell⟩
  | _ => exact h.print _

theorem SameAt.paint (h : k.SameAt r x k') (ds : List Draw) :
    (k.paint s ds).SameAt r x (k'.paint s ds) := by
  induction ds generalizing k k' with
  | nil => exact h
  | cons d ds ih => exact ih (h.draw d)

@[simp] theorem row_print (t : Text) : (t.foldl (put s) k).row = k.row := by
  induction t generalizing k with
  | nil => rfl
  | cons c t ih => exact ih

theorem col_put (h : k.col + 1 < s.width.toNat) (c : Char) : (k.put s c).col = k.col + 1 := by
  rw [put, Nat.min_eq_left]
  omega

theorem col_print {t : Text} (h : k.col + t.length < s.width.toNat) :
    (t.foldl (put s) k).col = k.col + t.length := by
  induction t generalizing k with
  | nil => rfl
  | cons c t ih =>
      rw [List.length_cons] at h ⊢
      have hcol : (k.put s c).col = k.col + 1 := col_put (by omega) c
      rw [List.foldl_cons, ih (by omega), hcol]
      omega

/-- A text that reaches a cell, from the same cell on. -/
theorem sameAt_print (hrow : k.row = k'.row) (hcol : k.col = k'.col) {t : Text} (hle : k.col ≤ x)
    (hlt : x < k.col + t.length) (hx : x < s.width.toNat) :
    (t.foldl (put s) k).SameAt k.row x (t.foldl (put s) k') := by
  induction t generalizing k k' with
  | nil => exact absurd hlt (by simpa using hle)
  | cons c t ih =>
      rw [List.length_cons] at hlt
      have hcol' : (k.put s c).col = (k'.put s c).col := by simp [put, hcol]
      rcases Nat.eq_or_lt_of_le hle with heq | hless
      · have hput : (k.put s c).SameAt k.row x (k'.put s c) :=
          ⟨hrow, hcol', by simp [put, ← hrow, ← hcol, heq]⟩
        exact hput.print t
      · have hnext : (k.put s c).col = k.col + 1 := col_put (by omega) c
        exact ih (k := k.put s c) hrow hcol' (by omega) (by omega)

/-- The same for all that is printed before the first move. -/
theorem sameAt_lead (hrow : k.row = k'.row) (hcol : k.col = k'.col) {ds : List Draw}
    (hle : k.col ≤ x) (hlt : x < k.col + (Draw.lead ds).length) (hx : x < s.width.toNat) :
    (k.paint s ds).SameAt k.row x (k'.paint s ds) := by
  induction ds generalizing k k' with
  | nil => exact absurd hlt (by simpa [Draw.lead] using hle)
  | cons d ds ih =>
      cases hd : d.isMove with
      | true =>
          rw [Draw.lead, hd, if_pos rfl] at hlt
          exact absurd hlt (by simpa using hle)
      | false =>
          rw [Draw.lead_cons hd, List.length_append] at hlt
          have hdraw : ∀ k : Canvas, k.draw s d = d.printed.foldl (put s) k := by
            cases d with
            | moveTo col row => cases hd
            | _ => exact fun _ => rfl
          show ((k.draw s d).paint s ds).SameAt k.row x ((k'.draw s d).paint s ds)
          rw [hdraw, hdraw]
          -- either this command reaches the cell, or the rest starts short of it on both canvases
          by_cases hhere : x < k.col + d.printed.length
          · exact (sameAt_print hrow hcol hle hhere hx).paint ds
          · have hend : k.col + d.printed.length < s.width.toNat := by omega
            have hcol' : (d.printed.foldl (put s) k).col = (d.printed.foldl (put s) k').col := by
              rw [col_print hend, col_print (hcol ▸ hend), hcol]
            have hnext := ih (by rw [row_print, row_print, hrow]) hcol'
              (by rw [col_print hend]; omega) (by rw [col_print hend]; omega)
            rwa [row_print] at hnext

/-- A stroke from the first column on determines the cells that it reaches. -/
theorem sameAt_of_mem_strokes {ds : List Draw} {a : Stroke} (ha : a ∈ Draw.strokes ds)
    (hcol : a.col = 0) (hx : x < s.width.toNat) (hlt : x < a.text.length) :
    (k.paint s ds).SameAt (min a.row.toNat (s.height.toNat - 1)) x (k'.paint s ds) := by
  induction ds generalizing k k' with
  | nil => cases ha
  | cons d ds ih =>
      cases d with
      | moveTo col row =>
          rcases List.mem_cons.1 ha with rfl | ha
          · obtain rfl : col = 0 := hcol
            let moved (k : Canvas) := k.draw s (.moveTo 0 row)
            have hstart : (moved k).col = 0 := Nat.zero_min _
            have hsame : (moved k).row = (moved k').row ∧ (moved k).col = (moved k').col := ⟨rfl, rfl⟩
            exact sameAt_lead hsame.1 hsame.2 (by omega) (by rw [hstart, Nat.zero_add]; exact hlt) hx
          · exact ih ha
      | _ => exact ih ha

/-! ### What a stroke leaves behind -/

/-- The row that a stroke goes to. -/
def strokeRow (s : Screen) (a : Stroke) : Nat := min a.row.toNat (s.height.toNat - 1)

def stroke (s : Screen) (k : Canvas) (a : Stroke) : Canvas :=
  a.text.foldl (put s) { k with row := strokeRow s a, col := min a.col.toNat (s.width.toNat - 1) }

/-- Painting is printing what comes before the first move and then drawing the strokes. -/
theorem paint_eq (s : Screen) (k : Canvas) (ds : List Draw) :
    k.paint s ds = (Draw.strokes ds).foldl (stroke s) ((Draw.lead ds).foldl (put s) k) := by
  induction ds generalizing k with
  | nil => rfl
  | cons d ds ih =>
      cases d with
      | moveTo col row => exact ih _
      | _ =>
          rw [Draw.strokes_cons rfl, Draw.lead_cons rfl, List.foldl_append]
          exact ih _

theorem cells_print_of_ne (h : r ≠ k.row) (t : Text) : (t.foldl (put s) k).cells r x = k.cells r x := by
  induction t generalizing k with
  | nil => rfl
  | cons c t ih =>
      have hput : (k.put s c).cells r x = k.cells r x := if_neg fun hcell => h hcell.1
      exact (ih (k := k.put s c) h).trans hput

theorem cells_print_of_lt {t : Text} (ht : k.col + t.length ≤ s.width.toNat) (hx : x < k.col) :
    (t.foldl (put s) k).cells r x = k.cells r x := by
  induction t generalizing k with
  | nil => rfl
  | cons c t ih =>
      rw [List.length_cons] at ht
      have hput : (k.put s c).cells r x = k.cells r x :=
        if_neg fun hcell => Nat.ne_of_lt hx hcell.2
      have hcol : (k.put s c).col = min (k.col + 1) (s.width.toNat - 1) := rfl
      exact (ih (k := k.put s c) (by omega) (by omega)).trans hput

/-- A text that fits into the row stands in its cells. -/
theorem cells_print {t : Text} {i : Nat} (ht : k.col + t.length ≤ s.width.toNat) (hi : i < t.length) :
    (t.foldl (put s) k).cells k.row (k.col + i) = t[i] := by
  induction t generalizing k i with
  | nil => cases hi
  | cons c t ih =>
      rw [List.length_cons] at ht hi
      have hcol : (k.put s c).col = min (k.col + 1) (s.width.toNat - 1) := rfl
      have hput : (k.put s c).cells k.row k.col = c := if_pos ⟨rfl, rfl⟩
      cases i with
      | zero =>
          cases t with
          | nil => exact hput
          | cons d t =>
              rw [List.length_cons] at ht
              have hkeep : ((d :: t).foldl (put s) (k.put s c)).cells k.row k.col =
                  (k.put s c).cells k.row k.col :=
                cells_print_of_lt (by rw [List.length_cons]; omega) (by omega)
              exact hkeep.trans hput
      | succ i =>
          have hnext : (k.put s c).col = k.col + 1 := col_put (by omega) c
          have hcell := ih (k := k.put s c) (i := i) (by omega) (by omega)
          rw [hnext, Nat.add_right_comm] at hcell
          exact hcell

theorem cells_strokes_of_ne {as : List Stroke} (h : ∀ a ∈ as, a.text = [] ∨ strokeRow s a ≠ r) :
    (as.foldl (stroke s) k).cells r x = k.cells r x := by
  induction as generalizing k with
  | nil => rfl
  | cons a as ih =>
      have hone : (k.stroke s a).cells r x = k.cells r x := by
        rcases h a List.mem_cons_self with htext | hrow
        · rw [stroke, htext]
          rfl
        · exact cells_print_of_ne (Ne.symm hrow) a.text
      rw [List.foldl_cons, ih fun b hb => h b (List.mem_cons_of_mem a hb), hone]

/-- Where the strokes go to rows of their own, but for some at the end that print nothing, the text of
each that fits is there in the end. -/
theorem cells_paint {ds : List Draw} {as silent : List Stroke} (hstrokes : Draw.strokes ds = as ++ silent)
    (hsilent : ∀ b ∈ silent, b.text = []) (hrows : (as.map (strokeRow s)).Nodup) {a : Stroke}
    (ha : a ∈ as) (hcol : a.col = 0) (hfits : a.text.length ≤ s.width.toNat) {x : Nat}
    (hx : x < a.text.length) : (k.paint s ds).cells (strokeRow s a) x = a.text[x] := by
  obtain ⟨before, after, rfl⟩ := List.append_of_mem ha
  rw [List.map_append, List.map_cons] at hrows
  have hlater : ∀ b ∈ after ++ silent, b.text = [] ∨ strokeRow s b ≠ strokeRow s a := by
    intro b hb
    rcases List.mem_append.1 hb with hb | hb
    · refine .inr fun heq => ?_
      have hnot := (List.nodup_cons.1 (List.nodup_append.1 hrows).2.1).1
      exact hnot (heq ▸ List.mem_map_of_mem hb)
    · exact .inl (hsilent b hb)
  rw [paint_eq, hstrokes, List.append_assoc, List.foldl_append, List.cons_append, List.foldl_cons,
    cells_strokes_of_ne hlater]
  have hstart : min a.col.toNat (s.width.toNat - 1) = 0 := by
    rw [hcol]
    exact Nat.zero_min _
  rw [stroke, hstart]
  generalize List.foldl (stroke s) _ before = k'
  have hcell := cells_print (s := s) (k := { k' with row := strokeRow s a, col := 0 }) (i := x)
    (t := a.text) (by rw [Nat.zero_add]; exact hfits) hx
  rwa [Nat.zero_add] at hcell

end Canvas

end ScriptPad
