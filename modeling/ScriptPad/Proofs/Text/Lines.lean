import ScriptPad.Text.Line

/-!
Lines of a text that is put together from two. The last line of the first part runs on into the first
line of the second, and all other lines stay as they are; the only exception is a CR that meets an LF,
for then two line ends become one.

The place after a text `a` is on line `row a` at column `col a`. By the law above it is so in every
longer text `a ++ b` too, as long as no CR meets an LF: this is what positions by line and column
mean, and all that the proofs about buffers and cursors use of `lines`.
-/

namespace ScriptPad.Text

/-- A CR at the end of one text meets an LF at the start of the next. -/
def Straddles (a b : Text) : Prop := a.getLast? = some '\r' ∧ b.head? = some '\n'

/-- The lines that have an end. -/
def fullLines (t : Text) : List Text := (lines t).dropLast

/-- The line that has none. -/
def lastLine (t : Text) : Text := (lines t).getLast (lines_ne_nil t)

def firstLine (t : Text) : Text := (lines t).head (lines_ne_nil t)

/-- The line on which a text ends. -/
def row (t : Text) : Nat := (fullLines t).length

/-- The column at which a text ends. -/
def col (t : Text) : Nat := (lastLine t).length

theorem fullLines_append_lastLine (t : Text) : fullLines t ++ [lastLine t] = lines t :=
  List.dropLast_concat_getLast (lines_ne_nil t)

theorem firstLine_cons_tail (t : Text) : firstLine t :: (lines t).tail = lines t :=
  List.cons_head_tail (lines_ne_nil t)

theorem lineCount_eq (t : Text) : lineCount t = row t + 1 := by
  rw [lineCount, ← fullLines_append_lastLine]
  simp [row]

@[simp] theorem fullLines_nil : fullLines [] = [] := rfl

@[simp] theorem lastLine_nil : lastLine [] = [] := rfl

@[simp] theorem row_nil : row [] = 0 := rfl

@[simp] theorem col_nil : col [] = 0 := rfl

theorem lines_eq_iff {t : Text} {ls : List Text} {l : Text} :
    lines t = ls ++ [l] ↔ fullLines t = ls ∧ lastLine t = l := by
  rw [← fullLines_append_lastLine]
  constructor
  · intro h
    exact ⟨List.append_inj_left' h rfl, by simpa using List.append_inj_right' h rfl⟩
  · rintro ⟨rfl, rfl⟩
    rfl

/-! ### One more character in front -/

theorem isBreak_of_breaksAfter {c : Char} {t : Text} (h : breaksAfter c t) : isBreak c := by
  simp only [breaksAfter, Bool.and_eq_true] at h
  exact h.1

theorem breaksAfter_of_append {c : Char} {a b : Text} (h : breaksAfter c (a ++ b)) :
    breaksAfter c a := by
  cases a with
  | nil => simp [breaksAfter, isBreak_of_breaksAfter h]
  | cons d a => exact h

theorem lines_cons_of_breaks {c : Char} {t : Text} (h : breaksAfter c t) :
    lines (c :: t) = [c] :: lines t := by
  simp [lines, h]

theorem lines_cons_of_not_breaks {c : Char} {t : Text} (h : ¬ breaksAfter c t) :
    lines (c :: t) = consFirst c (lines t) := by
  simp [lines, h]

theorem split_cons_of_breaks {c : Char} {t : Text} (h : breaksAfter c t) :
    fullLines (c :: t) = [c] :: fullLines t ∧ lastLine (c :: t) = lastLine t := by
  rw [← lines_eq_iff, lines_cons_of_breaks h, ← fullLines_append_lastLine t]
  rfl

theorem split_cons_of_nil {c : Char} {t : Text} (h : ¬ breaksAfter c t)
    (hfull : fullLines t = []) :
    fullLines (c :: t) = [] ∧ lastLine (c :: t) = c :: lastLine t := by
  rw [← lines_eq_iff, lines_cons_of_not_breaks h, ← fullLines_append_lastLine t, hfull]
  rfl

theorem split_cons_of_cons {c : Char} {t l : Text} {ls : List Text} (h : ¬ breaksAfter c t)
    (hfull : fullLines t = l :: ls) :
    fullLines (c :: t) = (c :: l) :: ls ∧ lastLine (c :: t) = lastLine t := by
  rw [← lines_eq_iff, lines_cons_of_not_breaks h, ← fullLines_append_lastLine t, hfull]
  rfl

/-- The line without an end holds no character that would end it. -/
theorem not_isBreak_of_mem_lastLine {t : Text} : ∀ c ∈ lastLine t, ¬ isBreak c := by
  induction t with
  | nil => simp
  | cons d t ih =>
      by_cases h : breaksAfter d t
      · rwa [(split_cons_of_breaks h).2]
      · cases hfull : fullLines t with
        | cons l ls => rwa [(split_cons_of_cons h hfull).2]
        | nil =>
            rw [(split_cons_of_nil h hfull).2]
            have ht : lastLine t = t := by
              have := flatten_lines t
              rw [← fullLines_append_lastLine, hfull] at this
              simpa using this
            intro c hc
            rcases List.mem_cons.1 hc with rfl | hc
            · intro hb
              -- only a CR before an LF fails to end a line, and `t` holds no LF
              obtain ⟨-, hhead⟩ : c = '\r' ∧ t.head? = some '\n' := by
                simpa [breaksAfter, hb] using h
              obtain ⟨t', rfl⟩ := List.head?_eq_some_iff.1 hhead
              exact ih '\n' (by simp [ht]) rfl
            · exact ih c hc

/-! ### Two texts one after the other -/

theorem not_straddles_nil_left (b : Text) : ¬ Straddles [] b := fun h => by simp [Straddles] at h

theorem not_straddles_nil_right (a : Text) : ¬ Straddles a [] := fun h => by simp [Straddles] at h

theorem Straddles.cons {d : Char} {a b : Text} (h : Straddles (d :: a) b) (c : Char) :
    Straddles (c :: d :: a) b :=
  ⟨by simpa using h.1, h.2⟩

theorem Straddles.of_cons {c d : Char} {a b : Text} (h : Straddles (c :: d :: a) b) :
    Straddles (d :: a) b :=
  ⟨by simpa using h.1, h.2⟩

/-- What comes later decides over a line end only where a CR meets an LF. -/
theorem breaksAfter_append {c : Char} {a b : Text} (h : ¬ Straddles (c :: a) b) :
    breaksAfter c (a ++ b) = breaksAfter c a := by
  cases a with
  | cons d a => rfl
  | nil =>
      by_cases hc : c = '\r'
      · have hb : b.head? ≠ some '\n' := fun hb => h ⟨by simp [hc], hb⟩
        simp [breaksAfter, hb]
      · simp [breaksAfter, hc]

theorem not_straddles_of_cons {c : Char} {a b : Text} (h : ¬ Straddles (c :: a) b) :
    ¬ Straddles a b := by
  cases a with
  | nil => exact not_straddles_nil_left b
  | cons d a => exact fun hs => h (hs.cons c)

theorem lines_append {a b : Text} (h : ¬ Straddles a b) :
    lines (a ++ b) = fullLines a ++ (lastLine a ++ firstLine b) :: (lines b).tail := by
  induction a with
  | nil => simp [firstLine_cons_tail]
  | cons c a ih =>
      have hbreak := breaksAfter_append h
      have hlines := ih (not_straddles_of_cons h)
      by_cases hc : breaksAfter c a
      · rw [List.cons_append, lines_cons_of_breaks (by rwa [hbreak]), hlines,
          (split_cons_of_breaks hc).1, (split_cons_of_breaks hc).2]
        rfl
      · rw [List.cons_append, lines_cons_of_not_breaks (by rwa [hbreak]), hlines]
        cases hfull : fullLines a with
        | nil =>
            rw [(split_cons_of_nil hc hfull).1, (split_cons_of_nil hc hfull).2]
            rfl
        | cons l ls =>
            rw [(split_cons_of_cons hc hfull).1, (split_cons_of_cons hc hfull).2]
            rfl

theorem split_append_of_nil {a b : Text} (h : ¬ Straddles a b) (hfull : fullLines b = []) :
    fullLines (a ++ b) = fullLines a ∧ lastLine (a ++ b) = lastLine a ++ lastLine b := by
  have hb : lines b = [lastLine b] := by rw [← fullLines_append_lastLine, hfull, List.nil_append]
  rw [← lines_eq_iff, lines_append h]
  simp [firstLine, hb]

theorem split_append_of_cons {a b l : Text} {ls : List Text} (h : ¬ Straddles a b)
    (hfull : fullLines b = l :: ls) :
    fullLines (a ++ b) = fullLines a ++ (lastLine a ++ l) :: ls ∧
      lastLine (a ++ b) = lastLine b := by
  have hb : lines b = l :: (ls ++ [lastLine b]) := by
    rw [← fullLines_append_lastLine, hfull, List.cons_append]
  rw [← lines_eq_iff, lines_append h]
  simp [firstLine, hb]

theorem row_append {a b : Text} (h : ¬ Straddles a b) : row (a ++ b) = row a + row b := by
  cases hfull : fullLines b with
  | nil => simp [row, (split_append_of_nil h hfull).1, hfull]
  | cons l ls => simp [row, (split_append_of_cons h hfull).1, hfull]

theorem row_lt_lineCount {a b : Text} (h : ¬ Straddles a b) : row a < lineCount (a ++ b) := by
  rw [lineCount_eq, row_append h]
  omega

/-- The line that the place between two texts is on. -/
theorem getElem?_lines_append {a b : Text} (h : ¬ Straddles a b) :
    (lines (a ++ b))[row a]? = some (lastLine a ++ firstLine b) := by
  rw [lines_append h, row, List.getElem?_append_right (Nat.le_refl _)]
  simp

/-- The place between two texts has as many characters before it as the first text. -/
theorem lineStart_append {a b : Text} (h : ¬ Straddles a b) :
    lineStart (a ++ b) (row a) + col a = a.length := by
  have htake : (lines (a ++ b)).take (row a) = fullLines a := by
    rw [lines_append h, row, List.take_left]
  have hflat := congrArg List.length (flatten_lines a)
  rw [← fullLines_append_lastLine, List.flatten_append, List.length_append] at hflat
  rw [lineStart, htake]
  simpa [col] using hflat

theorem split_of_not_isBreak {s : Text} (h : ∀ c ∈ s, ¬ isBreak c) :
    fullLines s = [] ∧ lastLine s = s := by
  induction s with
  | nil => exact ⟨rfl, rfl⟩
  | cons c s ih =>
      obtain ⟨hfull, hlast⟩ := ih fun d hd => h d (List.mem_cons_of_mem c hd)
      have hc : ¬ breaksAfter c s := fun hb =>
        h c List.mem_cons_self (isBreak_of_breaksAfter hb)
      obtain ⟨hfull', hlast'⟩ := split_cons_of_nil hc hfull
      exact ⟨hfull', by rw [hlast', hlast]⟩

theorem not_straddles_of_not_isBreak {a s : Text} (h : ∀ c ∈ s, ¬ isBreak c) :
    ¬ Straddles a s := by
  rintro ⟨-, hs⟩
  exact h '\n' (List.mem_of_mem_head? hs) rfl

/-- A text without line ends moves the place along its line. -/
theorem place_append_of_not_isBreak (a : Text) {s : Text} (h : ∀ c ∈ s, ¬ isBreak c) :
    row (a ++ s) = row a ∧ col (a ++ s) = col a + s.length := by
  obtain ⟨hfull, hlast⟩ := split_of_not_isBreak h
  have hsplit := split_append_of_nil (not_straddles_of_not_isBreak (a := a) h) hfull
  simp [row, col, hsplit, hlast]

/-- A line end moves the place to the start of the next line. -/
theorem place_append_of_isBreak {a : Text} {c : Char} (hc : isBreak c) (h : ¬ Straddles a [c]) :
    row (a ++ [c]) = row a + 1 ∧ col (a ++ [c]) = 0 := by
  have hfull : fullLines [c] = [[c]] ∧ lastLine [c] = [] :=
    split_cons_of_breaks (by simp [breaksAfter, hc])
  have hsplit := split_append_of_cons h hfull.1
  simp [row, col, hsplit, hfull.2]

/-! ### The start of a line -/

theorem exists_append_of_lt_lineCount {t : Text} {i : Nat} (h : i < lineCount t) :
    ∃ a b, t = a ++ b ∧ row a = i ∧ col a = 0 ∧ ¬ Straddles a b := by
  induction t generalizing i with
  | nil =>
      have hi : i = 0 := by simpa [lineCount, lines] using h
      exact ⟨[], [], rfl, hi.symm, rfl, not_straddles_nil_left _⟩
  | cons c t ih =>
      cases i with
      | zero => exact ⟨[], c :: t, rfl, rfl, rfl, not_straddles_nil_left _⟩
      | succ i =>
          by_cases hc : breaksAfter c t
          · have hi : i < lineCount t := by simpa [lineCount, lines_cons_of_breaks hc] using h
            obtain ⟨a, b, rfl, hrow, hcol, hs⟩ := ih hi
            have hca := breaksAfter_of_append hc
            refine ⟨c :: a, b, rfl, ?_, ?_, ?_⟩
            · simp [row, (split_cons_of_breaks hca).1, ← hrow]
            · simp [col, (split_cons_of_breaks hca).2, ← hcol]
            · intro hstraddle
              cases a with
              | cons d a => exact hs hstraddle.of_cons
              | nil =>
                  -- then `c` is a CR before an LF, which ends no line
                  obtain rfl : c = '\r' := by simpa using hstraddle.1
                  simp [breaksAfter, hstraddle.2] at hc
          · have hi : i + 1 < lineCount t := by
              rw [lineCount, lines_cons_of_not_breaks hc] at h
              cases hlines : lines t with
              | nil => exact absurd hlines (lines_ne_nil t)
              | cons l ls => simpa [hlines, lineCount, consFirst] using h
            obtain ⟨a, b, rfl, hrow, hcol, hs⟩ := ih hi
            cases a with
            | nil => simp at hrow
            | cons d a =>
                cases hfull : fullLines (d :: a) with
                | nil => simp [row, hfull] at hrow
                | cons l ls =>
                    have hca : ¬ breaksAfter c (d :: a) := hc
                    have hsplit := split_cons_of_cons hca hfull
                    refine ⟨c :: d :: a, b, rfl, ?_, ?_, fun hstraddle => hs hstraddle.of_cons⟩
                    · simpa [row, hsplit.1, hfull] using hrow
                    · simpa [col, hsplit.2] using hcol

end ScriptPad.Text
