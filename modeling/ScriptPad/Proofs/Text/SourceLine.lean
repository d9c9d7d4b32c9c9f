import ScriptPad.Proofs.Text.Lines

/-!
Lines by their number. A line number counts LFs only, so a numbered line begins at the start of the text
or after an LF (`SourceLine`), while the rows of a pane follow every line end. A row begins at each
numbered line, but it is not the row of that number if lines before it end in some other way.
-/

namespace ScriptPad.Text

variable {t u v : Text} {c : Char} {n : Nat}

/-- `u` is the text before line `n`, lines being numbered from one by their LFs, and `v` is the rest. -/
structure SourceLine (t : Text) (n : Nat) (u v : Text) : Prop where
  split : t = u ++ v
  start : ∀ c ∈ u.getLast?, c = '\n'
  number : n = u.count '\n' + 1

/-- The lines of the text that have an end have an LF at it. -/
def NewlineEnded (t : Text) : Prop := ∀ a c b, t = a ++ c :: b → breaksAfter c b → c = '\n'

theorem exists_sourceLine (hpos : 1 ≤ n) (hle : n ≤ t.count '\n' + 1) : ∃ u v, SourceLine t n u v := by
  induction t generalizing n with
  | nil => exact ⟨[], [], rfl, by simp, Nat.le_antisymm hle hpos⟩
  | cons c t ih =>
      by_cases hn : n = 1
      · exact ⟨[], c :: t, rfl, by simp, hn⟩
      by_cases hc : c = '\n'
      · -- the LF ends the first line, so in the rest the numbers are less by one
        subst hc
        rw [List.count_cons_self] at hle
        obtain ⟨u, v, rfl, hstart, hnumber⟩ := ih (n := n - 1) (by omega) (by omega)
        refine ⟨'\n' :: u, v, rfl, fun d hd => ?_, by rw [List.count_cons_self]; omega⟩
        cases u with
        | nil => exact (Option.some.inj hd).symm
        | cons e u => exact hstart d (by simpa using hd)
      · rw [List.count_cons_of_ne hc] at hle
        obtain ⟨u, v, rfl, hstart, hnumber⟩ := ih hpos hle
        refine ⟨c :: u, v, rfl, fun d hd => ?_, by rw [List.count_cons_of_ne hc]; exact hnumber⟩
        cases u with
        | nil => exact absurd hnumber hn
        | cons e u => exact hstart d (by simpa using hd)

/-! ### Rows and LFs -/

theorem row_cons (c : Char) (t : Text) : row (c :: t) = row t + if breaksAfter c t then 1 else 0 := by
  by_cases hc : breaksAfter c t
  · rw [if_pos hc, row, (split_cons_of_breaks hc).1]
    rfl
  · rw [if_neg hc]
    cases hfull : fullLines t with
    | nil => rw [row, row, (split_cons_of_nil hc hfull).1, hfull]; rfl
    | cons l ls => rw [row, row, (split_cons_of_cons hc hfull).1, hfull]; rfl

theorem breaksAfter_newline (t : Text) : breaksAfter '\n' t := rfl

theorem count_le_row (t : Text) : t.count '\n' ≤ row t := by
  induction t with
  | nil => exact Nat.zero_le _
  | cons c t ih =>
      rw [row_cons]
      by_cases hc : c = '\n'
      · subst hc
        rw [List.count_cons_self, if_pos (breaksAfter_newline t)]
        omega
      · rw [List.count_cons_of_ne hc]
        omega

theorem newlineEnded_cons :
    NewlineEnded (c :: t) ↔ (breaksAfter c t → c = '\n') ∧ NewlineEnded t := by
  constructor
  · intro h
    exact ⟨h [] c t rfl, fun a d b ht => h (c :: a) d b (by rw [ht]; rfl)⟩
  · rintro ⟨hc, ht⟩ a d b heq
    cases a with
    | nil =>
        obtain ⟨rfl, rfl⟩ := List.cons.inj heq
        exact hc
    | cons e a => exact ht a d b (List.cons.inj heq).2

theorem newlineEnded_iff : NewlineEnded t ↔ row t = t.count '\n' := by
  induction t with
  | nil => exact iff_of_true (fun a c b h => by simp at h) rfl
  | cons c t ih =>
      have hle := count_le_row t
      rw [newlineEnded_cons, ih, row_cons]
      by_cases hc : c = '\n'
      · subst hc
        rw [List.count_cons_self, if_pos (breaksAfter_newline t), Nat.add_right_cancel_iff]
        exact and_iff_right fun _ => rfl
      · rw [List.count_cons_of_ne hc]
        by_cases hb : breaksAfter c t
        · rw [if_pos hb]
          simp only [hb, hc, forall_const, false_and, false_iff]
          omega
        · simp [hb]

instance (t : Text) : Decidable t.NewlineEnded := decidable_of_iff _ newlineEnded_iff.symm

/-! ### Where a numbered line begins -/

theorem col_of_start (h : ∀ c ∈ u.getLast?, c = '\n') : col u = 0 := by
  refine Nat.eq_zero_of_not_pos fun hpos => ?_
  have hne : lastLine u ≠ [] := List.ne_nil_of_length_pos hpos
  have hu : u = (fullLines u).flatten ++ lastLine u := by
    rw [← List.flatten_concat, fullLines_append_lastLine, flatten_lines]
  obtain ⟨d, hd⟩ := Option.ne_none_iff_exists'.1 (mt List.getLast?_eq_none_iff.1 hne)
  have hlast : u.getLast? = some d := by
    rw [hu, List.getLast?_append, hd]
    rfl
  obtain rfl := h d hlast
  exact not_isBreak_of_mem_lastLine '\n' (List.mem_of_getLast? hd) rfl

namespace SourceLine

theorem not_straddles (h : SourceLine t n u v) : ¬ Straddles u v := fun hs =>
  absurd (h.start '\r' hs.1) (by decide)

/-- Where a numbered line begins, a row does. -/
theorem lineStart_row (h : SourceLine t n u v) : row u < lineCount t ∧ lineStart t (row u) = u.length := by
  have hstart := lineStart_append h.not_straddles
  rw [col_of_start h.start, Nat.add_zero] at hstart
  rw [h.split]
  exact ⟨row_lt_lineCount h.not_straddles, hstart⟩

/-- It is the row of that number if the lines before it end in LF. -/
theorem lineStart_eq_iff (h : SourceLine t n u v) :
    n - 1 < lineCount t ∧ (lineStart t (n - 1) = u.length ↔ NewlineEnded u) := by
  have hnumber : n - 1 = u.count '\n' := by rw [h.number, Nat.add_sub_cancel]
  have hlt : n - 1 < lineCount t :=
    Nat.lt_of_le_of_lt (hnumber ▸ count_le_row u) h.lineStart_row.1
  refine ⟨hlt, ?_⟩
  rw [newlineEnded_iff, ← hnumber]
  constructor
  · intro hstart
    obtain ⟨a, b, hcut, hrow, hcol, hstraddles⟩ := exists_append_of_lt_lineCount hlt
    have hstart' := lineStart_append hstraddles
    rw [← hcut, hrow, hcol, Nat.add_zero, hstart] at hstart'
    obtain ⟨rfl, -⟩ := List.append_inj (h.split.symm.trans hcut) hstart'
    exact hrow
  · intro hrow
    rw [← hrow]
    exact h.lineStart_row.2

end SourceLine

/-- The last line of a text by its number: a final LF ends a line and starts none. -/
theorem sourceLineCount_le (t : Text) : max t.sourceLineCount 1 ≤ t.count '\n' + 1 := by
  rw [sourceLineCount]
  split
  · omega
  · omega

end ScriptPad.Text
