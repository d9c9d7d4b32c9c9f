import Mathlib.Data.List.Induction
import ScriptPad.Document.Buffer
import ScriptPad.Proofs.Text.Lines

/-!
Texts in which LF is the only line end. Their lines are what stands between the LFs, each with the LF
that ends it, so line starts and line lengths can be read off the rows without a word about the other
line ends: row `i` starts after the rows before it and one LF for each of them.
-/

namespace ScriptPad.Text

/-- LF is the only character of the text that ends a line. -/
def OnlyNewlines (t : Text) : Prop := ∀ c ∈ t, isBreak c → c = '\n'

-- not left to inference, which may choose to go through all characters there are
instance (t : Text) : Decidable t.OnlyNewlines :=
  List.decidableBAll (fun c => isBreak c → c = '\n') t

/-- What stands between the LFs of a text. -/
def rows (t : Text) : List Text := t.splitAt '\n'

/-- The number of characters before row `i`: the rows before it, each with its LF. -/
def rowStart (t : Text) (i : Nat) : Nat := (((rows t).take i).flatMap (· ++ ['\n'])).length

/-- The length of row `i`; zero once the rows run out. -/
def rowLength (t : Text) (i : Nat) : Nat := ((rows t)[i]?.getD []).length

@[simp] theorem onlyNewlines_append {a b : Text} :
    OnlyNewlines (a ++ b) ↔ a.OnlyNewlines ∧ b.OnlyNewlines := by
  simp only [OnlyNewlines, List.mem_append, or_imp, forall_and]

theorem onlyNewlines_cons {c : Char} {t : Text} :
    OnlyNewlines (c :: t) ↔ (isBreak c → c = '\n') ∧ t.OnlyNewlines := by
  simp [OnlyNewlines]

theorem onlyNewlines_of_not_isBreak {s : Text} (h : ∀ c ∈ s, ¬ isBreak c) : s.OnlyNewlines :=
  fun c hc hb => absurd hb (h c hc)

theorem OnlyNewlines.not_straddles {a : Text} (h : a.OnlyNewlines) (b : Text) :
    ¬ Straddles a b := by
  rintro ⟨hcr, -⟩
  exact absurd (h '\r' (List.mem_of_getLast? hcr) rfl) (by decide)

/-- The rows of a text are its lines without their LFs. -/
theorem OnlyNewlines.rows_eq {t : Text} (h : t.OnlyNewlines) :
    ∃ rs, rows t = rs ++ [lastLine t] ∧ fullLines t = rs.map (· ++ ['\n']) := by
  induction t with
  | nil => exact ⟨[], rfl, rfl⟩
  | cons c t ih =>
      obtain ⟨hc, ht⟩ := onlyNewlines_cons.1 h
      obtain ⟨rs, hrows, hfull⟩ := ih ht
      by_cases hb : breaksAfter c t
      · obtain rfl := hc (isBreak_of_breaksAfter hb)
        obtain ⟨hfull', hlast'⟩ := split_cons_of_breaks hb
        refine ⟨[] :: rs, ?_, ?_⟩
        · simpa [rows, splitAt, hlast'] using hrows
        · simp [hfull', hfull]
      · have hne : c ≠ '\n' := by
          rintro rfl
          exact hb rfl
        have hcons : rows (c :: t) = consFirst c (rows t) := by simp [rows, splitAt, hne]
        cases rs with
        | nil =>
            obtain ⟨hfull', hlast'⟩ := split_cons_of_nil hb hfull
            exact ⟨[], by rw [hcons, hrows, hlast']; rfl, hfull'⟩
        | cons r rs =>
            obtain ⟨hfull', hlast'⟩ := split_cons_of_cons hb hfull
            exact ⟨(c :: r) :: rs, by rw [hcons, hrows, hlast']; rfl, by simp [hfull']⟩

theorem OnlyNewlines.lineCount_eq {t : Text} (h : t.OnlyNewlines) :
    lineCount t = (rows t).length := by
  obtain ⟨rs, hrows, hfull⟩ := h.rows_eq
  simp [Text.lineCount_eq, row, hrows, hfull]

theorem OnlyNewlines.lineStart_eq {t : Text} (h : t.OnlyNewlines) {i : Nat}
    (hi : i < lineCount t) : lineStart t i = rowStart t i := by
  obtain ⟨rs, hrows, hfull⟩ := h.rows_eq
  have hle : i ≤ rs.length := by
    rw [h.lineCount_eq, hrows, List.length_append] at hi
    exact Nat.le_of_lt_succ hi
  rw [lineStart, rowStart, hrows, ← fullLines_append_lastLine, hfull,
    List.take_append_of_le_length (by simpa using hle), List.take_append_of_le_length hle,
    ← List.map_take, List.flatMap]

theorem mem_of_mem_splitAt {sep : Char} {t r : Text} (h : r ∈ splitAt sep t) :
    ∀ c ∈ r, c ∈ t ∧ c ≠ sep := by
  induction t generalizing r with
  | nil =>
      obtain rfl : r = [] := by simpa [splitAt] using h
      simp
  | cons d t ih =>
      by_cases hd : d = sep
      · rw [splitAt, if_pos hd, List.mem_cons] at h
        rcases h with rfl | h
        · simp
        · exact fun c hc => ⟨List.mem_cons_of_mem d (ih h c hc).1, (ih h c hc).2⟩
      · rw [splitAt, if_neg hd] at h
        cases hs : splitAt sep t with
        | nil => exact absurd hs (splitAt_ne_nil sep t)
        | cons l ls =>
            rw [hs] at ih h
            rcases List.mem_cons.1 h with rfl | h
            · intro c hc
              rcases List.mem_cons.1 hc with rfl | hc
              · exact ⟨List.mem_cons_self, hd⟩
              · have hmem := ih List.mem_cons_self c hc
                exact ⟨List.mem_cons_of_mem d hmem.1, hmem.2⟩
            · intro c hc
              have hmem := ih (List.mem_cons_of_mem l h) c hc
              exact ⟨List.mem_cons_of_mem d hmem.1, hmem.2⟩

theorem OnlyNewlines.not_isBreak_of_mem_rows {t r : Text} (h : t.OnlyNewlines) (hr : r ∈ rows t) :
    ∀ c ∈ r, ¬ isBreak c := by
  intro c hc hb
  obtain ⟨hmem, hne⟩ := mem_of_mem_splitAt hr c hc
  exact hne (h c hmem hb)

/-- Line `i` is row `i` with an LF, or without one if it is the last. -/
theorem OnlyNewlines.line_eq {t : Text} (h : t.OnlyNewlines) {i : Nat} (hi : i < lineCount t) :
    ∃ r e, (rows t)[i]? = some r ∧ (lines t)[i]? = some (r ++ e) ∧ (e = [] ∨ e = ['\n']) := by
  obtain ⟨rs, hrows, hfull⟩ := h.rows_eq
  have hlines : lines t = rs.map (· ++ ['\n']) ++ [lastLine t] := by
    rw [← hfull, fullLines_append_lastLine]
  rw [h.lineCount_eq, hrows, List.length_append] at hi
  rcases Nat.lt_or_eq_of_le (Nat.le_of_lt_succ hi) with hlt | rfl
  · refine ⟨rs[i], ['\n'], ?_, ?_, .inr rfl⟩
    · rw [hrows, List.getElem?_append_left hlt, List.getElem?_eq_getElem hlt]
    · rw [hlines, List.getElem?_append_left (by simpa using hlt)]
      simp [hlt]
  · refine ⟨lastLine t, [], ?_, ?_, .inl rfl⟩
    · rw [hrows, List.getElem?_concat_length]
    · rw [hlines, List.getElem?_append_right (by simp)]
      simp

theorem dropFinalNewline_concat (l : Text) : dropFinalNewline (l ++ ['\n']) = l := by
  simp [dropFinalNewline]

theorem dropFinalNewline_of_not_isBreak {l : Text} (h : ∀ c ∈ l, ¬ isBreak c) :
    dropFinalNewline l = l := by
  rw [dropFinalNewline, if_neg]
  exact fun hl => h '\n' (List.mem_of_getLast? hl) rfl

theorem OnlyNewlines.lineLength_eq {t : Text} (h : t.OnlyNewlines) {i : Nat}
    (hi : i < lineCount t) : (⟨t⟩ : Buffer).lineLength i = .ok (rowLength t i) := by
  obtain ⟨r, e, hrow, hline, he⟩ := h.line_eq hi
  have hr := h.not_isBreak_of_mem_rows (List.mem_of_getElem? hrow)
  rw [Buffer.lineLength, Buffer.line_eq_ok_iff.2 hline, rowLength, hrow]
  rcases he with rfl | rfl
  · simp [Except.map, dropFinalNewline_of_not_isBreak hr]
  · simp [Except.map, dropFinalNewline_concat]

/-- The row of a place is the number of LFs before it. -/
theorem OnlyNewlines.row_eq_count {a : Text} (h : a.OnlyNewlines) : row a = a.count '\n' := by
  induction a using List.reverseRecOn with
  | nil => rfl
  | append_singleton a c ih =>
      obtain ⟨ha, hc⟩ := onlyNewlines_append.1 h
      by_cases hb : isBreak c
      · obtain rfl := hc c (by simp) hb
        rw [(place_append_of_isBreak hb (ha.not_straddles _)).1, ih ha]
        simp
      · have hne : c ≠ '\n' := by
          rintro rfl
          exact hb rfl
        rw [(place_append_of_not_isBreak a (by simpa using hb)).1, ih ha]
        simp [hne]

theorem OnlyNewlines.row_lt_lineCount {a b : Text} (h : (a ++ b).OnlyNewlines) :
    row a < lineCount (a ++ b) :=
  Text.row_lt_lineCount ((onlyNewlines_append.1 h).1.not_straddles b)

theorem OnlyNewlines.rowStart_append {a b : Text} (h : (a ++ b).OnlyNewlines) :
    rowStart (a ++ b) (row a) + col a = a.length := by
  rw [← h.lineStart_eq h.row_lt_lineCount,
    lineStart_append ((onlyNewlines_append.1 h).1.not_straddles b)]

/-- The row that the place between two texts is on. -/
theorem OnlyNewlines.row_place {a b : Text} (h : (a ++ b).OnlyNewlines) :
    ∃ r e, rowLength (a ++ b) (row a) = r.length ∧ lastLine a ++ firstLine b = r ++ e ∧
      (∀ c ∈ r, ¬ isBreak c) ∧ (e = [] ∨ e = ['\n']) := by
  obtain ⟨r, e, hrow, hline, he⟩ := h.line_eq h.row_lt_lineCount
  rw [getElem?_lines_append ((onlyNewlines_append.1 h).1.not_straddles b)] at hline
  exact ⟨r, e, by simp [rowLength, hrow], Option.some.inj hline,
    h.not_isBreak_of_mem_rows (List.mem_of_getElem? hrow), he⟩

theorem OnlyNewlines.col_le_rowLength {a b : Text} (h : (a ++ b).OnlyNewlines) :
    col a ≤ rowLength (a ++ b) (row a) := by
  obtain ⟨r, e, hlength, hline, -, he⟩ := h.row_place
  rw [hlength, col]
  by_contra hlt
  rcases List.append_eq_append_iff.1 hline with ⟨s, hr, -⟩ | ⟨s, ha, hs⟩
  · exact hlt (by simp [hr])
  · have hne : s ≠ [] := by
      rintro rfl
      exact hlt (by simp [ha])
    rcases he with rfl | rfl
    · exact hne (List.append_eq_nil_iff.1 hs.symm).1
    · -- the LF that ends the row would be in a line without an end
      have hmem : '\n' ∈ s := by
        cases s with
        | nil => exact absurd rfl hne
        | cons d s =>
            rw [List.cons_append, List.cons.injEq] at hs
            rw [hs.1]
            exact List.mem_cons_self
      exact not_isBreak_of_mem_lastLine '\n' (ha ▸ List.mem_append_right r hmem) rfl

/-- Before an LF a row is as long as the column says. -/
theorem OnlyNewlines.rowLength_of_newline {a b : Text} (h : (a ++ '\n' :: b).OnlyNewlines) :
    rowLength (a ++ '\n' :: b) (row a) = col a := by
  obtain ⟨r, e, hlength, hline, hr, he⟩ := h.row_place
  have hfirst : firstLine ('\n' :: b) = ['\n'] := by
    simp [firstLine, lines_cons_of_breaks (c := '\n') (t := b) rfl]
  rw [hfirst] at hline
  rcases he with rfl | rfl
  · rw [List.append_nil] at hline
    exact absurd rfl (hr '\n' (hline ▸ by simp))
  · rw [hlength, col, List.append_cancel_right hline]

/-- Each column of a row, the one after its last character included, is a place. -/
theorem OnlyNewlines.exists_append {t : Text} (h : t.OnlyNewlines) {i c : Nat}
    (hi : i < lineCount t) (hc : c ≤ rowLength t i) :
    ∃ a b, t = a ++ b ∧ row a = i ∧ col a = c := by
  obtain ⟨a, b, rfl, rfl, hcol, hs⟩ := exists_append_of_lt_lineCount hi
  obtain ⟨r, e, hrow, hline, -⟩ := h.line_eq hi
  rw [rowLength, hrow, Option.getD_some] at hc
  have hfirst : firstLine b = r ++ e := by
    rw [getElem?_lines_append hs, List.eq_nil_of_length_eq_zero hcol] at hline
    simpa using hline
  have htake : b.take c = r.take c := by
    rw [← flatten_lines b, ← firstLine_cons_tail, hfirst, List.flatten_cons, List.append_assoc,
      List.take_append_of_le_length hc]
  have hbreak : ∀ d ∈ b.take c, ¬ isBreak d := fun d hd =>
    h.not_isBreak_of_mem_rows (List.mem_of_getElem? hrow) d
      (List.mem_of_mem_take (htake ▸ hd))
  obtain ⟨hrow', hcol'⟩ := place_append_of_not_isBreak a hbreak
  refine ⟨a ++ b.take c, b.drop c, by simp, hrow', ?_⟩
  rw [hcol', hcol, htake, List.length_take, Nat.min_eq_left hc, Nat.zero_add]

end ScriptPad.Text
