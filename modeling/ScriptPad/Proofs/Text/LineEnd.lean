import ScriptPad.Proofs.Text.Newline

/-!
What a line ends with. Before its end a line has no character that ends one, and the end is a single
character or a CR with the LF after it. What is shown of a line leaves out LF and CR; what counts as
its length leaves out the LF only, so with a CR it is one character more.
-/

namespace ScriptPad.Text

/-- What a line can end with; the last line of a text ends with nothing. -/
inductive IsLineEnd : Text → Prop
  | none : IsLineEnd []
  | single {c : Char} (hc : isBreak c) : IsLineEnd [c]
  | pair : IsLineEnd ['\r', '\n']

/-- A line is cut where its end begins. -/
theorem exists_lineEnd {t l : Text} (h : l ∈ lines t) :
    ∃ body e, l = body ++ e ∧ (∀ c ∈ body, ¬ isBreak c) ∧ IsLineEnd e := by
  induction t generalizing l with
  | nil =>
      obtain rfl : l = [] := List.mem_singleton.1 h
      exact ⟨[], [], rfl, by simp, .none⟩
  | cons c t ih =>
      by_cases hb : breaksAfter c t
      · rw [lines_cons_of_breaks hb] at h
        rcases List.mem_cons.1 h with rfl | h
        · exact ⟨[], [c], rfl, by simp, .single (isBreak_of_breaksAfter hb)⟩
        · exact ih h
      · rw [lines_cons_of_not_breaks hb, ← firstLine_cons_tail t] at h
        rcases List.mem_cons.1 h with rfl | h
        · by_cases hc : isBreak c
          · -- a CR before an LF: the line is the pair
            obtain ⟨rfl, hhead⟩ : c = '\r' ∧ t.head? = some '\n' := by
              simpa [breaksAfter, hc] using hb
            obtain ⟨t, rfl⟩ := List.head?_eq_some_iff.1 hhead
            exact ⟨[], ['\r', '\n'], rfl, by simp, .pair⟩
          · obtain ⟨body, e, hfirst, hbody, he⟩ := ih (List.head_mem (lines_ne_nil t))
            refine ⟨c :: body, e, congrArg (c :: ·) hfirst, ?_, he⟩
            exact List.forall_mem_cons.2 ⟨hc, hbody⟩
        · exact ih (firstLine_cons_tail t ▸ List.mem_cons_of_mem _ h)

/-- Trimming stops at a body without line ends. -/
theorem trimLineEnd_append {body e : Text} (hbody : ∀ c ∈ body, ¬ isBreak c)
    (he : ∀ c ∈ e, c = '\n' ∨ c = '\r') : trimLineEnd (body ++ e) = body := by
  have hdrop : ∀ c ∈ e.reverse, (c == '\n' || c == '\r') = true := by
    intro c hc
    simpa using he c (List.mem_reverse.1 hc)
  have hstop : body.reverse.dropWhile (fun c => c == '\n' || c == '\r') = body.reverse := by
    cases hlast : body.reverse with
    | nil => rfl
    | cons c r =>
        have hmem : c ∈ body := List.mem_reverse.1 (hlast ▸ List.mem_cons_self)
        have hc := hbody c hmem
        rw [List.dropWhile_cons_of_neg]
        intro hend
        rcases Bool.or_eq_true_iff.1 hend with heq | heq
        · exact hc (by rw [beq_iff_eq.1 heq]; rfl)
        · exact hc (by rw [beq_iff_eq.1 heq]; rfl)
  rw [trimLineEnd, List.reverse_append, List.dropWhile_append_of_pos hdrop, hstop,
    List.reverse_reverse]

theorem lines_newlines_append (n : Nat) (t : Text) :
    lines (List.replicate n '\n' ++ t) = List.replicate n ['\n'] ++ lines t := by
  induction n with
  | zero => rfl
  | succ n ih =>
      rw [List.replicate_succ, List.cons_append, lines_cons_of_breaks rfl, ih]
      rfl

/-- A CR at the end of a line counts as a character of it, though it is not shown. -/
theorem length_dropFinalNewline {t l : Text} (h : l ∈ lines t) :
    (dropFinalNewline l).length = (trimLineEnd l).length + if '\r' ∈ l then 1 else 0 := by
  obtain ⟨body, e, rfl, hbody, he⟩ := exists_lineEnd h
  have hcr : '\r' ∉ body := fun hmem => hbody '\r' hmem rfl
  cases he with
  | none =>
      rw [trimLineEnd_append hbody (by simp), List.append_nil, dropFinalNewline_of_not_isBreak hbody,
        if_neg hcr, Nat.add_zero]
  | pair =>
      have hpair : body ++ ['\r', '\n'] = body ++ ['\r'] ++ ['\n'] := by simp
      rw [trimLineEnd_append hbody (by simp), hpair, dropFinalNewline_concat, if_pos (by simp),
        List.length_append]
      rfl
  | @single c hc =>
      by_cases hlf : c = '\n'
      · subst hlf
        rw [trimLineEnd_append hbody (by simp), dropFinalNewline_concat, if_neg (by simp [hcr]),
          Nat.add_zero]
      · have hdrop : dropFinalNewline (body ++ [c]) = body ++ [c] := by
          simp [dropFinalNewline, hlf]
        by_cases hr : c = '\r'
        · subst hr
          rw [trimLineEnd_append hbody (by simp), hdrop, if_pos (by simp), List.length_append]
          rfl
        · have htrim : trimLineEnd (body ++ [c]) = body ++ [c] := by
            simp [trimLineEnd, hlf, hr]
          rw [htrim, hdrop, if_neg (by simp [hcr, Ne.symm hr]), Nat.add_zero]

end ScriptPad.Text
