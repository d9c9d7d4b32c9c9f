import Mathlib.Data.List.Induction
import ScriptPad.Proofs.Highlight.Lexeme

/-!
How texts in quotes and comments end each other. In a text in quotes every second backslash of a run
protects what follows (`Escaped`), so its body stops at the first quote of its kind that is not escaped
(`Lexeme.extent`). What stands at a place is settled by the token over it: only a string or a comment goes
on over a quote or over two slashes (`Lexeme.string_or_comment`).
-/

namespace ScriptPad

namespace Language

variable {line before after body rest text u : Text} {q c : Char} {kind : WordKind} {t : Token}

/-! ### Escapes -/

def trailingBackslashes (u : Text) : Nat := (u.reverse.takeWhile (· == '\\')).length

/-- An odd number of backslashes stands right before: the last one protects the next character. -/
def Escaped (u : Text) : Prop := trailingBackslashes u % 2 = 1

instance (u : Text) : Decidable (Escaped u) := inferInstanceAs (Decidable (_ = _))

theorem not_escaped_nil : ¬ Escaped [] := by decide

theorem escaped_concat_backslash (u : Text) : Escaped (u ++ ['\\']) ↔ ¬ Escaped u := by
  have hcount : trailingBackslashes (u ++ ['\\']) = trailingBackslashes u + 1 := by
    simp [trailingBackslashes]
  unfold Escaped
  omega

theorem not_escaped_concat (hc : c ≠ '\\') (u : Text) : ¬ Escaped (u ++ [c]) := by
  have hcount : trailingBackslashes (u ++ [c]) = 0 := by simp [trailingBackslashes, hc]
  unfold Escaped
  omega

/-- A text that leaves no escape open does not matter for what follows it. -/
theorem escaped_append (hu : ¬ Escaped u) (v : Text) : Escaped (u ++ v) ↔ Escaped v := by
  induction v using List.reverseRecOn with
  | nil =>
      rw [List.append_nil]
      exact iff_of_false hu not_escaped_nil
  | append_singleton v c ih =>
      rw [← List.append_assoc]
      by_cases hc : c = '\\'
      · rw [hc, escaped_concat_backslash, escaped_concat_backslash, ih]
      · exact iff_of_false (not_escaped_concat hc _) (not_escaped_concat hc v)

theorem not_escaped_singleton (hc : c ≠ '\\') : ¬ Escaped [c] := not_escaped_concat hc []

theorem not_escaped_pair (c : Char) : ¬ Escaped ['\\', c] := by
  by_cases hc : c = '\\'
  · subst hc
    decide
  · exact not_escaped_concat hc ['\\']

/-- How far a text in quotes goes after its opening quote. -/
inductive QuotedExtent (q : Char) (text : Text) : Text → Prop
  | closed {u rest : Text} (htext : text = u ++ q :: rest) (hclose : ¬ Escaped u)
      (hfirst : ∀ v w, u = v ++ q :: w → Escaped v) : QuotedExtent q text (u ++ [q])
  | unclosed (hnone : ∀ v w, text = v ++ q :: w → Escaped v) (hend : ¬ Escaped text) :
      QuotedExtent q text text
  | unpaired {u : Text} (hnone : ∀ v w, text = v ++ q :: w → Escaped v) (hend : Escaped text)
      (htext : text = u ++ ['\\']) : QuotedExtent q text u

theorem QuotedBody.not_escaped (h : QuotedBody q body rest) : ¬ Escaped body := by
  induction h with
  | stop => exact not_escaped_nil
  | @char c body rest hq hb h ih =>
      exact fun hesc => ih ((escaped_append (not_escaped_singleton hb) body).1 hesc)
  | @escape c body rest hc h ih =>
      exact fun hesc => ih ((escaped_append (not_escaped_pair c) body).1 hesc)

/-- All quotes of its kind in the body are escaped. -/
theorem QuotedBody.escaped (h : QuotedBody q body rest) (hq : q ≠ '\\') (v w : Text)
    (hbody : body = v ++ q :: w) : Escaped v := by
  induction h generalizing v with
  | stop => simp at hbody
  | @char c body rest hcq hb h ih =>
      cases v with
      | nil => exact absurd (List.cons.inj hbody).1 hcq
      | cons d v =>
          obtain ⟨rfl, htail⟩ := List.cons.inj hbody
          exact (escaped_append (not_escaped_singleton hb) v).2 (ih v htail)
  | @escape c body rest hc h ih =>
      match v with
      | [] => exact absurd (List.cons.inj hbody).1.symm hq
      | [d] =>
          obtain ⟨rfl, -⟩ := List.cons.inj hbody
          decide
      | d :: e :: v =>
          obtain ⟨rfl, hrest⟩ := List.cons.inj hbody
          obtain ⟨rfl, htail⟩ := List.cons.inj hrest
          exact (escaped_append (not_escaped_pair c) v).2 (ih v htail)

theorem QuotedBody.extent_open (h : QuotedBody q body after) (hq : q ≠ '\\')
    (hafter : after.head? ≠ some q) (hline : '\n' ∉ after) : QuotedExtent q (body ++ after) body := by
  have hends := h.bodyEnds
  cases hends with
  | line =>
      rw [List.append_nil]
      exact .unclosed (h.escaped hq) h.not_escaped
  | quote t => exact absurd rfl hafter
  | backslash =>
      refine .unpaired (fun v w hvw => ?_) ((escaped_concat_backslash body).2 h.not_escaped) rfl
      rcases List.eq_nil_or_concat w with rfl | ⟨w, d, rfl⟩
      · obtain ⟨-, hlast⟩ := List.append_inj' hvw rfl
        exact absurd (List.cons.inj hlast).1.symm hq
      · rw [List.concat_eq_append, ← List.cons_append, ← List.append_assoc] at hvw
        exact h.escaped hq v w (List.append_inj' hvw rfl).1
  | backslashNewline t => simp at hline

/-! ### Strings and comments -/

theorem Lexeme.extent (h : Lexeme .string text after) (hline : '\n' ∉ after) :
    ∃ q body, IsQuote q ∧ text = q :: body ∧ QuotedExtent q (body ++ after) body := by
  cases h with
  | @closed q body _ hq h =>
      have htext : (body ++ [q]) ++ after = body ++ q :: after := List.append_assoc ..
      exact ⟨q, _, hq, rfl, .closed htext h.not_escaped (h.escaped hq.ne_backslash)⟩
  | @unclosed q body _ hq h hafter =>
      exact ⟨q, body, hq, rfl, h.extent_open hq.ne_backslash hafter hline⟩

theorem Lexeme.exists_slashes (h : Lexeme .comment text after) (hline : '\n' ∉ after) :
    after = [] ∧ ∃ u, text = '/' :: '/' :: u := by
  cases h with
  | @comment u _ hu hafter =>
      refine ⟨?_, u, rfl⟩
      cases after with
      | nil => rfl
      | cons c after =>
          obtain rfl := hafter c rfl
          simp at hline

theorem not_isQuote_slash : ¬ IsQuote '/' := by
  rintro (h | h)
  · exact absurd h (by decide)
  · exact absurd h (by decide)

/-- Only strings and comments go on over what opens one. -/
theorem Lexeme.string_or_comment {v : Text} (h : Lexeme kind (u ++ c :: v) after)
    (hopens : Opens c (v ++ after)) : kind = .string ∨ kind = .comment := by
  have hmem : c ∈ u ++ c :: v := by simp
  have hword : ¬ Text.isAsciiWord c := by
    rcases hopens with hq | ⟨rfl, -⟩
    · exact hq.not_isAsciiWord
    · decide
  have hnumber : ¬ numeral.accepts c := by
    rcases hopens with (rfl | rfl) | ⟨rfl, -⟩
    · decide
    · decide
    · decide
  generalize htext : u ++ c :: v = text at h hmem
  cases h with
  | comment => exact .inr rfl
  | closed | unclosed => exact .inl rfl
  | keyword hlisted => exact absurd ((isIdentifier_of_keyword _ hlisted).chars c hmem) hword
  | predefined hlisted => exact absurd ((isIdentifier_of_predefined _ hlisted).chars c hmem) hword
  | number hfirst haccepts => exact absurd (haccepts c hmem) hnumber
  | identifier hidentifier => exact absurd (hidentifier.chars c hmem) hword
  | plain hplain => exact absurd hopens (hplain u c v htext.symm).2

/-- A string or a comment begins where one opens. -/
theorem exists_opened (hline : line = before ++ c :: after) (hopens : Opens c after)
    (hout : Outside [.string, .comment] (rhai.tokens line) before.byteLength) :
    ∃ t ∈ rhai.tokens line, ∃ v a, after = v ++ a ∧ t = Token.spanning before (c :: v) t.kind ∧
      Lexeme t.kind (c :: v) a ∧ (t.kind = .string ∨ t.kind = .comment) := by
  obtain ⟨t, ht, b, u, v, a, rfl, hrest, hne, htoken, hlexeme⟩ := exists_lexeme_over hline (by simp)
  obtain ⟨d, v, rfl⟩ := List.exists_cons_of_ne_nil hne
  obtain ⟨rfl, rfl⟩ := List.cons.inj hrest
  have hkind := hlexeme.string_or_comment hopens
  obtain rfl : u = [] := eq_nil_of_outside hout ht htoken hne (by simpa using hkind)
  rw [List.append_nil]
  exact ⟨t, ht, v, a, rfl, htoken, hlexeme, hkind⟩

/-- In a line without LF: a quote starts a string if no string or comment begun earlier goes on over it.
The string ends after the first quote of its kind that is not escaped, or else with the line, but before a
backslash that is not escaped itself and has nothing to protect. Two slashes start a comment if no string
or comment begun earlier goes on over them, and a comment ends with the line. -/
theorem strings_and_comments (line : Text) (hline : '\n' ∉ line) :
    (∀ before q after, line = before ++ q :: after → IsQuote q →
        Outside [.string, .comment] (rhai.tokens line) before.byteLength → ∃ body,
          Token.spanning before (q :: body) .string ∈ rhai.tokens line ∧ QuotedExtent q after body) ∧
      (∀ t ∈ rhai.tokens line, t.kind = .string → ∃ before q after body, line = before ++ q :: after ∧
        IsQuote q ∧ t = Token.spanning before (q :: body) .string ∧ QuotedExtent q after body) ∧
      (∀ before after, line = before ++ '/' :: '/' :: after →
        Outside [.string, .comment] (rhai.tokens line) before.byteLength →
          Token.spanning before ('/' :: '/' :: after) .comment ∈ rhai.tokens line) ∧
      ∀ t ∈ rhai.tokens line, t.kind = .comment → t.stop = line.byteLength := by
  refine ⟨fun before q after hcut hq hout => ?_, fun t ht hkind => ?_, fun before after hcut hout => ?_,
    fun t ht hkind => ?_⟩
  · obtain ⟨t, ht, v, a, rfl, htoken, hlexeme, hkind | hkind⟩ := exists_opened hcut (.inl hq) hout
    · rw [hkind] at htoken hlexeme
      have ha : '\n' ∉ a := fun hn => hline (by simp [hcut, hn])
      obtain ⟨q', body, -, hv, hextent⟩ := hlexeme.extent ha
      obtain ⟨rfl, rfl⟩ := List.cons.inj hv
      exact ⟨v, htoken ▸ ht, hextent⟩
    · rw [hkind] at hlexeme
      have ha : '\n' ∉ a := fun hn => hline (by simp [hcut, hn])
      obtain ⟨-, u, hu⟩ := hlexeme.exists_slashes ha
      exact absurd ((List.cons.inj hu).1 ▸ hq) not_isQuote_slash
  · obtain ⟨before, word, after, hcut, htoken, hlexeme⟩ := exists_lexeme ht
    rw [hkind] at htoken hlexeme
    have hafter : '\n' ∉ after := fun hn => hline (by simp [hcut, hn])
    obtain ⟨q, body, hq, rfl, hextent⟩ := hlexeme.extent hafter
    exact ⟨before, q, _, body, hcut, hq, htoken, hextent⟩
  · obtain ⟨t, ht, v, a, hafter, htoken, hlexeme, hkind | hkind⟩ :=
      exists_opened hcut (.inr ⟨rfl, rfl⟩) hout
    · rw [hkind] at hlexeme
      have ha : '\n' ∉ a := fun hn => hline (by rw [hcut, hafter]; simp [hn])
      obtain ⟨q, body, hq, hv, -⟩ := hlexeme.extent ha
      exact absurd ((List.cons.inj hv).1 ▸ hq) not_isQuote_slash
    · rw [hkind] at htoken hlexeme
      have ha : '\n' ∉ a := fun hn => hline (by rw [hcut, hafter]; simp [hn])
      obtain ⟨rfl, -⟩ := hlexeme.exists_slashes ha
      rw [List.append_nil] at hafter
      rw [hafter]
      exact htoken ▸ ht
  · obtain ⟨before, word, after, hcut, htoken, hlexeme⟩ := exists_lexeme ht
    rw [hkind] at hlexeme
    have hafter : '\n' ∉ after := fun hn => hline (by simp [hcut, hn])
    obtain ⟨rfl, -⟩ := hlexeme.exists_slashes hafter
    rw [htoken, Token.stop_spanning, hcut, List.append_nil]

/-- An escaped quote does not end a string, and one in a comment starts none. -/
theorem strings_and_comments_escape :
    '\n' ∉ "'it\\'s' // 'x".toList ∧
      (∃ body, Token.spanning [] ('\'' :: body) .string ∈ rhai.tokens "'it\\'s' // 'x".toList ∧
        QuotedExtent '\'' "it\\'s' // 'x".toList body) ∧
      Token.spanning "'it\\'s' ".toList "// 'x".toList .comment ∈
        rhai.tokens "'it\\'s' // 'x".toList := by
  have hline : '\n' ∉ "'it\\'s' // 'x".toList := by decide
  have htokens : rhai.tokens "'it\\'s' // 'x".toList =
      [⟨0, 7, .string⟩, ⟨7, 8, .plain⟩, ⟨8, 13, .comment⟩] := by
    have hstring : rhai.tokenizer.firstTake?
        ("'it\\'s'".toList ++ ' ' :: ("// 'x".toList ++ [])) = some (.string, 7) := by decide
    have hspace : rhai.tokenizer.firstTake? (' ' :: ("// 'x".toList ++ [])) = none := by decide
    have hcomment : rhai.tokenizer.firstTake? ("// 'x".toList ++ []) = some (.comment, 5) := by decide
    show Token.ofPieces 0 (rhai.tokenizer.piecesFrom []
      ("'it\\'s'".toList ++ ' ' :: ("// 'x".toList ++ []))) = _
    rw [Tokenizer.piecesFrom_of_firstTake? hstring,
      Tokenizer.piecesFrom_of_firstTake?_eq_none hspace,
      Tokenizer.piecesFrom_of_firstTake? hcomment, Tokenizer.piecesFrom]
    rfl
  obtain ⟨hquote, -, hslashes, -⟩ := strings_and_comments _ hline
  refine ⟨hline, hquote [] '\'' _ rfl (.inr rfl) ?_, hslashes "'it\\'s' ".toList " 'x".toList rfl ?_⟩
  · exact fun t ht hkind h => absurd h.1 (Nat.not_lt_zero _)
  · unfold Outside
    rw [htokens]
    decide

end Language

end ScriptPad
