import ScriptPad.Proofs.Highlight.Rules

/-!
What a token of a script is (`Lexeme`): a match of one of the rules, where no earlier one takes anything,
or a plain stretch at whose characters none does. The token over a place is a lexeme around it
(`exists_lexeme_over`), so what stands at a place is settled by the kinds of lexeme that can go on over it.
-/

namespace ScriptPad

namespace Tokenizer

variable {m : Matcher} {k kind : WordKind} {rules : List (Matcher × WordKind)} {t : Text} {n : Nat}

theorem FirstTakes.cons (h : FirstTakes ⟨(m, k) :: rules⟩ t kind n) :
    m.Takes t n ∧ kind = k ∨ (∀ j, ¬ m.Takes t j) ∧ FirstTakes ⟨rules⟩ t kind n := by
  obtain ⟨earlier, m', later, hrules, htakes, hnone⟩ := h
  cases earlier with
  | nil =>
      obtain ⟨hfirst, -⟩ := List.cons.inj hrules
      obtain ⟨rfl, rfl⟩ := Prod.mk.inj hfirst
      exact .inl ⟨htakes, rfl⟩
  | cons r earlier =>
      obtain ⟨rfl, htail⟩ := List.cons.inj hrules
      refine .inr ⟨hnone _ List.mem_cons_self, earlier, m', later, htail, htakes, ?_⟩
      exact fun r hr => hnone r (List.mem_cons_of_mem _ hr)

theorem not_firstTakes_nil : ¬ FirstTakes ⟨[]⟩ t kind n := by
  rintro ⟨earlier, m, later, hrules, -⟩
  cases earlier <;> cases hrules

end Tokenizer

theorem Tiles.exists_covering {lo hi p : Nat} {ts : List Token} (h : Tiles lo ts hi) (hlo : lo ≤ p)
    (hhi : p < hi) : ∃ t ∈ ts, t.start ≤ p ∧ p < t.stop := by
  induction ts generalizing lo with
  | nil =>
      obtain rfl : lo = hi := h
      omega
  | cons t ts ih =>
      obtain ⟨hstart, -, hrest⟩ := h
      by_cases hp : p < t.stop
      · exact ⟨t, List.mem_cons_self, hstart ▸ hlo, hp⟩
      · obtain ⟨s, hs, hcover⟩ := ih hrest (Nat.le_of_not_lt hp)
        exact ⟨s, List.mem_cons_of_mem t hs, hcover⟩

theorem Text.exists_append_of_byteLength_le {a b a' b' : Text} (h : a ++ b = a' ++ b')
    (hbytes : a.byteLength ≤ a'.byteLength) : ∃ c, a' = a ++ c ∧ b = c ++ b' := by
  rcases List.append_eq_append_iff.1 h with ⟨c, ha, hb⟩ | ⟨c, rfl, rfl⟩
  · exact ⟨c, ha, hb⟩
  · have hc : byteLength c = 0 := by
      rw [byteLength_append] at hbytes
      omega
    exact ⟨[], by simp [byteLength_eq_zero_iff.1 hc], by simp [byteLength_eq_zero_iff.1 hc]⟩

/-- A word is cut off where its characters end. -/
theorem Text.takeWhile_append {accept : Char → Bool} {word after : Text} (hword : ∀ c ∈ word, accept c)
    (hafter : ∀ c ∈ after.head?, ¬ accept c) : (word ++ after).takeWhile accept = word := by
  rw [List.takeWhile_append_of_pos hword]
  cases after with
  | nil => simp
  | cons c after => simp [hafter c rfl]

namespace Language

variable {t u body rest word after : Text} {n : Nat} {c q : Char} {kind : WordKind}

/-! ### The table -/

def IsQuote (c : Char) : Prop := c = '"' ∨ c = '\''

theorem IsQuote.ne_backslash (hq : IsQuote q) : q ≠ '\\' := by
  rcases hq with rfl | rfl
  · decide
  · decide

theorem IsQuote.not_isAsciiWord (hq : IsQuote q) : ¬ Text.isAsciiWord q := by
  rcases hq with rfl | rfl
  · decide
  · decide

/-- A text in quotes or a comment opens with the character, before `rest`. -/
def Opens (c : Char) (rest : Text) : Prop := IsQuote c ∨ c = '/' ∧ rest.head? = some '/'

/-- What a token of a script is: its kind, its word, and the text after it. A plain word is one at whose
characters no rule takes anything. -/
inductive Lexeme : WordKind → Text → Text → Prop
  | comment {u after : Text} (hu : '\n' ∉ u) (hafter : ∀ c ∈ after.head?, c = '\n') :
      Lexeme .comment ('/' :: '/' :: u) after
  | closed {q : Char} {body after : Text} (hq : IsQuote q) (h : QuotedBody q body (q :: after)) :
      Lexeme .string (q :: (body ++ [q])) after
  | unclosed {q : Char} {body after : Text} (hq : IsQuote q) (h : QuotedBody q body after)
      (hafter : after.head? ≠ some q) : Lexeme .string (q :: body) after
  | keyword {word after : Text} (hword : word ∈ keywords) (hafter : ∀ c ∈ after.head?, ¬ Text.isWord c) :
      Lexeme .keyword word after
  | predefined {word after : Text} (hword : word ∈ predefinedNames)
      (hafter : ∀ c ∈ after.head?, ¬ Text.isWord c) : Lexeme .predefined word after
  | number {word after : Text} (hfirst : ∃ c ∈ word.head?, c.isDigit)
      (hword : ∀ c ∈ word, numeral.accepts c) : Lexeme .number word after
  | identifier {word after : Text} (hword : IsIdentifier word)
      (hafter : ∀ c ∈ after.head?, ¬ Text.isAsciiWord c)
      (hlisted : word ∈ keywords ++ predefinedNames → ∃ c ∈ after.head?, Text.isWord c) :
      Lexeme .identifier word after
  | plain {word after : Text}
      (hword : ∀ u c v, word = u ++ c :: v → ¬ Text.isAsciiWord c ∧ ¬ Opens c (v ++ after)) :
      Lexeme .plain word after

theorem lexeme_of_lineComment (h : lineComment.matcher.Takes (word ++ after) word.length) :
    Lexeme .comment word after := by
  obtain ⟨u, hu⟩ := exists_of_matchLength_lineComment h.1
  have hlength : lineComment.matchLength (word ++ after) = some word.length := h.1
  rw [hu, matchLength_lineComment] at hlength
  obtain ⟨v, rfl, hv, hafter⟩ :=
    exists_of_length_takeWhile ['/', '/'] hu (Option.some.inj hlength).symm
  refine .comment (fun hn => ?_) fun c hc => ?_
  · simpa using hv '\n' hn
  · simpa using hafter c hc

theorem lexeme_of_quoted (hq : IsQuote q)
    (h : (quoted q).matcher.Takes (word ++ after) word.length) : Lexeme .string word after := by
  obtain ⟨u, hu⟩ := exists_of_matchLength_quoted h.1
  obtain ⟨body, rest, rfl, hbody⟩ := exists_quotedBody q u
  have hlength : (quoted q).matchLength (word ++ after) = some word.length := h.1
  rw [hu] at hlength
  by_cases hrest : rest.head? = some q
  · obtain ⟨rest, rfl⟩ := List.head?_eq_some_iff.1 hrest
    rw [matchLength_quoted_closed hq.ne_backslash hbody] at hlength
    have hcut : word ++ after = (q :: (body ++ [q])) ++ rest := by simp [hu]
    obtain ⟨rfl, rfl⟩ := List.append_inj hcut (by simpa using (Option.some.inj hlength).symm)
    exact .closed hq hbody
  · rw [matchLength_quoted_open hq.ne_backslash hbody hrest] at hlength
    have hcut : word ++ after = (q :: body) ++ rest := hu
    obtain ⟨rfl, rfl⟩ := List.append_inj hcut (Option.some.inj hlength).symm
    exact .unclosed hq hbody hrest

theorem lexeme_of_numeral (h : numeral.matcher.Takes (word ++ after) word.length) :
    Lexeme .number word after := by
  obtain ⟨c, u, hu, hc⟩ := exists_of_matchLength_numeral h.1
  obtain ⟨d, v, rfl⟩ := List.exists_cons_of_length_pos h.2
  obtain ⟨rfl, -⟩ := List.cons.inj hu
  exact .number ⟨d, rfl, hc⟩ (accepts_of_takes h)

theorem lexeme_of_identifier (h : identifier.matcher.Takes (word ++ after) word.length)
    (hkeyword : ∀ n, ¬ (wholeWord keywords).matcher.Takes (word ++ after) n)
    (hpredefined : ∀ n, ¬ (wholeWord predefinedNames).matcher.Takes (word ++ after) n) :
    Lexeme .identifier word after := by
  obtain ⟨c, u, hu, hc⟩ := exists_of_matchLength_identifier h.1
  have hlength : identifier.matchLength (word ++ after) = some word.length := h.1
  rw [hu, matchLength_identifier hc] at hlength
  obtain ⟨v, rfl, hv, hafter⟩ :=
    exists_of_length_takeWhile [c] hu (Option.some.inj hlength).symm
  refine .identifier ⟨⟨c, rfl, hc⟩, ?_⟩ hafter fun hlisted => ?_
  · exact List.forall_mem_cons.2 ⟨Text.isAsciiWord_of_letter hc, hv⟩
  by_contra hnone
  have hend : ∀ d ∈ after.head?, ¬ Text.isWord d := fun d hdw hw => hnone ⟨d, hdw, hw⟩
  rcases List.mem_append.1 hlisted with hword | hword
  · obtain ⟨n, hn⟩ := exists_takes_wholeWord isIdentifier_of_keyword (by decide) hword hend
    exact hkeyword n hn
  · obtain ⟨n, hn⟩ := exists_takes_wholeWord isIdentifier_of_predefined (by decide) hword hend
    exact hpredefined n hn

theorem lexeme_of_firstTakes {kind : WordKind}
    (h : rhai.tokenizer.FirstTakes (word ++ after) kind word.length) : Lexeme kind word after := by
  rcases h.cons with ⟨htakes, rfl⟩ | ⟨-, h⟩
  · exact lexeme_of_lineComment htakes
  rcases h.cons with ⟨htakes, rfl⟩ | ⟨-, h⟩
  · exact lexeme_of_quoted (.inl rfl) htakes
  rcases h.cons with ⟨htakes, rfl⟩ | ⟨-, h⟩
  · exact lexeme_of_quoted (.inr rfl) htakes
  rcases h.cons with ⟨htakes, rfl⟩ | ⟨hkeyword, h⟩
  · obtain ⟨hword, hafter⟩ := wholeWord_of_takes isIdentifier_of_keyword (by decide) htakes
    exact .keyword hword hafter
  rcases h.cons with ⟨htakes, rfl⟩ | ⟨hpredefined, h⟩
  · obtain ⟨hword, hafter⟩ := wholeWord_of_takes isIdentifier_of_predefined (by decide) htakes
    exact .predefined hword hafter
  rcases h.cons with ⟨htakes, rfl⟩ | ⟨-, h⟩
  · exact lexeme_of_numeral htakes
  rcases h.cons with ⟨htakes, rfl⟩ | ⟨-, h⟩
  · exact lexeme_of_identifier htakes hkeyword hpredefined
  · exact absurd h Tokenizer.not_firstTakes_nil

/-! ### Where some rule takes something -/

theorem not_takesNothing_of_rule {p : Pattern} {kind : WordKind} (hrule : ⟨p, kind⟩ ∈ rhai.rules)
    (h : ∃ n, p.matcher.Takes t n) : ¬ rhai.tokenizer.TakesNothing t := by
  intro hnothing
  obtain ⟨n, hn⟩ := h
  exact hnothing (p.matcher, kind) (List.mem_map.2 ⟨_, hrule, rfl⟩) n hn

theorem not_takesNothing_comment (t : Text) : ¬ rhai.tokenizer.TakesNothing ('/' :: '/' :: t) := by
  have hrule : ⟨lineComment, .comment⟩ ∈ rhai.rules := by decide
  exact not_takesNothing_of_rule hrule ⟨_, matchLength_lineComment t, by omega⟩

theorem not_takesNothing_quote (hq : IsQuote q) (t : Text) : ¬ rhai.tokenizer.TakesNothing (q :: t) := by
  have hrule : ⟨quoted q, .string⟩ ∈ rhai.rules := by
    rcases hq with rfl | rfl
    · decide
    · decide
  exact not_takesNothing_of_rule hrule (exists_takes_quoted q t)

theorem not_takesNothing_asciiWord (hc : Text.isAsciiWord c) (t : Text) :
    ¬ rhai.tokenizer.TakesNothing (c :: t) := by
  have hnumber : ⟨numeral, .number⟩ ∈ rhai.rules := by decide
  have hidentifier : ⟨identifier, .identifier⟩ ∈ rhai.rules := by decide
  rcases Text.isAsciiWord_cases hc with hd | hletter
  · exact not_takesNothing_of_rule hnumber (exists_takes_numeral hd t)
  · exact not_takesNothing_of_rule hidentifier ⟨_, matchLength_identifier hletter t, by omega⟩

theorem lexeme_of_takesNothing
    (h : ∀ u v, word = u ++ v → v ≠ [] → rhai.tokenizer.TakesNothing (v ++ after)) :
    Lexeme .plain word after := by
  refine .plain fun u c v hword => ?_
  have hnothing : rhai.tokenizer.TakesNothing (c :: (v ++ after)) := h u (c :: v) hword (by simp)
  refine ⟨fun hc => not_takesNothing_asciiWord hc _ hnothing, ?_⟩
  rintro (hq | ⟨rfl, hslash⟩)
  · exact not_takesNothing_quote hq _ hnothing
  · obtain ⟨rest, hrest⟩ := List.head?_eq_some_iff.1 hslash
    rw [hrest] at hnothing
    exact not_takesNothing_comment rest hnothing

/-! ### The tokens of a script -/

theorem reads_tokens (line : Text) : rhai.tokenizer.Reads line [] (rhai.tokens line) :=
  Tokenizer.reads_piecesFrom [] [] line rfl (by simp)

theorem exists_lexeme {line : Text} {token : Token} (h : token ∈ rhai.tokens line) :
    ∃ before word after, line = before ++ (word ++ after) ∧
      token = Token.spanning before word token.kind ∧ Lexeme token.kind word after := by
  rcases (reads_tokens line).origin token h with hmatch | hgap
  · obtain ⟨before, word, after, hline, htoken, hfirst⟩ := hmatch
    exact ⟨before, word, after, hline, htoken, lexeme_of_firstTakes hfirst⟩
  · obtain ⟨before, word, after, hline, rfl, hnothing⟩ := hgap
    exact ⟨before, word, after, hline, rfl, lexeme_of_takesNothing hnothing⟩

/-! ### The token over a place -/

/-- The token over a place is the one that has the characters up to there, if any, and the next one. -/
theorem exists_lexeme_over {line before : Text} (hline : line = before ++ rest) (hne : rest ≠ []) :
    ∃ t ∈ rhai.tokens line, ∃ b u v after, before = b ++ u ∧ rest = v ++ after ∧ v ≠ [] ∧
      t = Token.spanning b (u ++ v) t.kind ∧ Lexeme t.kind (u ++ v) after := by
  have hlt : before.byteLength < line.byteLength := by
    have hpos : rest.byteLength ≠ 0 := fun h => hne (Text.byteLength_eq_zero_iff.1 h)
    rw [hline, Text.byteLength_append]
    omega
  obtain ⟨t, ht, hstart, hstop⟩ := (reads_tokens line).tiles.exists_covering (Nat.zero_le _) hlt
  obtain ⟨b, word, after, hcut, htoken, hlexeme⟩ := exists_lexeme ht
  rw [htoken] at hstart
  rw [htoken, Token.stop_spanning] at hstop
  obtain ⟨u, rfl, hu⟩ :=
    Text.exists_append_of_byteLength_le (hcut.symm.trans hline) hstart
  rw [Text.byteLength_append, Text.byteLength_append] at hstop
  obtain ⟨v, rfl, hv⟩ := Text.exists_append_of_byteLength_le hu.symm (by omega)
  refine ⟨t, ht, b, u, v, after, rfl, hv, ?_, htoken, hlexeme⟩
  rintro rfl
  simp at hstop

/-- No token of the kinds that begins before the place goes on over it. -/
def Outside (kinds : List WordKind) (ts : List Token) (p : Nat) : Prop :=
  ∀ t ∈ ts, t.kind ∈ kinds → ¬ (t.start < p ∧ p < t.stop)

/-- So a token of one of the kinds that is over the place begins there. -/
theorem eq_nil_of_outside {kinds : List WordKind} {line b v : Text} {token : Token}
    (hout : Outside kinds (rhai.tokens line) (b ++ u).byteLength) (ht : token ∈ rhai.tokens line)
    (htoken : token = Token.spanning b (u ++ v) token.kind) (hv : v ≠ []) (hkind : token.kind ∈ kinds) :
    u = [] := by
  by_contra hu
  have hubytes : u.byteLength ≠ 0 := mt Text.byteLength_eq_zero_iff.1 hu
  have hvbytes : v.byteLength ≠ 0 := mt Text.byteLength_eq_zero_iff.1 hv
  refine hout token ht hkind ?_
  rw [htoken, Token.stop_spanning, Text.byteLength_append, Text.byteLength_append,
    Text.byteLength_append]
  show b.byteLength < _ ∧ _
  omega

end Language

end ScriptPad
