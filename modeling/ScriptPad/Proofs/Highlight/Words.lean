import ScriptPad.Proofs.Highlight.Lexeme

/-!
Keywords as whole words. A rule sees only the text from where it starts, so it is what a token leaves
over that keeps the next one from starting inside a word: no token but a number ends between two ASCII
word characters (`Lexeme.kind_of_seam`). Conversely a token over the start of a whole word begins there
(`Lexeme.kind_of_inside`), and then it is the word (`Lexeme.kind_of_listed`).
-/

namespace ScriptPad

/-! ### Neighbours -/

theorem Tiles.stop_eq_start {lo hi : Nat} {s t : Token} {pre post : List Token}
    (h : Tiles lo (pre ++ s :: t :: post) hi) : s.stop = t.start := by
  induction pre generalizing lo with
  | nil => exact h.2.2.1.symm
  | cons _ pre ih => exact ih h.2.2

theorem Tiles.start_lt_stop {lo hi : Nat} {t : Token} {ts : List Token} (h : Tiles lo ts hi)
    (ht : t ∈ ts) : t.start < t.stop := by
  induction ts generalizing lo with
  | nil => cases ht
  | cons s ts ih =>
      rcases List.mem_cons.1 ht with rfl | ht
      · exact h.2.1
      · exact ih h.2.2 ht

namespace Language

variable {line before word after : Text} {kind : WordKind} {t : Token}

/-- The token right before it is of the kind. -/
def Follows (kind : WordKind) (ts : List Token) (t : Token) : Prop :=
  ∃ pre s post, ts = pre ++ s :: t :: post ∧ s.kind = kind

theorem BodyEnds.not_isAsciiWord {q : Char} (h : BodyEnds q after) (hafter : after.head? ≠ some q)
    {c : Char} (hc : c ∈ after.head?) : ¬ Text.isAsciiWord c := by
  cases h with
  | line => cases hc
  | quote t => exact absurd rfl hafter
  | backslash | backslashNewline t =>
      obtain rfl := Option.some.inj hc
      decide

/-- Only a number leaves a word at whose start it ends. -/
theorem Lexeme.kind_of_seam (h : Lexeme kind word after) (hlast : ∃ c ∈ word.getLast?, Text.isAsciiWord c)
    (hnext : ∃ c ∈ after.head?, Text.isAsciiWord c) : kind = .number := by
  obtain ⟨d, hd, hdw⟩ := hlast
  obtain ⟨c, hc, hcw⟩ := hnext
  cases h with
  | comment hu hafter =>
      obtain rfl := hafter c hc
      cases hcw
  | closed hq h =>
      rw [← List.cons_append, List.getLast?_concat] at hd
      obtain rfl := Option.some.inj hd
      exact absurd hdw hq.not_isAsciiWord
  | unclosed hq h hafter => exact absurd hcw (h.bodyEnds.not_isAsciiWord hafter hc)
  | keyword hword hafter => exact absurd (Text.isWord_of_isAsciiWord hcw) (hafter c hc)
  | predefined hword hafter => exact absurd (Text.isWord_of_isAsciiWord hcw) (hafter c hc)
  | number => rfl
  | identifier hword hafter => exact absurd hcw (hafter c hc)
  | plain hword =>
      obtain ⟨u, rfl⟩ := List.getLast?_eq_some_iff.1 hd
      exact absurd hdw (hword u d [] rfl).1

theorem Lexeme.isIdentifier (h : Lexeme kind word after)
    (hkind : kind ∈ [.keyword, .predefined, .identifier]) : IsIdentifier word := by
  cases h with
  | keyword hword => exact isIdentifier_of_keyword _ hword
  | predefined hword => exact isIdentifier_of_predefined _ hword
  | identifier hword => exact hword
  | comment | closed | unclosed | number | plain => simp at hkind

/-- Where a word starts in the middle of ASCII word characters, the token before it is a number. -/
theorem follows_of_seam (ht : t ∈ rhai.tokens line) (hline : line = before ++ (word ++ after))
    (htoken : t = Token.spanning before word t.kind) (hfirst : ∃ c ∈ word.head?, Text.isAsciiWord c)
    (hlast : ∃ c ∈ before.getLast?, Text.isAsciiWord c) : Follows .number (rhai.tokens line) t := by
  have htiles : Tiles 0 (rhai.tokens line) line.byteLength := (reads_tokens line).tiles
  have hstart : t.start = before.byteLength := congrArg Token.start htoken
  obtain ⟨pre, post, htokens⟩ := List.append_of_mem ht
  rcases List.eq_nil_or_concat pre with rfl | ⟨pre, s, rfl⟩
  · rw [htokens] at htiles
    obtain rfl : before = [] := Text.byteLength_eq_zero_iff.1 (hstart.symm.trans htiles.1)
    obtain ⟨c, hc, -⟩ := hlast
    cases hc
  · rw [List.concat_eq_append, List.append_assoc] at htokens
    have hs : s ∈ rhai.tokens line := by simp [htokens]
    obtain ⟨before', word', after', hline', hs', hlexeme⟩ := exists_lexeme hs
    have hne : word' ≠ [] := by
      rintro rfl
      have hlt := htiles.start_lt_stop hs
      rw [hs'] at hlt
      exact Nat.lt_irrefl _ hlt
    have hstop : (before' ++ word').byteLength = before.byteLength := by
      rw [htokens] at htiles
      rw [← hstart, ← htiles.stop_eq_start, hs']
      exact Token.stop_spanning.symm
    rw [hline', ← List.append_assoc] at hline
    obtain ⟨rfl, rfl⟩ := Text.eq_of_byteLength_eq hline hstop
    refine ⟨pre, s, post, htokens, hlexeme.kind_of_seam ?_ ?_⟩
    · rwa [List.getLast?_append_of_ne_nil _ hne] at hlast
    · obtain ⟨c, hc, hcw⟩ := hfirst
      exact ⟨c, by rw [List.head?_append, hc]; rfl, hcw⟩

/-! ### Listed words -/

theorem mem_head?_of_append_eq {u v u' v' : Text} {c : Char} (h : u ++ v = u' ++ v') (hne : u' ≠ [])
    (hc : c ∈ u.head?) : c ∈ u'.head? := by
  have hhead := congrArg List.head? h
  rw [List.head?_append, hc, List.head?_append_of_ne_nil _ hne] at hhead
  exact hhead.symm

theorem isIdentifier_of_listed (h : word ∈ keywords ++ predefinedNames) : IsIdentifier word := by
  rcases List.mem_append.1 h with h | h
  · exact isIdentifier_of_keyword word h
  · exact isIdentifier_of_predefined word h

/-- A listed word is taken as what it is where no word character follows. -/
theorem Lexeme.kind_of_listed {w rest : Text} (h : Lexeme kind word after) (hne : word ≠ [])
    (hcut : w ++ rest = word ++ after) (hw : w ∈ keywords ++ predefinedNames)
    (hrest : ∀ c ∈ rest.head?, ¬ Text.isWord c) :
    w = word ∧ (w ∈ keywords ∧ kind = .keyword ∨ w ∈ predefinedNames ∧ kind = .predefined) := by
  have hidentifier := isIdentifier_of_listed hw
  have hsame : IsIdentifier word → (∀ c ∈ after.head?, ¬ Text.isAsciiWord c) → w = word := by
    intro hword hafter
    have hend : ∀ c ∈ rest.head?, ¬ Text.isAsciiWord c :=
      fun c hc hcw => hrest c hc (Text.isWord_of_isAsciiWord hcw)
    have htake := Text.takeWhile_append hidentifier.chars hend
    rw [hcut, Text.takeWhile_append hword.chars hafter] at htake
    exact htake.symm
  obtain ⟨c, hc, hletter⟩ := hidentifier.first
  have hfirst := mem_head?_of_append_eq hcut hne hc
  have hcw := Text.isAsciiWord_of_letter hletter
  cases h with
  | comment =>
      obtain rfl := Option.some.inj hfirst
      cases hcw
  | closed hq | unclosed hq =>
      obtain rfl := Option.some.inj hfirst
      exact absurd hcw hq.not_isAsciiWord
  | keyword hword hafter =>
      obtain rfl := hsame (isIdentifier_of_keyword _ hword) fun c hc hcw =>
        hafter c hc (Text.isWord_of_isAsciiWord hcw)
      exact ⟨rfl, .inl ⟨hword, rfl⟩⟩
  | predefined hword hafter =>
      obtain rfl := hsame (isIdentifier_of_predefined _ hword) fun c hc hcw =>
        hafter c hc (Text.isWord_of_isAsciiWord hcw)
      exact ⟨rfl, .inr ⟨hword, rfl⟩⟩
  | number hdigit =>
      obtain ⟨d, hd, hdigit⟩ := hdigit
      obtain rfl : c = d := Option.some.inj (hfirst.symm.trans hd)
      exact absurd hdigit (Text.not_isDigit_of_letter hletter)
  | identifier hword hafter hlisted =>
      obtain rfl := hsame hword hafter
      obtain rfl := List.append_cancel_left hcut
      obtain ⟨d, hd, hdw⟩ := hlisted hw
      exact absurd hdw (hrest d hd)
  | plain hword =>
      obtain ⟨v, rfl⟩ := List.head?_eq_some_iff.1 hfirst
      exact absurd hcw (hword [] c v rfl).1

/-- Only strings, comments and numbers go on over a place where a word starts. -/
theorem Lexeme.kind_of_inside {u v : Text} {c d : Char} (h : Lexeme kind (u ++ c :: v) after)
    (hd : d ∈ u.getLast?) (hlast : ¬ Text.isAsciiWord d) (hc : Text.isAsciiWord c) :
    kind ∈ [.string, .comment, .number] := by
  have hmem : d ∈ u ++ c :: v := List.mem_append_left _ (List.mem_of_getLast? hd)
  generalize htext : u ++ c :: v = text at h hmem
  cases h with
  | comment | closed | unclosed | number => simp
  | keyword hword => exact absurd ((isIdentifier_of_keyword _ hword).chars d hmem) hlast
  | predefined hword => exact absurd ((isIdentifier_of_predefined _ hword).chars d hmem) hlast
  | identifier hword => exact absurd (hword.chars d hmem) hlast
  | plain hword => exact absurd hc (hword u c v htext.symm).1

theorem exists_listed (hline : line = before ++ (word ++ after))
    (hw : word ∈ keywords ++ predefinedNames) (hbefore : ∀ c ∈ before.getLast?, ¬ Text.isAsciiWord c)
    (hafter : ∀ c ∈ after.head?, ¬ Text.isWord c)
    (hout : Outside [.string, .comment, .number] (rhai.tokens line) before.byteLength) :
    ∃ t ∈ rhai.tokens line, t = Token.spanning before word t.kind ∧
      (word ∈ keywords ∧ t.kind = .keyword ∨ word ∈ predefinedNames ∧ t.kind = .predefined) := by
  have hidentifier := isIdentifier_of_listed hw
  have hne : word ++ after ≠ [] := List.append_ne_nil_of_left_ne_nil hidentifier.ne_nil after
  obtain ⟨t, ht, b, u, v, a, rfl, hcut, hv, htoken, hlexeme⟩ := exists_lexeme_over hline hne
  obtain rfl : u = [] := by
    by_contra hu
    obtain ⟨d, hd⟩ := Option.ne_none_iff_exists'.1 (mt List.getLast?_eq_none_iff.1 hu)
    have hlast : ¬ Text.isAsciiWord d := by
      rw [List.getLast?_append_of_ne_nil _ hu] at hbefore
      exact hbefore d hd
    obtain ⟨c, hc, hletter⟩ := hidentifier.first
    obtain ⟨w, rfl⟩ := List.head?_eq_some_iff.1 (mem_head?_of_append_eq hcut hv hc)
    have hkind := hlexeme.kind_of_inside hd hlast (Text.isAsciiWord_of_letter hletter)
    exact hu (eq_nil_of_outside hout ht htoken hv hkind)
  obtain ⟨rfl, hkind⟩ := hlexeme.kind_of_listed hv hcut hw hafter
  rw [List.append_nil]
  exact ⟨t, ht, htoken, hkind⟩

/-- A keyword or a predefined name is listed and no word goes on after it. An identifier takes all ASCII
word characters that follow and is listed only if a letter of another script follows. No ASCII word
character is plain, and none stands right before one of these words except at the end of a number. So a
keyword in a stretch of ASCII word characters is all of it, or all that a number leaves of it. And a
listed word is found where no ASCII word character stands before it and no word character after it,
unless a string, a comment or a number begun earlier goes on over it. -/
theorem keywords_are_whole_words (line : Text) :
    (∀ t ∈ rhai.tokens line, ∃ before word after,
      line = before ++ (word ++ after) ∧ t = Token.spanning before word t.kind ∧
        (t.kind = .keyword → word ∈ keywords ∧ ∀ c ∈ after.head?, ¬ Text.isWord c) ∧
        (t.kind = .predefined → word ∈ predefinedNames ∧ ∀ c ∈ after.head?, ¬ Text.isWord c) ∧
        (t.kind = .identifier → IsIdentifier word ∧ (∀ c ∈ after.head?, ¬ Text.isAsciiWord c) ∧
          (word ∈ keywords ++ predefinedNames → ∃ c ∈ after.head?, Text.isWord c ∧ 128 ≤ c.toNat)) ∧
        (t.kind = .plain → ∀ c ∈ word, ¬ Text.isAsciiWord c) ∧
        (t.kind ∈ [.keyword, .predefined, .identifier] →
          ∀ c ∈ before.getLast?, Text.isAsciiWord c → Follows .number (rhai.tokens line) t) ∧
        (t.kind = .keyword → ∀ u v, u <:+ before → v <+: after → (∀ c ∈ u ++ v, Text.isAsciiWord c) →
          v = [] ∧ (u = [] ∨ Follows .number (rhai.tokens line) t))) ∧
      ∀ before word after, line = before ++ (word ++ after) →
        (∀ c ∈ before.getLast?, ¬ Text.isAsciiWord c) → (∀ c ∈ after.head?, ¬ Text.isWord c) →
        Outside [.string, .comment, .number] (rhai.tokens line) before.byteLength →
          (word ∈ keywords → Token.spanning before word .keyword ∈ rhai.tokens line) ∧
          (word ∈ predefinedNames → Token.spanning before word .predefined ∈ rhai.tokens line) := by
  constructor
  · intro t ht
    obtain ⟨before, word, after, hline, htoken, hlexeme⟩ := exists_lexeme ht
    have hseam : t.kind ∈ [.keyword, .predefined, .identifier] →
        ∀ c ∈ before.getLast?, Text.isAsciiWord c → Follows .number (rhai.tokens line) t := by
      intro hkind c hc hcw
      obtain ⟨d, hd, hletter⟩ := (hlexeme.isIdentifier hkind).first
      exact follows_of_seam ht hline htoken ⟨d, hd, Text.isAsciiWord_of_letter hletter⟩ ⟨c, hc, hcw⟩
    have hkeyword : t.kind = .keyword → word ∈ keywords ∧ ∀ c ∈ after.head?, ¬ Text.isWord c := by
      intro hkind
      rw [hkind] at hlexeme
      cases hlexeme with
      | keyword hword hafter => exact ⟨hword, hafter⟩
    refine ⟨before, word, after, hline, htoken, hkeyword, ?_, ?_, ?_, hseam, ?_⟩
    · intro hkind
      rw [hkind] at hlexeme
      cases hlexeme with
      | predefined hword hafter => exact ⟨hword, hafter⟩
    · intro hkind
      rw [hkind] at hlexeme
      cases hlexeme with
      | identifier hword hafter hlisted =>
          refine ⟨hword, hafter, fun hw => ?_⟩
          obtain ⟨d, hd, hdw⟩ := hlisted hw
          refine ⟨d, hd, hdw, ?_⟩
          by_contra hascii
          exact hafter d hd ((Text.isWord_of_ascii (Nat.lt_of_not_le hascii)).symm.trans hdw)
    · intro hkind c hc
      rw [hkind] at hlexeme
      cases hlexeme with
      | plain hword =>
          obtain ⟨u, v, huv⟩ := List.append_of_mem hc
          exact (hword u c v huv).1
    · rintro hkind u v hu ⟨v', rfl⟩ hchars
      have hv : v = [] := by
        cases v with
        | nil => rfl
        | cons c v =>
            have hc : Text.isAsciiWord c := hchars c (by simp)
            exact absurd (Text.isWord_of_isAsciiWord hc) ((hkeyword hkind).2 c rfl)
      refine ⟨hv, ?_⟩
      rcases List.eq_nil_or_concat u with rfl | ⟨u, c, rfl⟩
      · exact .inl rfl
      · obtain ⟨b, rfl⟩ := hu
        exact .inr (hseam (by simp [hkind]) c (by simp) (hchars c (by simp)))
  · intro before word after hline hbefore hafter hout
    have hdisjoint : ∀ w ∈ keywords, w ∉ predefinedNames := by decide
    constructor
    · intro hw
      obtain ⟨t, ht, htoken, hkind⟩ :=
        exists_listed hline (List.mem_append_left _ hw) hbefore hafter hout
      rcases hkind with ⟨-, hkind⟩ | ⟨hw', -⟩
      · rw [hkind] at htoken
        exact htoken ▸ ht
      · exact absurd hw' (hdisjoint word hw)
    · intro hw
      obtain ⟨t, ht, htoken, hkind⟩ :=
        exists_listed hline (List.mem_append_right _ hw) hbefore hafter hout
      rcases hkind with ⟨hw', -⟩ | ⟨-, hkind⟩
      · exact absurd hw (hdisjoint word hw')
      · rw [hkind] at htoken
        exact htoken ▸ ht

/-- A keyword right after a number is one though a digit stands before it. -/
theorem keywords_are_whole_words_number :
    (⟨1, 3, .keyword⟩ : Token) ∈ rhai.tokens "1if".toList ∧
      Follows .number (rhai.tokens "1if".toList) ⟨1, 3, .keyword⟩ := by
  have htokens : rhai.tokens "1if".toList = [⟨0, 1, .number⟩, ⟨1, 3, .keyword⟩] := by
    have hnumber : rhai.tokenizer.firstTake? (['1'] ++ (['i', 'f'] ++ [])) = some (.number, 1) := by
      decide
    have hkeyword : rhai.tokenizer.firstTake? (['i', 'f'] ++ []) = some (.keyword, 2) := by decide
    show Token.ofPieces 0 (rhai.tokenizer.piecesFrom [] (['1'] ++ (['i', 'f'] ++ []))) = _
    rw [Tokenizer.piecesFrom_of_firstTake? hnumber, Tokenizer.piecesFrom_of_firstTake? hkeyword,
      Tokenizer.piecesFrom]
    rfl
  have hmem : (⟨1, 3, .keyword⟩ : Token) ∈ rhai.tokens "1if".toList := by
    rw [htokens]
    decide
  obtain ⟨before, word, after, hline, htoken, -, -, -, -, hseam, -⟩ :=
    (keywords_are_whole_words "1if".toList).1 _ hmem
  have hcut : ['1'] ++ ['i', 'f'] = before ++ (word ++ after) := hline
  have hstart : Text.byteLength ['1'] = before.byteLength := congrArg Token.start htoken
  obtain ⟨rfl, -⟩ := Text.eq_of_byteLength_eq hcut hstart
  exact ⟨hmem, hseam (by decide) '1' rfl (by decide)⟩

end Language

end ScriptPad
