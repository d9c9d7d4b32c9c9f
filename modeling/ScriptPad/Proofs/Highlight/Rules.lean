import ScriptPad.Proofs.Highlight.Matching
import ScriptPad.Proofs.Highlight.Tiling

/-!
What the rules for scripts take, said without patterns: a comment everything up to the end of the line,
a text in quotes its opening quote, its body and the closing quote if there is one, a listed word itself
where no word character follows, an identifier all the ASCII word characters after its first one, and a
number starts with a digit.
-/

namespace ScriptPad

open Pattern (Place Rounds)

namespace Text

variable {c : Char}

theorem isUpper_iff (c : Char) : c.isUpper ↔ 65 ≤ c.toNat ∧ c.toNat ≤ 90 := by
  show decide (c.val ≥ 'A'.val ∧ c.val ≤ 'Z'.val) = true ↔ _
  exact decide_eq_true_iff

theorem isLower_iff (c : Char) : c.isLower ↔ 97 ≤ c.toNat ∧ c.toNat ≤ 122 := by
  show (decide (c.val ≥ 'a'.val) && decide (c.val ≤ 'z'.val)) = true ↔ _
  rw [Bool.and_eq_true, decide_eq_true_iff, decide_eq_true_iff]
  rfl

theorem isAsciiWord_iff (c : Char) : isAsciiWord c ↔
    65 ≤ c.toNat ∧ c.toNat ≤ 90 ∨ 97 ≤ c.toNat ∧ c.toNat ≤ 122 ∨ 48 ≤ c.toNat ∧ c.toNat ≤ 57 ∨
      c.toNat = 95 := by
  show (((c.isUpper || c.isLower) || c.isDigit) || c == '_') = true ↔ _
  rw [Bool.or_eq_true, Bool.or_eq_true, Bool.or_eq_true, isUpper_iff, isLower_iff,
    Char.isDigit_iff_toNat, beq_iff_eq, ← Char.toNat_inj, or_assoc, or_assoc]
  rfl

theorem not_isDigit_of_letter (h : c.isAlpha ∨ c = '_') : ¬ c.isDigit := by
  rw [Char.isDigit_iff_toNat]
  rcases h with h | rfl
  · rcases Bool.or_eq_true_iff.1 h with h | h
    · rw [isUpper_iff] at h
      show ¬ (48 ≤ c.toNat ∧ c.toNat ≤ 57)
      omega
    · rw [isLower_iff] at h
      show ¬ (48 ≤ c.toNat ∧ c.toNat ≤ 57)
      omega
  · decide

theorem isAsciiWord_of_letter (h : c.isAlpha ∨ c = '_') : isAsciiWord c := by
  rcases h with h | rfl
  · simp [isAsciiWord, Char.isAlphanum, h]
  · decide

theorem isAsciiWord_cases (h : isAsciiWord c) : c.isDigit ∨ c.isAlpha ∨ c = '_' := by
  rcases Bool.or_eq_true_iff.1 h with h | h
  · exact (Bool.or_eq_true_iff.1 h).symm.imp_right .inl
  · exact .inr (.inr (eq_of_beq h))

theorem toNat_lt_of_isAsciiWord (h : isAsciiWord c) : c.toNat < 128 := by
  rw [isAsciiWord_iff] at h
  omega

theorem isWord_of_isAsciiWord (h : isAsciiWord c) : isWord c :=
  (isWord_of_ascii (toNat_lt_of_isAsciiWord h)).trans h

end Text

namespace ClassItem

theorem contains_one_iff (d c : Char) : (ClassItem.one d).contains c ↔ c.toNat = d.toNat := by
  simp [contains, Char.toNat_inj]

theorem contains_range_iff (lo hi c : Char) :
    (ClassItem.range lo hi).contains c ↔ lo.toNat ≤ c.toNat ∧ c.toNat ≤ hi.toNat := by
  simp [contains, UInt32.le_iff_toNat_le]

end ClassItem

/-! ### Matches that take something -/

section

variable {p : Pattern} {t word after : Text} {r : Place} {n : Nat}

theorem exists_takes_of_mem_ends (hr : r ∈ p.ends { rest := t })
    (hpos : ∀ r ∈ p.ends { rest := t }, 0 < r.passed) : ∃ n, p.matcher.Takes t n := by
  obtain ⟨r', hr'⟩ := Option.ne_none_iff_exists'.1
    (mt List.head?_eq_none_iff.1 (List.ne_nil_of_mem hr))
  exact ⟨r'.passed, Pattern.matchLength_of_first? hr', hpos r' (List.mem_of_mem_head? hr')⟩

/-- A match that takes a text and then all the characters of a class that follow it. -/
theorem exists_of_length_takeWhile {accept : Char → Bool} {u : Text} (lead : Text)
    (h : word ++ after = lead ++ u)
    (hlength : word.length = lead.length + (u.takeWhile accept).length) :
    ∃ v, word = lead ++ v ∧ (∀ c ∈ v, accept c) ∧ ∀ c ∈ after.head?, ¬ accept c := by
  rw [← List.takeWhile_append_dropWhile (p := accept) (l := u), ← List.append_assoc] at h
  obtain ⟨rfl, rfl⟩ := List.append_inj h (by rw [hlength, List.length_append])
  refine ⟨_, rfl, List.all_eq_true.1 List.all_takeWhile, fun c hc => ?_⟩
  have hhead := List.head?_dropWhile_not accept u
  rw [hc] at hhead
  simp [hhead]

theorem accepts_of_takes (h : p.matcher.Takes (word ++ after) word.length) (c : Char) (hc : c ∈ word) :
    p.accepts c := by
  obtain ⟨r, hr, hlength⟩ := Option.map_eq_some_iff.1 h.1
  obtain ⟨w, hw, hpast, hacc⟩ := Pattern.reaches_of_mem_ends (List.mem_of_mem_head? hr)
  have hpassed : w.length = word.length := by
    rw [hpast, Place.passed_past, Nat.zero_add] at hlength
    exact hlength
  obtain ⟨rfl, -⟩ := List.append_inj hw hpassed.symm
  exact hacc c hc

end

namespace Language

variable {t u body rest word after : Text} {words : List Text} {n : Nat} {c q : Char} {s r : Place}

/-! ### Comments -/

theorem matchLength_lineComment (t : Text) :
    lineComment.matchLength ('/' :: '/' :: t) = some (2 + (t.takeWhile (· != '\n')).length) := by
  let s : Place := { rest := '/' :: '/' :: t }
  have hfirst : (Pattern.char '/').first? s = some (s.past ['/'] ('/' :: t)) :=
    Pattern.first?_char rfl
  have hsecond : (Pattern.char '/').first? (s.past ['/'] ('/' :: t)) =
      some ((s.past ['/'] ('/' :: t)).past ['/'] t) := Pattern.first?_char rfl
  have hrest := Pattern.first?_many
    (Pattern.rounds_of_step (p := .any) (fun _ => rfl) ((s.past ['/'] ('/' :: t)).past ['/'] t))
  exact Pattern.matchLength_of_first? (Pattern.first?_seq (Pattern.first?_seq hfirst hsecond) hrest)

theorem exists_of_matchLength_lineComment (h : lineComment.matchLength t = some n) :
    ∃ u, t = '/' :: '/' :: u := by
  obtain ⟨m, hm⟩ := Pattern.exists_mem_ends_of_seq h
  obtain ⟨u, hu, -⟩ := Pattern.mem_ends_literal.1 hm
  exact ⟨u, hu⟩

/-! ### Texts in quotes -/

/-- Where the body of a text in quotes ends: before its quote or the end of the line, or before a
backslash that protects nothing. -/
inductive BodyEnds (q : Char) : Text → Prop
  | line : BodyEnds q []
  | quote (t : Text) : BodyEnds q (q :: t)
  | backslash : BodyEnds q ['\\']
  | backslashNewline (t : Text) : BodyEnds q ('\\' :: '\n' :: t)

/-- The body of a text in quotes, and what is left after it. -/
inductive QuotedBody (q : Char) : Text → Text → Prop
  | stop {rest : Text} (h : BodyEnds q rest) : QuotedBody q [] rest
  | char {c : Char} {body rest : Text} (hq : c ≠ q) (hb : c ≠ '\\') (h : QuotedBody q body rest) :
      QuotedBody q (c :: body) rest
  | escape {c : Char} {body rest : Text} (hc : c ≠ '\n') (h : QuotedBody q body rest) :
      QuotedBody q ('\\' :: c :: body) rest

theorem QuotedBody.bodyEnds (h : QuotedBody q body rest) : BodyEnds q rest := by
  induction h with
  | stop h => exact h
  | char _ _ _ ih => exact ih
  | escape _ _ ih => exact ih

theorem exists_quotedBody (q : Char) (t : Text) :
    ∃ body rest, t = body ++ rest ∧ QuotedBody q body rest := by
  match t with
  | [] => exact ⟨[], [], rfl, .stop .line⟩
  | c :: t =>
      by_cases hq : c = q
      · subst hq
        exact ⟨[], _, rfl, .stop (.quote t)⟩
      by_cases hb : c = '\\'
      · subst hb
        match t with
        | [] => exact ⟨[], ['\\'], rfl, .stop .backslash⟩
        | c :: t =>
            by_cases hc : c = '\n'
            · subst hc
              exact ⟨[], _, rfl, .stop (.backslashNewline t)⟩
            · obtain ⟨body, rest, rfl, h⟩ := exists_quotedBody q t
              exact ⟨'\\' :: c :: body, rest, rfl, .escape hc h⟩
      · obtain ⟨body, rest, rfl, h⟩ := exists_quotedBody q t
        exact ⟨c :: body, rest, rfl, .char hq hb h⟩
termination_by t.length

theorem ends_quotedUnit_of_head? (h : s.rest.head? ≠ some '\\') (q : Char) :
    (quotedUnit q).ends s = s.step fun c => c != q && c != '\\' := by
  have hclass : (Pattern.noneOf [.one q, .one '\\']).ends s = s.step fun c => c != q && c != '\\' := by
    refine congrArg s.step (funext fun c => ?_)
    simp [ClassItem.contains, bne]
  show (Pattern.noneOf [.one q, .one '\\']).ends s ++ (Pattern.seq (.char '\\') .any).ends s = _
  rw [hclass, Pattern.ends_seq_of_nil (Pattern.ends_char_of_head? h), List.append_nil]

theorem ends_quotedUnit_backslash (h : s.rest = '\\' :: t) (q : Char) :
    (quotedUnit q).ends s = Pattern.any.ends (s.past ['\\'] t) := by
  have hplain : (Pattern.noneOf [.one q, .one '\\']).ends s = [] :=
    (Place.step_of_cons h).trans (if_neg (by simp [ClassItem.contains]))
  have hchar : (Pattern.char '\\').ends s = [s.past ['\\'] t] := (Place.step_of_cons h).trans (if_pos rfl)
  show (Pattern.noneOf [.one q, .one '\\']).ends s ++
    ((Pattern.char '\\').ends s).flatMap Pattern.any.ends = _
  rw [hplain, hchar]
  simp

theorem ends_quotedUnit_char (h : s.rest = c :: t) (hq : c ≠ q) (hb : c ≠ '\\') :
    (quotedUnit q).ends s = [s.past [c] t] := by
  rw [ends_quotedUnit_of_head? (by simpa [h] using hb) q, Place.step_of_cons h, if_pos]
  simp [hq, hb]

theorem ends_quotedUnit_escape (h : s.rest = '\\' :: c :: t) (hc : c ≠ '\n') :
    (quotedUnit q).ends s = [s.past ['\\', c] t] := by
  rw [ends_quotedUnit_backslash h]
  refine ((Place.step_of_cons (Place.rest_past)).trans (if_pos (by simpa using hc))).trans ?_
  rw [Place.past_cons]

theorem ends_quotedUnit_of_bodyEnds (hq : q ≠ '\\') (h : BodyEnds q s.rest) :
    (quotedUnit q).ends s = [] := by
  generalize hs : s.rest = t at h
  cases h with
  | line => rw [ends_quotedUnit_of_head? (by simp [hs]) q, Place.step_of_nil hs]
  | quote t =>
      rw [ends_quotedUnit_of_head? (by simpa [hs] using hq) q, Place.step_of_cons hs, if_neg]
      simp
  | backslash =>
      rw [ends_quotedUnit_backslash hs]
      exact Place.step_of_nil rfl
  | backslashNewline t =>
      rw [ends_quotedUnit_backslash hs]
      exact (Place.step_of_cons rfl).trans (if_neg (by simp))

theorem rounds_of_quotedBody (hq : q ≠ '\\') (h : QuotedBody q body rest) (hs : s.rest = body ++ rest) :
    Rounds (quotedUnit q).ends s (s.past body rest) := by
  induction h generalizing s with
  | @stop rest h =>
      obtain rfl : s.rest = rest := hs
      exact .stop (ends_quotedUnit_of_bodyEnds hq h)
  | @char c body rest hc hb h ih =>
      have hnext := ih (s := s.past [c] (body ++ rest)) rfl
      rw [Place.past_cons] at hnext
      exact .round (ends_quotedUnit_char hs hc hb) (Nat.lt_succ_self _) hnext
  | @escape c body rest hc h ih =>
      have hnext := ih (s := s.past ['\\', c] (body ++ rest)) rfl
      rw [Place.past_past] at hnext
      refine .round (ends_quotedUnit_escape hs hc) ?_ hnext
      show s.passed < s.passed + 2
      omega

theorem first?_quoted (hq : q ≠ '\\') (h : QuotedBody q body rest) (hs : s.rest = q :: (body ++ rest))
    (hclose : (Pattern.optional (.char q)).first? (s.past (q :: body) rest) = some r) :
    (quoted q).first? s = some r := by
  have hopen : (Pattern.char q).first? s = some (s.past [q] (body ++ rest)) := Pattern.first?_char hs
  have hbody : (Pattern.many (quotedUnit q)).first? (s.past [q] (body ++ rest)) =
      some (s.past (q :: body) rest) := by
    have hrounds := rounds_of_quotedBody hq h (s := s.past [q] (body ++ rest)) rfl
    rw [Place.past_cons] at hrounds
    exact Pattern.first?_many hrounds
  exact Pattern.first?_seq hopen (Pattern.first?_seq hbody hclose)

theorem matchLength_quoted_closed (hq : q ≠ '\\') (h : QuotedBody q body (q :: after)) :
    (quoted q).matchLength (q :: (body ++ q :: after)) = some (body.length + 2) := by
  have hclose := Pattern.first?_optional_of_some (Pattern.first?_char
    (s := Place.past { rest := q :: (body ++ q :: after) } (q :: body) (q :: after)) rfl)
  rw [Place.past_past] at hclose
  refine (Pattern.matchLength_of_first? (first?_quoted hq h rfl hclose)).trans ?_
  simp

theorem matchLength_quoted_open (hq : q ≠ '\\') (h : QuotedBody q body rest)
    (hne : rest.head? ≠ some q) :
    (quoted q).matchLength (q :: (body ++ rest)) = some (body.length + 1) := by
  have hends := Pattern.ends_char_of_head?
    (s := Place.past { rest := q :: (body ++ rest) } (q :: body) rest) hne
  have hfirst := first?_quoted hq h rfl (Pattern.first?_optional_of_nil hends)
  refine (Pattern.matchLength_of_first? hfirst).trans ?_
  simp

theorem exists_of_matchLength_quoted (h : (quoted q).matchLength t = some n) : ∃ u, t = q :: u := by
  obtain ⟨m, hm⟩ := Pattern.exists_mem_ends_of_seq h
  obtain ⟨c, u, hu, hc, -⟩ := Place.mem_step_iff.1 hm
  exact ⟨u, by rw [← eq_of_beq hc]; exact hu⟩

theorem exists_takes_quoted (q : Char) (t : Text) : ∃ n, (quoted q).matcher.Takes (q :: t) n := by
  let s : Place := { rest := q :: t }
  have hopen : s.past [q] t ∈ (Pattern.char q).ends s :=
    Place.mem_step_iff.2 ⟨q, t, rfl, by simp, rfl⟩
  obtain ⟨r, hbody⟩ := Pattern.exists_mem_ends_many (quotedUnit q) (s.past [q] t)
  have hr : r ∈ (quoted q).ends s :=
    Pattern.mem_ends_seq hopen (Pattern.mem_ends_seq hbody (Pattern.mem_ends_optional _ r))
  exact exists_takes_of_mem_ends hr fun r => Pattern.passed_lt_of_mem_ends rfl

/-! ### Listed words -/

structure IsIdentifier (word : Text) : Prop where
  first : ∃ c ∈ word.head?, c.isAlpha ∨ c = '_'
  chars : ∀ c ∈ word, Text.isAsciiWord c

theorem IsIdentifier.ne_nil (h : IsIdentifier word) : word ≠ [] := by
  rintro rfl
  obtain ⟨c, hc, -⟩ := h.first
  cases hc

theorem isIdentifier_of_all (h : words.all fun w => w.head?.any (fun c => c.isAlpha || c == '_') &&
    w.all Text.isAsciiWord) (hw : word ∈ words) : IsIdentifier word := by
  have hword := List.all_eq_true.1 h word hw
  rw [Bool.and_eq_true, List.all_eq_true, Option.any_eq_true] at hword
  exact ⟨by simpa using hword.1, hword.2⟩

theorem isIdentifier_of_keyword : ∀ w ∈ keywords, IsIdentifier w :=
  fun _ => isIdentifier_of_all (by decide)

theorem isIdentifier_of_predefined : ∀ w ∈ predefinedNames, IsIdentifier w :=
  fun _ => isIdentifier_of_all (by decide)

theorem mem_ends_wholeWord (hne : words ≠ []) : r ∈ (wholeWord words).ends s ↔
    ∃ w ∈ words, ∃ rest, s.rest = w ++ rest ∧ r = s.past w rest ∧ r.atWordBoundary := by
  have hbound : ∀ m : Place, r ∈ Pattern.wordBoundary.ends m ↔ r = m ∧ m.atWordBoundary := by
    intro m
    show r ∈ (if m.atWordBoundary then [m] else []) ↔ _
    split <;> simp [*]
  have hchoice : ∀ m : Place, m ∈ (Pattern.group (.choice (words.map .literal))).ends s ↔
      ∃ w ∈ words, ∃ rest, s.rest = w ++ rest ∧ m = s.past w rest := by
    intro m
    show m ∈ (Pattern.choice (words.map .literal)).ends s ↔ _
    rw [Pattern.mem_ends_choice (by simpa using hne)]
    simp [Pattern.mem_ends_literal]
  show r ∈ (Pattern.ends _ s).flatMap Pattern.wordBoundary.ends ↔ _
  rw [List.mem_flatMap]
  constructor
  · rintro ⟨m, hm, hr⟩
    obtain ⟨w, hw, rest, hs, rfl⟩ := (hchoice m).1 hm
    obtain ⟨rfl, hbnd⟩ := (hbound _).1 hr
    exact ⟨w, hw, rest, hs, rfl, hbnd⟩
  · rintro ⟨w, hw, rest, hs, rfl, hbnd⟩
    exact ⟨_, (hchoice _).2 ⟨w, hw, rest, hs, rfl⟩, (hbound _).2 ⟨rfl, hbnd⟩⟩

theorem atWordBoundary_past (hword : IsIdentifier word) :
    (s.past word rest).atWordBoundary ↔ ∀ c ∈ rest.head?, ¬ Text.isWord c := by
  obtain ⟨d, hd⟩ := Option.ne_none_iff_exists'.1 (mt List.getLast?_eq_none_iff.1 hword.ne_nil)
  have hdw : Text.isWord d := Text.isWord_of_isAsciiWord (hword.chars d (List.mem_of_getLast? hd))
  cases rest <;> simp [Place.atWordBoundary, Place.past, hd, hdw]

theorem wholeWord_of_takes (hwords : ∀ w ∈ words, IsIdentifier w) (hne : words ≠ [])
    (h : (wholeWord words).matcher.Takes (word ++ after) word.length) :
    word ∈ words ∧ ∀ c ∈ after.head?, ¬ Text.isWord c := by
  obtain ⟨r, hr, hlength⟩ := Option.map_eq_some_iff.1 h.1
  obtain ⟨w, hw, rest, hs, rfl, hbnd⟩ := (mem_ends_wholeWord hne).1 (List.mem_of_mem_head? hr)
  rw [Place.passed_past, Nat.zero_add] at hlength
  obtain ⟨rfl, rfl⟩ := List.append_inj hs hlength.symm
  exact ⟨hw, (atWordBoundary_past (hwords word hw)).1 hbnd⟩

theorem exists_takes_wholeWord (hwords : ∀ w ∈ words, IsIdentifier w) (hne : words ≠ []) (hw : word ∈ words)
    (hafter : ∀ c ∈ after.head?, ¬ Text.isWord c) :
    ∃ n, (wholeWord words).matcher.Takes (word ++ after) n := by
  have hbnd : (Place.past { rest := word ++ after } word after).atWordBoundary :=
    (atWordBoundary_past (hwords word hw)).2 hafter
  refine exists_takes_of_mem_ends ((mem_ends_wholeWord hne).2 ⟨word, hw, after, rfl, rfl, hbnd⟩) ?_
  intro r hr
  obtain ⟨w, hw, rest, -, rfl, -⟩ := (mem_ends_wholeWord hne).1 hr
  rw [Place.passed_past, Nat.zero_add]
  exact List.length_pos_iff.2 (hwords w hw).ne_nil

/-! ### Identifiers -/

theorem ends_identifierStart (s : Place) :
    identifierStart.ends s = s.step fun c => c.isAlpha || c == '_' := by
  have hclass : (fun c => [ClassItem.range 'A' 'Z', .range 'a' 'z', .one '_'].any (·.contains c)) =
      fun c => c.isAlpha || c == '_' := by
    funext c
    show _ = ((c.isUpper || c.isLower) || c == '_')
    rw [Bool.eq_iff_iff, Bool.or_eq_true, Bool.or_eq_true, Text.isUpper_iff, Text.isLower_iff,
      beq_iff_eq, ← Char.toNat_inj]
    simp [ClassItem.contains_one_iff, ClassItem.contains_range_iff, or_assoc]
  exact congrArg s.step hclass

theorem ends_identifierPart (s : Place) : identifierPart.ends s = s.step Text.isAsciiWord := by
  have hclass : (fun c => [ClassItem.range 'A' 'Z', .range 'a' 'z', .range '0' '9', .one '_'].any
      (·.contains c)) = Text.isAsciiWord := by
    funext c
    rw [Bool.eq_iff_iff, Text.isAsciiWord_iff]
    simp [ClassItem.contains_one_iff, ClassItem.contains_range_iff]
  exact congrArg s.step hclass

theorem matchLength_identifier (hc : c.isAlpha ∨ c = '_') (t : Text) :
    identifier.matchLength (c :: t) = some (1 + (t.takeWhile Text.isAsciiWord).length) := by
  let s : Place := { rest := c :: t }
  have hstart : identifierStart.first? s = some (s.past [c] t) := by
    show (identifierStart.ends s).head? = _
    rw [ends_identifierStart, Place.step_of_cons rfl, if_pos (by simpa using hc)]
    rfl
  have hrest := Pattern.first?_many (Pattern.rounds_of_step ends_identifierPart (s.past [c] t))
  exact Pattern.matchLength_of_first? (Pattern.first?_seq hstart hrest)

theorem exists_of_matchLength_identifier (h : identifier.matchLength t = some n) :
    ∃ c u, t = c :: u ∧ (c.isAlpha ∨ c = '_') := by
  obtain ⟨m, hm⟩ := Pattern.exists_mem_ends_of_seq h
  rw [ends_identifierStart] at hm
  obtain ⟨c, u, hu, hc, -⟩ := Place.mem_step_iff.1 hm
  exact ⟨c, u, hu, by simpa using hc⟩

/-! ### Numbers -/

theorem ends_decimalDigit (s : Place) : decimalDigit.ends s = s.step Char.isDigit := by
  have hclass : (fun c => [ClassItem.range '0' '9'].any (·.contains c)) = Char.isDigit := by
    funext c
    rw [Bool.eq_iff_iff, Char.isDigit_iff_toNat, ← ClassItem.contains_range_iff]
    simp
  exact congrArg s.step hclass

theorem exists_takes_numeral (hc : c.isDigit) (t : Text) : ∃ n, numeral.matcher.Takes (c :: t) n := by
  let s : Place := { rest := c :: t }
  have hdigit : s.past [c] t ∈ decimalDigit.ends s := by
    rw [ends_decimalDigit]
    exact Place.mem_step_iff.2 ⟨c, t, rfl, hc, rfl⟩
  obtain ⟨r, htail⟩ := Pattern.exists_mem_ends_many decimalTail (s.past [c] t)
  have hdecimal : r ∈ decimal.ends s :=
    Pattern.mem_ends_seq hdigit (Pattern.mem_ends_seq htail (Pattern.mem_ends_seq
      (Pattern.mem_ends_optional fraction r) (Pattern.mem_ends_optional exponent r)))
  have hr : r ∈ numeral.ends s :=
    (Pattern.mem_ends_choice (by simp)).2 ⟨decimal, List.mem_of_getLast? rfl, hdecimal⟩
  exact exists_takes_of_mem_ends hr fun r => Pattern.passed_lt_of_mem_ends (by decide)

theorem exists_of_matchLength_numeral (h : numeral.matchLength t = some n) :
    ∃ c u, t = c :: u ∧ c.isDigit := by
  obtain ⟨r, hr, -⟩ := Option.map_eq_some_iff.1 h
  have hprefixed : ∀ {d : Char} {p : Pattern}, r ∈ (Pattern.seq (.literal ['0', d]) p).ends { rest := t } →
      ∃ c u, t = c :: u ∧ c.isDigit := by
    intro d p hr
    obtain ⟨m, hm, -⟩ := List.mem_flatMap.1 hr
    obtain ⟨u, hu, -⟩ := Pattern.mem_ends_literal.1 hm
    exact ⟨'0', d :: u, hu, rfl⟩
  obtain ⟨p, hp, hr⟩ := (Pattern.mem_ends_choice (by simp)).1 (List.mem_of_mem_head? hr)
  simp only [List.mem_cons, List.not_mem_nil, or_false] at hp
  rcases hp with rfl | rfl | rfl | rfl
  · exact hprefixed hr
  · exact hprefixed hr
  · exact hprefixed hr
  · obtain ⟨m, hm, -⟩ := List.mem_flatMap.1 hr
    rw [ends_decimalDigit] at hm
    obtain ⟨c, u, hu, hc, -⟩ := Place.mem_step_iff.1 hm
    exact ⟨c, u, hu, hc⟩

end Language

end ScriptPad
