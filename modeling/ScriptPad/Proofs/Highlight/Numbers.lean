import ScriptPad.Proofs.Highlight.Lexeme
import ScriptPad.Proofs.Highlight.Longest

/-!
Numbers as whole words. The grammar of numbers is said without patterns (`IsNumeral`), and the rule for
them takes its longest word although it is a choice tried in order: a number with a mark goes on longer
than its zero alone, and neither a fraction nor an exponent begins with a character that the part before
it goes on with. So what makes no longer number is left over (`Unfinished`).
-/

namespace ScriptPad

theorem Text.eq_of_append_eq {accept : Char → Bool} {a b a' b' : Text} (h : a ++ b = a' ++ b')
    (ha : ∀ c ∈ a, accept c) (hb : ∀ c ∈ b.head?, ¬ accept c) (ha' : ∀ c ∈ a', accept c)
    (hb' : ∀ c ∈ b'.head?, ¬ accept c) : a = a' ∧ b = b' := by
  obtain rfl : a = a' := by rw [← takeWhile_append ha hb, h, takeWhile_append ha' hb']
  exact ⟨rfl, List.append_cancel_left h⟩

namespace Language

/-! ### The grammar -/

/-- A digit, or an underscore between the digits. -/
def spaced (digit : Char → Bool) (c : Char) : Bool := digit c || c == '_'

/-- The marks that may stand after a leading zero, each with the digits that it allows. -/
def radixes : List (Char × Text) :=
  [('x', "0123456789abcdefABCDEF".toList), ('b', "01".toList), ('o', "01234567".toList)]

inductive IsMarked (mark : Char) (digits : Text) : Text → Prop
  | mk {ds : Text} (hne : ds ≠ []) (hds : ∀ c ∈ ds, spaced digits.contains c) :
      IsMarked mark digits ('0' :: mark :: ds)

inductive IsFraction : Text → Prop
  | mk {ds : Text} (hne : ds ≠ []) (hds : ∀ c ∈ ds, spaced Char.isDigit c) : IsFraction ('.' :: ds)

def signs : List Text := [[], ['+'], ['-']]

inductive IsExponent : Text → Prop
  | mk {e : Char} {sign ds : Text} (he : e = 'e' ∨ e = 'E') (hsign : sign ∈ signs) (hne : ds ≠ [])
      (hds : ∀ c ∈ ds, c.isDigit) : IsExponent (e :: (sign ++ ds))

inductive IsDecimal : Text → Prop
  | mk {c : Char} {whole fraction exponent : Text} (hc : c.isDigit)
      (hwhole : ∀ d ∈ whole, spaced Char.isDigit d) (hfraction : IsFraction fraction ∨ fraction = [])
      (hexponent : IsExponent exponent ∨ exponent = []) :
      IsDecimal (c :: (whole ++ (fraction ++ exponent)))

/-- The words that are numbers. -/
inductive IsNumeral : Text → Prop
  | marked {mark : Char} {digits word : Text} (hradix : (mark, digits) ∈ radixes)
      (hword : IsMarked mark digits word) : IsNumeral word
  | decimal {word : Text} (hword : IsDecimal word) : IsNumeral word

/-- A number after which something begins that would go on with it, but has no digit. -/
inductive Unfinished : Text → Text → Prop
  | mark {mark : Char} {digits after : Text} (hradix : (mark, digits) ∈ radixes)
      (hafter : ∀ c ∈ after.head?, ¬ spaced digits.contains c) : Unfinished ['0'] (mark :: after)
  | fraction {c : Char} {whole after : Text} (hc : c.isDigit)
      (hwhole : ∀ d ∈ whole, spaced Char.isDigit d) (hafter : ∀ d ∈ after.head?, ¬ spaced Char.isDigit d) :
      Unfinished (c :: whole) ('.' :: after)
  | exponent {c e : Char} {whole fraction after : Text} (hc : c.isDigit)
      (hwhole : ∀ d ∈ whole, spaced Char.isDigit d) (hfraction : IsFraction fraction ∨ fraction = [])
      (he : e = 'e' ∨ e = 'E')
      (hafter : ∀ sign ∈ signs, ∀ d rest, after = sign ++ d :: rest → ¬ d.isDigit) :
      Unfinished (c :: (whole ++ fraction)) (e :: after)

variable {t u word after digits : Text} {c mark : Char} {kind : WordKind}

theorem spaced_isDigit_iff (c : Char) :
    spaced Char.isDigit c ↔ 48 ≤ c.toNat ∧ c.toNat ≤ 57 ∨ c.toNat = 95 := by
  rw [spaced, Bool.or_eq_true, Char.isDigit_iff_toNat, beq_iff_eq, ← Char.toNat_inj]
  rfl

theorem not_spaced (hc : c ∈ ['.', 'e', 'E']) : ¬ spaced Char.isDigit c := by
  have hnone : ['.', 'e', 'E'].all fun c => !spaced Char.isDigit c := by decide
  simpa using List.all_eq_true.1 hnone c hc

theorem IsFraction.head? (h : IsFraction t) : t.head? = some '.' := by
  cases h
  rfl

theorem head?_of_exponent {exponent : Text} (he : IsExponent exponent ∨ exponent = [])
    (hc : c ∈ exponent.head?) : c = 'e' ∨ c = 'E' := by
  rcases he with ⟨he, -, -, -⟩ | rfl
  · obtain rfl := Option.some.inj hc
    exact he
  · cases hc

theorem mem_of_head? {fraction rest : Text} (hf : IsFraction fraction ∨ fraction = [])
    (hrest : ∀ d ∈ rest.head?, d = 'e' ∨ d = 'E') (hc : c ∈ (fraction ++ rest).head?) :
    c ∈ ['.', 'e', 'E'] := by
  rcases hf with hf | rfl
  · rw [List.head?_append, hf.head?] at hc
    obtain rfl := Option.some.inj hc
    decide
  · rcases hrest c hc with rfl | rfl
    · decide
    · decide

theorem spaced_or_mem_of_head? {whole rest : Text} (hwhole : ∀ d ∈ whole, spaced Char.isDigit d)
    (hrest : ∀ d ∈ rest.head?, d ∈ ['.', 'e', 'E']) (hc : c ∈ (whole ++ rest).head?) :
    spaced Char.isDigit c ∨ c ∈ ['.', 'e', 'E'] := by
  cases whole with
  | nil => exact .inr (hrest c hc)
  | cons d whole =>
      obtain rfl := Option.some.inj hc
      exact .inl (hwhole d List.mem_cons_self)

/-- A mark is none of the characters that can follow the first digit of a decimal number. -/
theorem not_spaced_or_mem_of_mark (hmark : mark ∈ radixes.map Prod.fst) :
    ¬ (spaced Char.isDigit mark ∨ mark ∈ ['.', 'e', 'E']) := by
  have hmarks : (radixes.map Prod.fst).all fun m =>
      !decide (spaced Char.isDigit m ∨ m ∈ ['.', 'e', 'E']) := by decide
  simpa using List.all_eq_true.1 hmarks mark hmark

/-! ### The rule takes the longest number -/

theorem ends_decimalTail (s : Pattern.Place) :
    decimalTail.ends s = s.step (spaced Char.isDigit) := by
  refine congrArg s.step (funext fun c => ?_)
  rw [Bool.eq_iff_iff, spaced_isDigit_iff]
  simp [ClassItem.contains_one_iff, ClassItem.contains_range_iff]

theorem takesLongest_fraction : fraction.TakesLongest IsFraction := by
  have hseq := Pattern.TakesLongest.step_seq (p := .char '.') (fun _ => rfl)
    (Pattern.TakesLongest.some_of_step ends_decimalTail)
  refine (hseq.of_ends (q := fraction) fun _ => rfl).congr fun w => ?_
  constructor
  · rintro ⟨c, ds, rfl, hc, hne, hds⟩
    obtain rfl := eq_of_beq hc
    exact ⟨hne, hds⟩
  · rintro ⟨hne, hds⟩
    exact ⟨'.', _, rfl, rfl, hne, hds⟩

theorem takesLongest_exponent : exponent.TakesLongest IsExponent := by
  have hsign : (Pattern.optional (.oneOf [.one '+', .one '-'])).TakesLongest (· ∈ signs) := by
    have hone := Pattern.TakesLongest.of_step (p := .oneOf [.one '+', .one '-']) fun _ => rfl
    refine hone.optional.congr fun w => ?_
    simp [signs, ClassItem.contains, or_comm, or_and_right, exists_or]
  have hdigits := Pattern.TakesLongest.some_of_step ends_decimalDigit
  have htail := hsign.seq hdigits <| by
    -- no sign has a digit in it, so none is what it goes on with
    rintro a c x b ha hx ⟨-, hb⟩
    have hc : c.isDigit := hb c List.mem_cons_self
    have hsigns : ∀ s ∈ signs, s.all (!·.isDigit) := by decide
    have hnot := List.all_eq_true.1 (hsigns _ hx) c (by simp)
    simp [hc] at hnot
  have hseq := Pattern.TakesLongest.step_seq (p := .oneOf [.one 'e', .one 'E']) (fun _ => rfl) htail
  refine (hseq.of_ends (q := exponent) fun _ => rfl).congr fun w => ?_
  constructor
  · rintro ⟨e, b, rfl, he, sign, ds, rfl, hsign, hne, hds⟩
    exact ⟨by simpa [ClassItem.contains] using he, hsign, hne, hds⟩
  · rintro ⟨he, hsign, hne, hds⟩
    exact ⟨_, _, rfl, by simpa [ClassItem.contains] using he, _, _, rfl, hsign, hne, hds⟩

theorem takesLongest_decimal : decimal.TakesLongest IsDecimal := by
  have hend := takesLongest_fraction.optional.seq takesLongest_exponent.optional <| by
    rintro a c x b ha hx (he | he)
    · -- a fraction goes on with digits only, and the empty one with a dot
      have hc : ¬ spaced Char.isDigit c :=
        not_spaced (mem_of_head? (.inr rfl) (fun _ => head?_of_exponent (.inl he)) rfl)
      rcases hx with hx | hx
      · generalize htext : a ++ c :: x = text at hx
        obtain ⟨hne, hds⟩ := hx
        cases a with
        | nil =>
            obtain ⟨rfl, -⟩ := List.cons.inj htext
            rcases head?_of_exponent (.inl he) rfl with h | h
            · cases h
            · cases h
        | cons d a =>
            obtain ⟨-, rfl⟩ := List.cons.inj htext
            exact hc (hds c (by simp))
      · simp at hx
    · cases he
  have hwhole := (Pattern.TakesLongest.many_of_step ends_decimalTail).seq hend <| by
    rintro a c x b ha hx ⟨f, e, hcut, hf, he⟩
    -- the rest begins with a dot or a letter, and the whole part has neither
    exact not_spaced (mem_of_head? hf (fun _ => head?_of_exponent he) (by rw [← hcut]; rfl))
      (hx c (by simp))
  have hseq := Pattern.TakesLongest.step_seq ends_decimalDigit hwhole
  refine (hseq.of_ends (q := decimal) fun _ => rfl).congr fun w => ?_
  constructor
  · rintro ⟨c, b, rfl, hc, whole, -, rfl, hwhole, f, e, rfl, hf, he⟩
    exact ⟨hc, hwhole, hf, he⟩
  · rintro ⟨hc, hwhole, hf, he⟩
    exact ⟨_, _, rfl, hc, _, _, rfl, hwhole, _, _, rfl, hf, he⟩

theorem takesLongest_marked (mark : Char) (digits : Text) (items : List ClassItem)
    (hitems : ∀ c, items.any (·.contains c) = spaced digits.contains c) :
    (Pattern.seq (.literal ['0', mark]) (.some (.oneOf items))).TakesLongest (IsMarked mark digits) := by
  have hdigits := Pattern.TakesLongest.some_of_step (p := .oneOf items) fun s =>
    congrArg s.step (funext hitems)
  have hseq := (Pattern.TakesLongest.literal ['0', mark]).seq hdigits <| by
    rintro a c x b rfl hx -
    simp at hx
  refine hseq.congr fun w => ?_
  constructor
  · rintro ⟨-, ds, rfl, rfl, hne, hds⟩
    exact ⟨hne, hds⟩
  · rintro ⟨hne, hds⟩
    exact ⟨_, _, rfl, rfl, hne, hds⟩

theorem IsMarked.begins (h : IsMarked mark digits word) : ['0', mark] <+: word := by
  obtain ⟨-, -⟩ := h
  exact ⟨_, rfl⟩

theorem IsMarked.not_begins {mark' : Char} (h : IsMarked mark digits word) (hne : mark ≠ mark') :
    ¬ ['0', mark'] <+: word := by
  obtain ⟨-, -⟩ := h
  rintro ⟨rest, hrest⟩
  exact hne (List.cons.inj (List.cons.inj hrest).2).1.symm

theorem IsDecimal.not_begins (h : IsDecimal word) (hmark : mark ∈ radixes.map Prod.fst) :
    ¬ ['0', mark] <+: word := by
  obtain ⟨hc, hwhole, hf, he⟩ := h
  rintro ⟨rest, hrest⟩
  refine not_spaced_or_mem_of_mark hmark ?_
  exact spaced_or_mem_of_head? hwhole (fun _ => mem_of_head? hf fun _ => head?_of_exponent he)
    (by rw [← (List.cons.inj hrest).2]; rfl)

/-- A number with a mark is longer than what does not begin with it in the same text. -/
theorem takesLongest_marked_alt {p q : Pattern} {words : Text → Prop}
    (hp : p.TakesLongest (IsMarked mark digits)) (hq : q.TakesLongest words)
    (hnone : ∀ b, words b → ¬ ['0', mark] <+: b) :
    (Pattern.alt p q).TakesLongest fun w => IsMarked mark digits w ∨ words w := by
  refine hp.alt hq fun a b t ha hb hat hbt => ?_
  by_contra hlt
  have hab : a <+: b := List.prefix_of_prefix_length_le hat hbt (by omega)
  exact hnone b hb (ha.begins.trans hab)

theorem takesLongest_numeral : numeral.TakesLongest IsNumeral := by
  have hhex := takesLongest_marked 'x' "0123456789abcdefABCDEF".toList
    [.range '0' '9', .range 'a' 'f', .range 'A' 'F', .one '_'] <| by
      intro c
      rw [Bool.eq_iff_iff]
      simp [ClassItem.contains_one_iff, ClassItem.contains_range_iff, spaced, ← Char.toNat_inj]
      omega
  have hbinary := takesLongest_marked 'b' "01".toList [.one '0', .one '1', .one '_'] <| by
      intro c
      rw [Bool.eq_iff_iff]
      simp [ClassItem.contains_one_iff, spaced, ← Char.toNat_inj]
      omega
  have hoctal := takesLongest_marked 'o' "01234567".toList [.range '0' '7', .one '_'] <| by
      intro c
      rw [Bool.eq_iff_iff]
      simp [ClassItem.contains_one_iff, ClassItem.contains_range_iff, spaced, ← Char.toNat_inj]
      omega
  have htail := takesLongest_marked_alt hoctal takesLongest_decimal fun b hb =>
    hb.not_begins (by decide)
  have htail' := takesLongest_marked_alt hbinary htail fun b hb =>
    hb.elim (·.not_begins (by decide)) (·.not_begins (by decide))
  have hall := takesLongest_marked_alt hhex htail' fun b hb =>
    hb.elim (·.not_begins (by decide)) (·.elim (·.not_begins (by decide)) (·.not_begins (by decide)))
  refine (hall.of_ends (q := numeral) fun _ => rfl).congr fun w => ?_
  constructor
  · rintro (hw | hw | hw | hw)
    · exact .marked (by decide) hw
    · exact .marked (by decide) hw
    · exact .marked (by decide) hw
    · exact .decimal hw
  · rintro (⟨hradix, hw⟩ | hw)
    · simp only [radixes, List.mem_cons, Prod.mk.injEq, List.not_mem_nil, or_false] at hradix
      obtain ⟨rfl, rfl⟩ | ⟨rfl, rfl⟩ | ⟨rfl, rfl⟩ := hradix
      · exact .inl hw
      · exact .inr (.inl hw)
      · exact .inr (.inr (.inl hw))
    · exact .inr (.inr (.inr hw))

/-! ### Numbers that are not gone on with -/

theorem isNumeral_of_whole (hc : c.isDigit) (whole : Text) {fraction : Text}
    (hwhole : ∀ d ∈ whole, spaced Char.isDigit d) (hf : IsFraction fraction ∨ fraction = []) :
    IsNumeral (c :: (whole ++ fraction)) := by
  have hdecimal : IsDecimal (c :: (whole ++ (fraction ++ []))) := ⟨hc, hwhole, hf, .inr rfl⟩
  rw [List.append_nil] at hdecimal
  exact .decimal hdecimal

theorem IsNumeral.parts_of_whole {whole rest : Text} (h : IsNumeral (c :: (whole ++ rest)))
    (hwhole : ∀ d ∈ whole, spaced Char.isDigit d) (hrest : ∀ d ∈ rest.head?, d ∈ ['.', 'e', 'E']) :
    ∃ f e, rest = f ++ e ∧ (IsFraction f ∨ f = []) ∧ (IsExponent e ∨ e = []) := by
  generalize hword : c :: (whole ++ rest) = word at h
  cases h with
  | marked hradix hmarked =>
      -- its second character would be the mark
      obtain ⟨-, -⟩ := hmarked
      refine absurd ?_ (not_spaced_or_mem_of_mark (List.mem_map_of_mem hradix))
      exact spaced_or_mem_of_head? hwhole hrest (by rw [(List.cons.inj hword).2]; rfl)
  | decimal hdecimal =>
      obtain ⟨-, hwhole', hf, he⟩ := hdecimal
      obtain ⟨-, hcut⟩ := Text.eq_of_append_eq (List.cons.inj hword).2 hwhole
        (fun d hd => not_spaced (hrest d hd)) hwhole' fun d hd =>
          not_spaced (mem_of_head? hf (fun _ => head?_of_exponent he) hd)
      exact ⟨_, _, hcut, hf, he⟩

theorem isDigit_or_dot_of_fraction {f : Text} (hf : IsFraction f ∨ f = []) :
    ∀ c ∈ f, spaced Char.isDigit c || c == '.' := by
  rcases hf with hf | rfl
  · obtain ⟨-, hds⟩ := hf
    exact List.forall_mem_cons.2 ⟨rfl, fun c hc => by simp [hds c hc]⟩
  · simp

theorem not_isDigit_or_dot (hc : c = 'e' ∨ c = 'E') : ¬ (spaced Char.isDigit c || c == '.') := by
  rcases hc with rfl | rfl
  · decide
  · decide

theorem Unfinished.isLongest (h : Unfinished word after) : IsLongest IsNumeral (word ++ after) word := by
  cases h with
  | @mark mark digits after hradix hafter =>
      have hzero : IsNumeral ['0'] := isNumeral_of_whole rfl [] (by simp) (.inr rfl)
      refine .of_cons hzero fun x hx hnumeral => ?_
      generalize hword : ['0'] ++ mark :: x = word at hnumeral
      cases hnumeral with
      | marked hradix' hmarked =>
          obtain ⟨hne, hds⟩ := hmarked
          obtain ⟨rfl, rfl⟩ := List.cons.inj (List.cons.inj hword).2
          have hradixes : ∀ r ∈ radixes, ∀ s ∈ radixes, r.1 = s.1 → r.2 = s.2 := by decide
          obtain rfl := hradixes _ hradix _ hradix' rfl
          obtain ⟨d, x, rfl⟩ := List.exists_cons_of_ne_nil hne
          obtain ⟨y, rfl⟩ := hx
          exact hafter d rfl (hds d List.mem_cons_self)
      | decimal hdecimal => exact hdecimal.not_begins (List.mem_map_of_mem hradix) ⟨x, hword⟩
  | @fraction c whole after hc hwhole hafter =>
      have hword : IsNumeral (c :: (whole ++ [])) := isNumeral_of_whole hc whole hwhole (.inr rfl)
      rw [List.append_nil] at hword
      refine .of_cons hword fun x hx hnumeral => ?_
      obtain ⟨f, e, hcut, hf | rfl, he⟩ := hnumeral.parts_of_whole hwhole (by simp)
      · obtain ⟨hne, hds⟩ := hf
        obtain ⟨d, ds, rfl⟩ := List.exists_cons_of_ne_nil hne
        obtain ⟨-, rfl⟩ := List.cons.inj hcut
        obtain ⟨y, rfl⟩ := hx
        exact hafter d rfl (hds d List.mem_cons_self)
      · rw [List.nil_append] at hcut
        rcases head?_of_exponent he (c := '.') (by rw [← hcut]; rfl) with h | h
        · cases h
        · cases h
  | @exponent c e whole fraction after hc hwhole hf he hafter =>
      refine .of_cons (isNumeral_of_whole hc whole hwhole hf) fun x hx hnumeral => ?_
      rw [List.cons_append, List.append_assoc] at hnumeral
      have hhead : ∀ d ∈ (e :: x).head?, d = 'e' ∨ d = 'E' := by
        rintro d hd
        obtain rfl := Option.some.inj hd
        exact he
      obtain ⟨f, e', hcut, hf', he'⟩ := hnumeral.parts_of_whole hwhole fun d hd => mem_of_head? hf hhead hd
      -- the two fractions are the same, since neither has the letter in it
      obtain ⟨-, rfl⟩ := Text.eq_of_append_eq hcut (isDigit_or_dot_of_fraction hf)
        (fun d hd => not_isDigit_or_dot (hhead d hd)) (isDigit_or_dot_of_fraction hf')
        fun d hd => not_isDigit_or_dot (head?_of_exponent he' hd)
      rcases he' with he' | he'
      · generalize htext : e :: x = text at he'
        obtain ⟨-, hsign, hne, hds⟩ := he'
        obtain ⟨d, ds, rfl⟩ := List.exists_cons_of_ne_nil hne
        obtain ⟨-, rfl⟩ := List.cons.inj htext
        obtain ⟨y, rfl⟩ := hx
        exact hafter _ hsign d (ds ++ y) (by simp) (hds d List.mem_cons_self)
      · cases he'

/-! ### Numbers among the tokens -/

theorem takes_of_firstTakes {n : Nat} (h : rhai.tokenizer.FirstTakes t .number n) :
    numeral.matcher.Takes t n := by
  have hrule : ∀ r ∈ rhai.rules, r.kind = .number → r.pattern = numeral := by decide
  obtain ⟨earlier, m, later, hrules, htakes, -⟩ := h
  have hmem : (m, WordKind.number) ∈ rhai.tokenizer.rules := by simp [hrules]
  obtain ⟨r, hr, heq⟩ := List.mem_map.1 hmem
  obtain ⟨rfl, hkind⟩ := Prod.mk.inj heq
  rwa [hrule r hr hkind] at htakes

/-- Only these kinds of lexeme have a digit in them. -/
theorem Lexeme.kind_of_digit {v : Text} (h : Lexeme kind (u ++ c :: v) after) (hc : c.isDigit) :
    kind ∈ [.string, .comment, .identifier, .number] := by
  have hwords : ∀ w ∈ keywords ++ predefinedNames, w.all (!·.isDigit) := by decide
  have hlisted : ∀ w ∈ keywords ++ predefinedNames, ∀ d ∈ w, ¬ d.isDigit := fun w hw d hd => by
    simpa using List.all_eq_true.1 (hwords w hw) d hd
  have hmem : c ∈ u ++ c :: v := by simp
  generalize htext : u ++ c :: v = text at h hmem
  cases h with
  | comment | closed | unclosed | number | identifier => simp
  | keyword hword => exact absurd hc (hlisted _ (List.mem_append_left _ hword) c hmem)
  | predefined hword => exact absurd hc (hlisted _ (List.mem_append_right _ hword) c hmem)
  | plain hword =>
      exact absurd (by simp [Text.isAsciiWord, Char.isAlphanum, hc]) (hword u c v htext.symm).1

/-- And only a number begins with one. -/
theorem Lexeme.kind_of_digit_first {v : Text} (h : Lexeme kind (c :: v) after) (hc : c.isDigit) :
    kind = .number := by
  have hkind := h.kind_of_digit (u := []) hc
  generalize htext : c :: v = text at h
  cases h with
  | comment =>
      obtain ⟨rfl, -⟩ := List.cons.inj htext
      cases hc
  | closed hq | unclosed hq =>
      obtain ⟨rfl, -⟩ := List.cons.inj htext
      exact absurd (by simp [Text.isAsciiWord, Char.isAlphanum, hc]) hq.not_isAsciiWord
  | number => rfl
  | identifier hword =>
      obtain ⟨d, hd, hletter⟩ := hword.first
      rw [← htext] at hd
      obtain rfl := Option.some.inj hd
      exact absurd hc (Text.not_isDigit_of_letter hletter)
  | keyword | predefined | plain => simp at hkind

/-- A digit begins a number unless a string, a comment, an identifier or a number begun earlier goes on
over it. A number is the longest word of the grammar that the rest of the line begins with. So what begins
to go on with it and has no digit is left over, be it a mark, a dot or an exponent. -/
theorem numbers_are_taken_whole (line : Text) :
    (∀ (before : Text) c rest, line = before ++ c :: rest → c.isDigit →
      Outside [.string, .comment, .identifier, .number] (rhai.tokens line) before.byteLength →
      ∃ t ∈ rhai.tokens line, t.kind = .number ∧ t.start = before.byteLength) ∧
    (∀ t ∈ rhai.tokens line, t.kind = .number → ∃ before word after, line = before ++ (word ++ after) ∧
      t = Token.spanning before word .number ∧ IsLongest IsNumeral (word ++ after) word) ∧
    ∀ (before word after : Text), line = before ++ (word ++ after) → Unfinished word after →
      ∀ t ∈ rhai.tokens line, t.kind = .number → t.start = before.byteLength →
      t = Token.spanning before word .number := by
  have hnumber : ∀ t ∈ rhai.tokens line, t.kind = .number → ∃ before word after,
      line = before ++ (word ++ after) ∧ t = Token.spanning before word .number ∧
        IsLongest IsNumeral (word ++ after) word := by
    intro t ht hkind
    rcases (reads_tokens line).origin t ht with ⟨before, word, after, hline, htoken, hfirst⟩ | hgap
    · rw [hkind] at htoken hfirst
      have htakes := (takes_of_firstTakes hfirst).1
      exact ⟨before, word, after, hline, htoken, takesLongest_numeral.isLongest htakes⟩
    · obtain ⟨before, word, after, -, rfl, -⟩ := hgap
      cases hkind
  refine ⟨?_, hnumber, ?_⟩
  · intro before c rest hline hc hout
    obtain ⟨t, ht, b, u, v, after, rfl, hcut, hv, htoken, hlexeme⟩ :=
      exists_lexeme_over hline (List.cons_ne_nil c rest)
    obtain ⟨d, v, rfl⟩ := List.exists_cons_of_ne_nil hv
    obtain ⟨rfl, -⟩ := List.cons.inj hcut
    obtain rfl : u = [] := eq_nil_of_outside hout ht htoken hv (hlexeme.kind_of_digit hc)
    rw [List.append_nil]
    exact ⟨t, ht, hlexeme.kind_of_digit_first hc, congrArg Token.start htoken⟩
  · intro before word after hline hunfinished t ht hkind hstart
    obtain ⟨before', word', after', hline', rfl, hlongest⟩ := hnumber t ht hkind
    obtain ⟨rfl, hrest⟩ := Text.eq_of_byteLength_eq (hline'.symm.trans hline) hstart
    rw [hrest] at hlongest
    rw [hlongest.eq hunfinished.isLongest]

/-- The dots of a range are left over. -/
theorem numbers_are_taken_whole_range :
    Unfinished ['1'] "..10".toList ∧ (⟨0, 1, .number⟩ : Token) ∈ rhai.tokens "1..10".toList := by
  have hdot : ∀ d ∈ ".10".toList.head?, ¬ spaced Char.isDigit d := fun d hd => by
    obtain rfl := Option.some.inj hd
    exact not_spaced List.mem_cons_self
  have hrange : Unfinished ['1'] "..10".toList := .fraction rfl (by simp) hdot
  obtain ⟨hdigit, -, hleft⟩ := numbers_are_taken_whole "1..10".toList
  obtain ⟨t, ht, hkind, hstart⟩ := hdigit [] '1' "..10".toList rfl rfl fun _ _ _ h =>
    absurd h.1 (Nat.not_lt_zero _)
  obtain rfl := hleft [] ['1'] "..10".toList rfl hrange t ht hkind hstart
  exact ⟨hrange, ht⟩

end Language

end ScriptPad
