import ScriptPad.Highlight.Pattern

/-!
What patterns match. Every end of a match lies past a word that stands at its start
(`exists_of_mem_ends`), so what a pattern does is said by words: which words it can take, and which one
it takes first. The first is all that a tokenizer asks for. It is found without the others: a sequence
goes on from the first end of its first part if the second part has one there (`first?_seq`), and a
repetition whose body has at most one end goes on as long as there is one (`first?_many`).
-/

namespace ScriptPad.Pattern

namespace Place

variable {s r : Place} {word rest : Text} {c : Char} {accept : Char → Bool}

/-- The place past a word, before `rest`. -/
def past (s : Place) (word rest : Text) : Place :=
  ⟨s.passed + word.length, word.getLast?.or s.before, rest⟩

@[simp] theorem rest_past : (s.past word rest).rest = rest := rfl

@[simp] theorem passed_past : (s.past word rest).passed = s.passed + word.length := rfl

theorem past_nil (h : s.rest = rest) : s.past [] rest = s := by
  subst h
  rfl

theorem past_past (s : Place) (u v rest rest' : Text) :
    (s.past u rest').past v rest = s.past (u ++ v) rest := by
  simp [past, Nat.add_assoc, List.getLast?_append, Option.or_assoc]

theorem past_cons (s : Place) (c : Char) (u rest rest' : Text) :
    (s.past [c] rest').past u rest = s.past (c :: u) rest :=
  past_past s [c] u rest rest'

theorem step_of_cons (h : s.rest = c :: rest) :
    s.step accept = if accept c then [s.past [c] rest] else [] := by
  obtain ⟨passed, before, t⟩ := s
  obtain rfl : t = c :: rest := h
  rfl

theorem step_of_nil (h : s.rest = []) : s.step accept = [] := by
  obtain ⟨passed, before, t⟩ := s
  obtain rfl : t = [] := h
  rfl

theorem mem_step_iff :
    r ∈ s.step accept ↔ ∃ c rest, s.rest = c :: rest ∧ accept c ∧ r = s.past [c] rest := by
  cases h : s.rest with
  | nil => simp [step_of_nil h]
  | cons c rest =>
      rw [step_of_cons h]
      constructor
      · intro hr
        split at hr
        · next hc => exact ⟨c, rest, rfl, hc, List.mem_singleton.1 hr⟩
        · cases hr
      · rintro ⟨c', rest', hcons, hc, rfl⟩
        obtain ⟨rfl, rfl⟩ := List.cons.inj hcons
        simp [hc]

end Place

variable {p q : Pattern} {s m r : Place} {c : Char} {t word rest : Text}

/-! ### Repetitions -/

theorem repeated_cons (one : Place → List Place) (c : Char) (left : Text) (s : Place) :
    repeated one (c :: left) s [] =
      (one s).flatMap (fun m => if s.passed < m.passed then repeated one left m [] else []) ++ [s] := by
  show (one s).foldr _ [s] = _
  induction one s with
  | nil => rfl
  | cons m ms ih =>
      rw [List.foldr_cons, ih, List.flatMap_cons, List.append_assoc]
      split
      · exact repeated_eq_append ..
      · rfl

theorem repeated_ne_nil (one : Place → List Place) (left : Text) (s : Place) :
    repeated one left s [] ≠ [] := by
  cases left with
  | nil => exact List.cons_ne_nil s []
  | cons c left => simp [repeated_cons]

/-- Rounds from one place to the next, until there is no further one. -/
inductive Rounds (one : Place → List Place) : Place → Place → Prop
  | stop {s : Place} (h : one s = []) : Rounds one s s
  | round {s m r : Place} (h : one s = [m]) (hlt : s.passed < m.passed) (hr : Rounds one m r) :
      Rounds one s r

theorem head?_repeated {one : Place → List Place} (hrounds : Rounds one s r)
    (hlength : ∀ s, ∀ m ∈ one s, m.textLength = s.textLength) {left : Text}
    (hleft : s.rest.length ≤ left.length) : (repeated one left s []).head? = Option.some r := by
  induction hrounds generalizing left with
  | stop h =>
      cases left with
      | nil => rfl
      | cons c left => simp [repeated_cons, h]
  | @round s m r h hlt hr ih =>
      have htext : m.textLength = s.textLength := hlength s m (by simp [h])
      simp only [Place.textLength] at htext
      cases left with
      | nil =>
          simp only [List.length_nil] at hleft
          omega
      | cons c left =>
          simp only [List.length_cons] at hleft
          have hhead : (repeated one left m []).head? = Option.some r := ih (by omega)
          simp [repeated_cons, h, hlt, hhead]

/-! ### Words that can be taken -/

/-- Whether a match can have a character in it. -/
def accepts : Pattern → Char → Bool
  | nothing, _ | wordBoundary, _ => false
  | char c, x => x == c
  | any, x => x != '\n'
  | oneOf items, x => items.any (·.contains x)
  | noneOf items, x => !items.any (·.contains x)
  | seq p q, x | alt p q, x => p.accepts x || q.accepts x
  | many p, x | some p, x | optional p, x | group p, x => p.accepts x

/-- Whether there can be a match with nothing in it. -/
def nullable : Pattern → Bool
  | nothing | wordBoundary | many _ | optional _ => true
  | char _ | any | oneOf _ | noneOf _ => false
  | seq p q => p.nullable && q.nullable
  | alt p q => p.nullable || q.nullable
  | some p | group p => p.nullable

/-- One place lies past the other, and all the characters between them are accepted. -/
def Reaches (accept : Char → Bool) (s r : Place) : Prop :=
  ∃ word, s.rest = word ++ r.rest ∧ r = s.past word r.rest ∧ ∀ c ∈ word, accept c

variable {accept accept' : Char → Bool}

theorem Reaches.refl (s : Place) : Reaches accept s s :=
  ⟨[], rfl, (Place.past_nil rfl).symm, by simp⟩

theorem Reaches.trans (h : Reaches accept s m) (h' : Reaches accept m r) : Reaches accept s r := by
  obtain ⟨u, hu, hm, hacc⟩ := h
  obtain ⟨v, hv, hr, hacc'⟩ := h'
  refine ⟨u ++ v, by rw [hu, hv, List.append_assoc], ?_, ?_⟩
  · rw [← Place.past_past s u v r.rest m.rest, ← hm]
    exact hr
  · intro c hc
    rcases List.mem_append.1 hc with hc | hc
    · exact hacc c hc
    · exact hacc' c hc

theorem Reaches.mono (h : Reaches accept s r) (himp : ∀ c, accept c → accept' c) :
    Reaches accept' s r := by
  obtain ⟨word, hword, hr, hacc⟩ := h
  exact ⟨word, hword, hr, fun c hc => himp c (hacc c hc)⟩

theorem reaches_of_mem_step (h : r ∈ s.step accept) : Reaches accept s r := by
  obtain ⟨c, rest, hs, hc, rfl⟩ := Place.mem_step_iff.1 h
  exact ⟨[c], hs, rfl, by simpa using hc⟩

theorem reaches_of_mem_repeated {one : Place → List Place}
    (hone : ∀ s, ∀ r ∈ one s, Reaches accept s r) {left : Text} (h : r ∈ repeated one left s []) :
    Reaches accept s r := by
  induction left generalizing s with
  | nil =>
      obtain rfl : r = s := by simpa [repeated] using h
      exact .refl r
  | cons c left ih =>
      rw [repeated_cons, List.mem_append, List.mem_flatMap] at h
      rcases h with ⟨m, hm, h⟩ | h
      · split at h
        · exact (hone s m hm).trans (ih h)
        · cases h
      · obtain rfl := List.mem_singleton.1 h
        exact .refl r

theorem reaches_of_mem_ends (h : r ∈ ends p s) : Reaches p.accepts s r := by
  induction p generalizing s r with
  | nothing =>
      obtain rfl := List.mem_singleton.1 h
      exact .refl r
  | char | any | oneOf | noneOf => exact reaches_of_mem_step h
  | wordBoundary =>
      unfold ends at h
      split at h
      · obtain rfl := List.mem_singleton.1 h
        exact .refl r
      · cases h
  | seq p q ihp ihq =>
      obtain ⟨m, hm, hr⟩ := List.mem_flatMap.1 h
      refine ((ihp hm).mono fun c hc => ?_).trans ((ihq hr).mono fun c hc => ?_)
      · simp [accepts, hc]
      · simp [accepts, hc]
  | alt p q ihp ihq =>
      rcases List.mem_append.1 h with h | h
      · exact (ihp h).mono fun c hc => by simp [accepts, hc]
      · exact (ihq h).mono fun c hc => by simp [accepts, hc]
  | many p ih => exact reaches_of_mem_repeated (fun s r hr => ih hr) h
  | some p ih =>
      obtain ⟨m, hm, hr⟩ := List.mem_flatMap.1 h
      exact (ih hm).trans (reaches_of_mem_repeated (fun s r hr => ih hr) hr)
  | optional p ih =>
      rcases List.mem_append.1 h with h | h
      · exact ih h
      · obtain rfl := List.mem_singleton.1 h
        exact .refl r
  | group p ih => exact ih h

theorem Reaches.passed_le (h : Reaches accept s r) : s.passed ≤ r.passed := by
  obtain ⟨word, -, hr, -⟩ := h
  rw [hr]
  exact Nat.le_add_right ..

theorem passed_lt_of_mem_step (h : r ∈ s.step accept) : s.passed < r.passed := by
  obtain ⟨c, rest, -, -, rfl⟩ := Place.mem_step_iff.1 h
  exact Nat.lt_succ_self _

theorem passed_lt_of_mem_ends (hp : p.nullable = false) (h : r ∈ ends p s) : s.passed < r.passed := by
  induction p generalizing s r with
  | nothing | wordBoundary | many | optional => cases hp
  | char | any | oneOf | noneOf => exact passed_lt_of_mem_step h
  | seq p q ihp ihq =>
      obtain ⟨m, hm, hr⟩ := List.mem_flatMap.1 h
      rcases Bool.and_eq_false_iff.1 hp with hp | hq
      · exact Nat.lt_of_lt_of_le (ihp hp hm) (reaches_of_mem_ends hr).passed_le
      · exact Nat.lt_of_le_of_lt (reaches_of_mem_ends hm).passed_le (ihq hq hr)
  | alt p q ihp ihq =>
      obtain ⟨hp, hq⟩ := Bool.or_eq_false_iff.1 hp
      rcases List.mem_append.1 h with h | h
      · exact ihp hp h
      · exact ihq hq h
  | some p ih =>
      obtain ⟨m, hm, hr⟩ := List.mem_flatMap.1 h
      have hle : m.passed ≤ r.passed :=
        (reaches_of_mem_repeated (fun s r hr => reaches_of_mem_ends hr) hr).passed_le
      exact Nat.lt_of_lt_of_le (ih hp hm) hle
  | group p ih => exact ih hp h

/-! ### The first end -/

/-- The end of the match that is preferred. -/
def first? (p : Pattern) (s : Place) : Option Place := (p.ends s).head?

theorem matchLength_of_first? (h : p.first? { rest := t } = Option.some r) :
    p.matchLength t = Option.some r.passed := by
  show (p.first? _).map _ = _
  rw [h]
  rfl

theorem first?_seq (hp : p.first? s = Option.some m) (hq : q.first? m = Option.some r) :
    (seq p q).first? s = Option.some r := by
  obtain ⟨ms, hms⟩ := List.head?_eq_some_iff.1 hp
  obtain ⟨rs, hrs⟩ := List.head?_eq_some_iff.1 hq
  show ((ends p s).flatMap (ends q)).head? = _
  rw [hms, List.flatMap_cons, hrs]
  rfl

theorem exists_mem_ends_of_seq {n : Nat} (h : (seq p q).matchLength t = Option.some n) :
    ∃ m, m ∈ p.ends { rest := t } := by
  obtain ⟨r, hr, -⟩ := Option.map_eq_some_iff.1 h
  obtain ⟨m, hm, -⟩ := List.mem_flatMap.1 (List.mem_of_mem_head? hr)
  exact ⟨m, hm⟩

theorem ends_seq_of_nil (hp : p.ends s = []) : (seq p q).ends s = [] := by
  show (ends p s).flatMap (ends q) = []
  rw [hp]
  rfl

theorem first?_char (h : s.rest = c :: rest) : (char c).first? s = Option.some (s.past [c] rest) := by
  show (s.step _).head? = _
  simp [Place.step_of_cons h]

theorem ends_char_of_head? (h : s.rest.head? ≠ Option.some c) : (char c).ends s = [] := by
  cases hs : s.rest with
  | nil => exact Place.step_of_nil hs
  | cons d rest =>
      rw [hs] at h
      exact (Place.step_of_cons hs).trans (if_neg (by simpa using h))

theorem first?_optional_of_some (h : p.first? s = Option.some r) :
    (optional p).first? s = Option.some r := by
  obtain ⟨rs, hrs⟩ := List.head?_eq_some_iff.1 h
  show (ends p s ++ [s]).head? = _
  rw [hrs]
  rfl

theorem mem_ends_seq (hm : m ∈ p.ends s) (hr : r ∈ q.ends m) : r ∈ (seq p q).ends s :=
  List.mem_flatMap.2 ⟨m, hm, hr⟩

theorem exists_mem_ends_many (p : Pattern) (s : Place) : ∃ r, r ∈ (many p).ends s :=
  List.exists_mem_of_ne_nil _ (repeated_ne_nil p.ends s.rest s)

theorem mem_ends_optional (p : Pattern) (s : Place) : s ∈ (optional p).ends s :=
  List.mem_append_right _ (List.mem_singleton.2 rfl)

theorem first?_optional_of_nil (h : p.ends s = []) : (optional p).first? s = Option.some s := by
  show (ends p s ++ [s]).head? = _
  rw [h]
  rfl

theorem first?_many (h : Rounds p.ends s r) : (many p).first? s = Option.some r :=
  head?_repeated h (fun _ _ => textLength_of_mem_ends) (Nat.le_refl _)

/-- A repeated class takes all the characters of the class that follow. -/
theorem rounds_of_step (hp : ∀ s, p.ends s = s.step accept) (s : Place) :
    Rounds p.ends s (s.past (s.rest.takeWhile accept) (s.rest.dropWhile accept)) := by
  cases h : s.rest with
  | nil =>
      rw [List.takeWhile_nil, List.dropWhile_nil, Place.past_nil h]
      exact .stop (by rw [hp, Place.step_of_nil h])
  | cons c t =>
      have hend : p.ends s = if accept c then [s.past [c] t] else [] := by
        rw [hp, Place.step_of_cons h]
      by_cases hc : accept c
      · have hnext := rounds_of_step hp (s.past [c] t)
        rw [Place.rest_past, Place.past_cons] at hnext
        rw [List.takeWhile_cons_of_pos hc, List.dropWhile_cons_of_pos hc]
        exact .round (by simp [hend, hc]) (Nat.lt_succ_self _) hnext
      · rw [List.takeWhile_cons_of_neg hc, List.dropWhile_cons_of_neg hc, Place.past_nil h]
        exact .stop (by simp [hend, hc])
termination_by s.rest.length
decreasing_by simp [h]

/-! ### Fixed words and choices -/

theorem mem_ends_literal : r ∈ (literal word).ends s ↔
    ∃ rest, s.rest = word ++ rest ∧ r = s.past word rest := by
  induction word generalizing s with
  | nil =>
      show r ∈ [s] ↔ _
      rw [List.mem_singleton]
      constructor
      · rintro rfl
        exact ⟨r.rest, rfl, (Place.past_nil rfl).symm⟩
      · rintro ⟨rest, h, rfl⟩
        exact Place.past_nil h
  | cons c word ih =>
      have hchar : r ∈ (literal (c :: word)).ends s ↔
          ∃ m ∈ s.step (· == c), r ∈ (literal word).ends m := by
        cases word with
        | nil => simp [literal, ends]
        | cons d word => exact List.mem_flatMap
      rw [hchar]
      constructor
      · rintro ⟨m, hm, hr⟩
        obtain ⟨d, rest, hs, hd, rfl⟩ := Place.mem_step_iff.1 hm
        obtain ⟨rest', hrest, rfl⟩ := ih.1 hr
        obtain rfl : d = c := by simpa using hd
        rw [Place.rest_past] at hrest
        exact ⟨rest', by rw [hs, hrest]; rfl, Place.past_cons ..⟩
      · rintro ⟨rest, hs, rfl⟩
        refine ⟨s.past [c] (word ++ rest), ?_, ?_⟩
        · exact Place.mem_step_iff.2 ⟨c, word ++ rest, hs, by simp, rfl⟩
        · exact ih.2 ⟨rest, rfl, (Place.past_cons ..).symm⟩

theorem mem_ends_choice {ps : List Pattern} (hps : ps ≠ []) :
    r ∈ (choice ps).ends s ↔ ∃ p ∈ ps, r ∈ p.ends s := by
  induction ps with
  | nil => exact absurd rfl hps
  | cons p ps ih =>
      cases ps with
      | nil => simp [choice]
      | cons p' ps =>
          show r ∈ p.ends s ++ (choice (p' :: ps)).ends s ↔ _
          rw [List.mem_append, ih (by simp)]
          simp

end ScriptPad.Pattern
