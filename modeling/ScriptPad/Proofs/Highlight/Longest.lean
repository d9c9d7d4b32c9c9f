import ScriptPad.Proofs.Highlight.Matching

/-!
Patterns whose first match is the longest. Matching is by preference and not by length, so a pattern has
to be put together with care: what may follow the first part of a sequence must not begin like something
that this part can go on with (`TakesLongest.seq`), and what stands first in a choice must outdo what
stands after it (`TakesLongest.alt`). The words that a pattern is for are said by a predicate.
-/

namespace ScriptPad

/-- The word stands at the start of the text, and no longer word of its kind does. -/
structure IsLongest (words : Text → Prop) (t word : Text) : Prop where
  mem : words word
  begins : word <+: t
  le : ∀ u, words u → u <+: t → u.length ≤ word.length

theorem IsLongest.eq {words : Text → Prop} {t u v : Text} (hu : IsLongest words t u)
    (hv : IsLongest words t v) : u = v := by
  have hlength : u.length = v.length :=
    Nat.le_antisymm (hv.le u hu.mem hu.begins) (hu.le v hv.mem hv.begins)
  exact (List.prefix_of_prefix_length_le hu.begins hv.begins (Nat.le_of_eq hlength)).eq_of_length hlength

theorem IsLongest.of_cons {words : Text → Prop} {word after : Text} {c : Char} (hword : words word)
    (hnone : ∀ x, x <+: after → ¬ words (word ++ c :: x)) :
    IsLongest words (word ++ c :: after) word := by
  refine ⟨hword, List.prefix_append .., fun u hu hbegins => Nat.le_of_not_lt fun hlt => ?_⟩
  obtain ⟨y, rfl⟩ := List.prefix_of_prefix_length_le (List.prefix_append word (c :: after)) hbegins
    (by omega)
  cases y with
  | nil => simp at hlt
  | cons d x =>
      obtain ⟨rfl, hx⟩ := List.cons_prefix_cons.1 ((List.prefix_append_right_inj word).1 hbegins)
      exact hnone x hx hu

namespace Pattern

/-- The pattern takes words of one kind only, and where there are any it takes the longest first. -/
structure TakesLongest (p : Pattern) (words : Text → Prop) : Prop where
  sound : ∀ {s r : Place}, r ∈ p.ends s → ∃ w, words w ∧ s.rest = w ++ r.rest ∧ r = s.past w r.rest
  first : ∀ {s : Place} {w rest : Text}, words w → s.rest = w ++ rest →
    ∃ r, p.first? s = Option.some r ∧ s.passed + w.length ≤ r.passed

variable {p q : Pattern} {words words' : Text → Prop} {accept : Char → Bool} {word after : Text}

namespace TakesLongest

theorem congr (h : p.TakesLongest words) (hiff : ∀ w, words w ↔ words' w) : p.TakesLongest words' := by
  rwa [← funext fun w => propext (hiff w)]

theorem of_ends (h : p.TakesLongest words) (hends : ∀ s, q.ends s = p.ends s) :
    q.TakesLongest words where
  sound {s r} hr := h.sound (hends s ▸ hr)
  first {s w rest} hw hs := by
    rw [first?, hends]
    exact h.first hw hs

theorem isLongest (h : p.TakesLongest words)
    (hlength : p.matchLength (word ++ after) = Option.some word.length) :
    IsLongest words (word ++ after) word := by
  obtain ⟨r, hr, hpassed⟩ := Option.map_eq_some_iff.1 hlength
  obtain ⟨w, hw, hrest, hpast⟩ := h.sound (List.mem_of_mem_head? hr)
  have hsame : w.length = word.length := by
    rw [hpast, Place.passed_past, Nat.zero_add] at hpassed
    exact hpassed
  obtain ⟨rfl, -⟩ := List.append_inj hrest hsame.symm
  refine ⟨hw, List.prefix_append .., fun u hu hbegins => ?_⟩
  obtain ⟨rest, hrest⟩ := hbegins
  obtain ⟨r', hr', hle⟩ := h.first (s := { rest := word ++ after }) hu hrest.symm
  obtain rfl : r = r' := Option.some.inj (hr.symm.trans hr')
  rwa [Nat.zero_add, hpassed] at hle

/-! ### Single patterns -/

theorem nothing : Pattern.nothing.TakesLongest (· = []) where
  sound {s r} hr := by
    obtain rfl := List.mem_singleton.1 hr
    exact ⟨[], rfl, rfl, (Place.past_nil rfl).symm⟩
  first {s w rest} hw _ := by
    subst hw
    exact ⟨s, rfl, Nat.le_refl _⟩

theorem literal (word : Text) : (literal word).TakesLongest (· = word) where
  sound {s r} hr := by
    obtain ⟨rest, hs, rfl⟩ := mem_ends_literal.1 hr
    exact ⟨word, rfl, hs, rfl⟩
  first {s w rest} hw hs := by
    subst hw
    have hmem : s.past w rest ∈ (Pattern.literal w).ends s := mem_ends_literal.2 ⟨rest, hs, rfl⟩
    obtain ⟨r, hr⟩ := Option.ne_none_iff_exists'.1
      (mt List.head?_eq_none_iff.1 (List.ne_nil_of_mem hmem))
    obtain ⟨rest', -, rfl⟩ := mem_ends_literal.1 (List.mem_of_mem_head? hr)
    exact ⟨_, hr, Nat.le_refl _⟩

theorem of_step (hp : ∀ s, p.ends s = s.step accept) :
    p.TakesLongest fun w => ∃ c, accept c ∧ w = [c] where
  sound {s r} hr := by
    rw [hp] at hr
    obtain ⟨c, rest, hs, hc, rfl⟩ := Place.mem_step_iff.1 hr
    exact ⟨[c], ⟨c, hc, rfl⟩, hs, rfl⟩
  first {s w rest} hw hs := by
    obtain ⟨c, hc, rfl⟩ := hw
    refine ⟨s.past [c] rest, ?_, Nat.le_refl _⟩
    rw [first?, hp, Place.step_of_cons hs, if_pos hc]
    rfl

theorem many_of_step (hp : ∀ s, p.ends s = s.step accept) :
    (many p).TakesLongest fun w => ∀ c ∈ w, accept c where
  sound {s r} hr := by
    have hone : ∀ s, ∀ r ∈ p.ends s, Reaches accept s r := fun s r hr =>
      reaches_of_mem_step (hp s ▸ hr)
    obtain ⟨w, hs, hpast, hw⟩ := reaches_of_mem_repeated hone hr
    exact ⟨w, hw, hs, hpast⟩
  first {s w rest} hw hs := by
    refine ⟨_, first?_many (rounds_of_step hp s), ?_⟩
    rw [Place.passed_past, hs, List.takeWhile_append_of_pos hw, List.length_append]
    omega

/-! ### Patterns put together -/

/-- The second part is asked for only where the first one has ended with its longest word, so it must not
begin with a character that the first one can go on with. -/
theorem seq (hp : p.TakesLongest words) (hq : q.TakesLongest words')
    (hapart : ∀ a c x b, words a → words (a ++ c :: x) → ¬ words' (c :: b)) :
    (seq p q).TakesLongest fun w => ∃ a b, w = a ++ b ∧ words a ∧ words' b where
  sound {s r} hr := by
    obtain ⟨m, hm, hr⟩ := List.mem_flatMap.1 hr
    obtain ⟨a, ha, hs, hpast⟩ := hp.sound hm
    obtain ⟨b, hb, hrest, hpast'⟩ := hq.sound hr
    refine ⟨a ++ b, ⟨a, b, rfl, ha, hb⟩, by rw [hs, hrest, List.append_assoc], ?_⟩
    rw [← Place.past_past s a b r.rest m.rest, ← hpast]
    exact hpast'
  first {s w rest} hw hs := by
    obtain ⟨a, b, rfl, ha, hb⟩ := hw
    rw [List.append_assoc] at hs
    obtain ⟨m, hm, hle⟩ := hp.first ha hs
    obtain ⟨a', ha', hs', hpast⟩ := hp.sound (List.mem_of_mem_head? hm)
    have hpassed : m.passed = s.passed + a'.length := congrArg Place.passed hpast
    have hshorter : a <+: a' :=
      List.prefix_of_prefix_length_le ⟨_, hs.symm⟩ ⟨_, hs'.symm⟩ (by omega)
    obtain ⟨x, rfl⟩ := hshorter
    have hcut : b ++ rest = x ++ m.rest := by
      rw [hs, List.append_assoc] at hs'
      exact List.append_cancel_left hs'
    rw [List.length_append] at hpassed ⊢
    cases x with
    | nil =>
        obtain ⟨r, hr, hle'⟩ := hq.first hb hcut.symm
        exact ⟨r, first?_seq hm hr, by simp only [List.length_nil] at hpassed; omega⟩
    | cons c x =>
        cases b with
        | cons d b =>
            obtain rfl : d = c := (List.cons.inj hcut).1
            exact absurd hb (hapart a d x b ha ha')
        | nil =>
            obtain ⟨r, hr, hle'⟩ := hq.first hb (s := m) (List.nil_append _).symm
            refine ⟨r, first?_seq hm hr, ?_⟩
            simp only [List.length_nil] at hle' ⊢
            omega

theorem alt (hp : p.TakesLongest words) (hq : q.TakesLongest words')
    (houtdone : ∀ a b t, words a → words' b → a <+: t → b <+: t → b.length ≤ a.length) :
    (alt p q).TakesLongest fun w => words w ∨ words' w where
  sound {s r} hr := by
    rcases List.mem_append.1 hr with hr | hr
    · obtain ⟨w, hw, hcut⟩ := hp.sound hr
      exact ⟨w, .inl hw, hcut⟩
    · obtain ⟨w, hw, hcut⟩ := hq.sound hr
      exact ⟨w, .inr hw, hcut⟩
  first {s w rest} hw hs := by
    have hfirst : (Pattern.alt p q).first? s = (p.first? s).or (q.first? s) := List.head?_append
    rw [hfirst]
    cases hm : p.first? s with
    | none =>
        rcases hw with hw | hw
        · obtain ⟨r, hr, -⟩ := hp.first hw hs
          rw [hm] at hr
          cases hr
        · exact hq.first hw hs
    | some m =>
        refine ⟨m, rfl, ?_⟩
        obtain ⟨a, ha, hs', hpast⟩ := hp.sound (List.mem_of_mem_head? hm)
        have hpassed : m.passed = s.passed + a.length := congrArg Place.passed hpast
        rcases hw with hw | hw
        · obtain ⟨r, hr, hle⟩ := hp.first hw hs
          obtain rfl : m = r := Option.some.inj (hm.symm.trans hr)
          exact hle
        · have hle := houtdone a w s.rest ha hw ⟨_, hs'.symm⟩ ⟨_, hs.symm⟩
          omega

theorem optional (hp : p.TakesLongest words) :
    (optional p).TakesLongest fun w => words w ∨ w = [] := by
  refine (hp.alt nothing ?_).of_ends fun _ => rfl
  rintro a b t - rfl - -
  exact Nat.zero_le _

/-- A single character is never gone on with. -/
theorem step_seq (hp : ∀ s, p.ends s = s.step accept) (hq : q.TakesLongest words) :
    (Pattern.seq p q).TakesLongest fun w => ∃ c b, w = c :: b ∧ accept c ∧ words b := by
  have hapart : ∀ a c x b, (∃ d, accept d ∧ a = [d]) → (∃ d, accept d ∧ a ++ c :: x = [d]) →
      ¬ words (c :: b) := by
    rintro a c x b ⟨d, -, rfl⟩ ⟨e, -, h⟩
    simp at h
  refine ((of_step hp).seq hq hapart).congr fun w => ?_
  constructor
  · rintro ⟨a, b, rfl, ⟨c, hc, rfl⟩, hb⟩
    exact ⟨c, b, rfl, hc, hb⟩
  · rintro ⟨c, b, rfl, hc, hb⟩
    exact ⟨[c], b, rfl, ⟨c, hc, rfl⟩, hb⟩

theorem some_of_step (hp : ∀ s, p.ends s = s.step accept) :
    (Pattern.some p).TakesLongest fun w => w ≠ [] ∧ ∀ c ∈ w, accept c := by
  have hseq := step_seq hp (many_of_step hp)
  refine (hseq.of_ends (q := Pattern.some p) fun _ => rfl).congr fun w => ?_
  cases w with
  | nil => simp
  | cons c w =>
      rw [List.forall_mem_cons]
      constructor
      · rintro ⟨d, b, hcut, hd, hb⟩
        obtain ⟨rfl, rfl⟩ := List.cons.inj hcut
        exact ⟨List.cons_ne_nil _ _, hd, hb⟩
      · rintro ⟨-, hc, hw⟩
        exact ⟨c, w, rfl, hc, hw⟩

end TakesLongest

end Pattern

end ScriptPad
