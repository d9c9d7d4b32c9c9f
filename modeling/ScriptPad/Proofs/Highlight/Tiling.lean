import Mathlib.Data.List.Chain
import ScriptPad.Highlight.Token

/-!
What the tokens of a line are. They tile the line, and each has one of two origins: it is the match
of the first rule that takes anything where the token starts, or a gap, the stretch up to the next
place where some rule takes something. Between two gaps there is always a match.

The rules are any table of matchers, so nothing here depends on how patterns are written or matched.
The induction follows the cutting of the line; beside the line it carries the text before the
gathered characters, whose bytes are the place of the next token, and the fact that no rule takes
anything at any of the gathered characters.
-/

namespace ScriptPad

namespace Text

theorem byteLength_eq_zero_iff {t : Text} : t.byteLength = 0 ↔ t = [] := by
  constructor
  · intro h
    cases t with
    | nil => rfl
    | cons c t =>
        have hpos := c.utf8Size_pos
        rw [byteLength_cons] at h
        omega
  · rintro rfl
    rfl

/-- The bytes before a place say where it is. -/
theorem eq_of_byteLength_eq {a b a' b' : Text} (h : a ++ b = a' ++ b')
    (hbytes : a.byteLength = a'.byteLength) : a = a' ∧ b = b' := by
  rcases List.append_eq_append_iff.1 h with ⟨c, rfl, rfl⟩ | ⟨c, rfl, rfl⟩
  · have hc : byteLength c = 0 := by
      rw [byteLength_append] at hbytes
      omega
    simp [byteLength_eq_zero_iff.1 hc]
  · have hc : byteLength c = 0 := by
      rw [byteLength_append] at hbytes
      omega
    simp [byteLength_eq_zero_iff.1 hc]

end Text

/-! ### What rules take -/

/-- A match that is not empty, of `n` characters. -/
def Matcher.Takes (m : Matcher) (t : Text) (n : Nat) : Prop := m.matchLength t = some n ∧ 0 < n

namespace Tokenizer

/-- The first rule with a match that is not empty is one for `kind`, and takes `n` characters. -/
def FirstTakes (z : Tokenizer) (t : Text) (kind : WordKind) (n : Nat) : Prop :=
  ∃ earlier m later, z.rules = earlier ++ (m, kind) :: later ∧ m.Takes t n ∧
    ∀ r ∈ earlier, ∀ j, ¬ r.1.Takes t j

def TakesNothing (z : Tokenizer) (t : Text) : Prop := ∀ r ∈ z.rules, ∀ n, ¬ r.1.Takes t n

variable {z : Tokenizer} {t : Text} {kind : WordKind} {n : Nat}

theorem take?_eq_none_iff {m : Matcher} : m.take? t = none ↔ ∀ n, ¬ m.Takes t n := by
  rw [Option.eq_none_iff_forall_ne_some]
  simp only [ne_eq, Matcher.take?_eq_some_iff, Matcher.Takes]

theorem firstTakes_of_firstTake? (h : z.firstTake? t = some (kind, n)) :
    z.FirstTakes t kind n := by
  obtain ⟨earlier, ⟨m, k⟩, later, hrules, htake, hnone⟩ := List.findSome?_eq_some_iff.1 h
  obtain ⟨j, hj, hpair⟩ := Option.map_eq_some_iff.1 htake
  obtain ⟨rfl, rfl⟩ := Prod.mk.inj hpair
  refine ⟨earlier, m, later, hrules, Matcher.take?_eq_some_iff.1 hj, fun r hr => ?_⟩
  have hr' := hnone r hr
  rw [Option.map_eq_none_iff] at hr'
  exact take?_eq_none_iff.1 hr'

theorem takesNothing_of_firstTake? (h : z.firstTake? t = none) : z.TakesNothing t := by
  intro r hr
  have hr' := List.findSome?_eq_none_iff.1 h r hr
  rw [Option.map_eq_none_iff] at hr'
  exact take?_eq_none_iff.1 hr'

theorem FirstTakes.not_takesNothing (h : z.FirstTakes t kind n) : ¬ z.TakesNothing t := by
  obtain ⟨earlier, m, later, hrules, htakes, -⟩ := h
  intro hnothing
  exact hnothing (m, kind) (by simp [hrules]) n htakes

theorem FirstTakes.ne_nil {word after : Text} (h : z.FirstTakes (word ++ after) kind word.length) :
    word ≠ [] := by
  rintro rfl
  obtain ⟨earlier, m, later, hrules, htakes, hnone⟩ := h
  exact Nat.lt_irrefl 0 htakes.2

end Tokenizer

/-! ### Tokens of a line -/

/-- The tokens follow each other from byte `lo` to byte `hi`, and none is empty. -/
def Tiles (lo : Nat) : List Token → Nat → Prop
  | [], hi => lo = hi
  | t :: ts, hi => t.start = lo ∧ t.start < t.stop ∧ Tiles t.stop ts hi

namespace Token

/-- The token over `word`, after the text `before`. -/
def spanning (before word : Text) (kind : WordKind) : Token :=
  ⟨before.byteLength, before.byteLength + word.byteLength, kind⟩

/-- The token is the match of the first rule that takes anything where it starts. -/
def IsMatch (z : Tokenizer) (line : Text) (token : Token) : Prop :=
  ∃ before word after, line = before ++ (word ++ after) ∧ token = spanning before word token.kind ∧
    z.FirstTakes (word ++ after) token.kind word.length

/-- The token is plain, and no rule takes anything at any of its characters. -/
def IsGap (z : Tokenizer) (line : Text) (token : Token) : Prop :=
  ∃ before word after, line = before ++ (word ++ after) ∧ token = spanning before word .plain ∧
    ∀ u v, word = u ++ v → v ≠ [] → z.TakesNothing (v ++ after)

variable {before word : Text} {kind : WordKind}

theorem start_lt_stop_spanning (before : Text) (kind : WordKind) (hne : word ≠ []) :
    (spanning before word kind).start < (spanning before word kind).stop := by
  have hpos : word.byteLength ≠ 0 := fun h => hne (Text.byteLength_eq_zero_iff.1 h)
  show before.byteLength < before.byteLength + word.byteLength
  omega

theorem stop_spanning : (spanning before word kind).stop = (before ++ word).byteLength :=
  (Text.byteLength_append before word).symm

theorem ofPieces_cons (before : Text) (p : Piece) (ps : List Piece) :
    ofPieces before.byteLength (p :: ps) =
      spanning before p.text p.kind :: ofPieces (before ++ p.text).byteLength ps := by
  rw [Text.byteLength_append]
  rfl

theorem IsMatch.not_isGap {z : Tokenizer} {line : Text} {token : Token}
    (hm : token.IsMatch z line) : ¬ token.IsGap z line := by
  obtain ⟨before, word, after, hline, htoken, hfirst⟩ := hm
  rintro ⟨before', word', after', hline', htoken', hnothing⟩
  have hne : word' ≠ [] := by
    rintro rfl
    have hlt := start_lt_stop_spanning before token.kind hfirst.ne_nil
    rw [← htoken, htoken'] at hlt
    exact Nat.lt_irrefl _ hlt
  -- both say the same about the line, since they start at the same byte
  have hstart : before.byteLength = before'.byteLength :=
    congrArg Token.start (htoken.symm.trans htoken')
  obtain ⟨-, hrest⟩ := Text.eq_of_byteLength_eq (hline.symm.trans hline') hstart
  rw [hrest] at hfirst
  exact hfirst.not_takesNothing (hnothing [] word' rfl hne)

end Token

/-! ### The tokens of the pieces -/

/-- What is to be shown of the tokens of a line from the end of `before` on. -/
structure Tokenizer.Reads (z : Tokenizer) (line before : Text) (ts : List Token) : Prop where
  tiles : Tiles before.byteLength ts line.byteLength
  origin : ∀ t ∈ ts, t.IsMatch z line ∨ t.IsGap z line
  chain : ts.IsChain fun s t => ¬ (s.IsGap z line ∧ t.IsGap z line)

namespace Tokenizer

variable {z : Tokenizer} {line before word after : Text} {kind : WordKind} {ts : List Token}

theorem Reads.nil : z.Reads line line [] := ⟨rfl, by simp, .nil⟩

theorem Reads.cons (hr : z.Reads line (before ++ word) ts) (hne : word ≠ [])
    (ho : (Token.spanning before word kind).IsMatch z line ∨ (Token.spanning before word kind).IsGap z line)
    (hnext : ∀ t ∈ ts.head?, ¬ ((Token.spanning before word kind).IsGap z line ∧ t.IsGap z line)) :
    z.Reads line before (Token.spanning before word kind :: ts) := by
  refine ⟨⟨rfl, Token.start_lt_stop_spanning _ _ hne, ?_⟩, ?_, List.isChain_cons.2 ⟨hnext, hr.chain⟩⟩
  · rw [Token.stop_spanning]
    exact hr.tiles
  · intro t ht
    rcases List.mem_cons.1 ht with rfl | ht
    · exact ho
    · exact hr.origin t ht

theorem Reads.cons_match (hr : z.Reads line (before ++ word) ts)
    (hm : (Token.spanning before word kind).IsMatch z line) (hne : word ≠ []) :
    z.Reads line before (Token.spanning before word kind :: ts) :=
  hr.cons hne (.inl hm) fun _ _ h => hm.not_isGap h.1

/-- The gathered characters, if there are any, before a match or the end of the line. -/
theorem Reads.plainPiece_append {g : Text} {ps : List Piece}
    (hr : z.Reads line (before ++ g.reverse)
      (Token.ofPieces (before ++ g.reverse).byteLength ps))
    (hline : line = before ++ (g.reverse ++ after))
    (hg : ∀ u v, g.reverse = u ++ v → v ≠ [] → z.TakesNothing (v ++ after))
    (hnext : ∀ t ∈ (Token.ofPieces (before ++ g.reverse).byteLength ps).head?,
      t.IsMatch z line) :
    z.Reads line before (Token.ofPieces before.byteLength (plainPiece g ++ ps)) := by
  cases g with
  | nil => simpa [plainPiece] using hr
  | cons c g =>
      show z.Reads line before
        (Token.ofPieces before.byteLength (⟨.plain, (c :: g).reverse⟩ :: ps))
      rw [Token.ofPieces_cons]
      have hgap : (Token.spanning before (c :: g).reverse .plain).IsGap z line :=
        ⟨before, _, after, hline, rfl, hg⟩
      exact hr.cons (by simp) (.inr hgap) fun t ht h => (hnext t ht).not_isGap h.2

/-- With one more gathered character before it, no rule takes anything from there on either. -/
theorem takesNothing_gathered {g rest : Text} {c : Char}
    (hg : ∀ u v, g.reverse = u ++ v → v ≠ [] → z.TakesNothing (v ++ c :: rest))
    (hc : z.TakesNothing (c :: rest)) (u v : Text) (huv : (c :: g).reverse = u ++ v)
    (hv : v ≠ []) : z.TakesNothing (v ++ rest) := by
  rcases List.eq_nil_or_concat v with rfl | ⟨w, d, rfl⟩
  · exact absurd rfl hv
  · rw [List.reverse_cons, List.concat_eq_append, ← List.append_assoc] at huv
    obtain ⟨hw, hd⟩ := List.append_inj' huv rfl
    obtain rfl : c = d := by simpa using hd
    rw [List.concat_eq_append, List.append_assoc]
    cases w with
    | nil => exact hc
    | cons e w => exact hg u (e :: w) hw (by simp)

theorem reads_piecesFrom (before g t : Text) (hline : line = before ++ (g.reverse ++ t))
    (hg : ∀ u v, g.reverse = u ++ v → v ≠ [] → z.TakesNothing (v ++ t)) :
    z.Reads line before (Token.ofPieces before.byteLength (z.piecesFrom g t)) := by
  induction g, t using piecesFrom.induct (z := z) generalizing before with
  | case1 g =>
      have hend : z.Reads line (before ++ g.reverse)
          (Token.ofPieces (before ++ g.reverse).byteLength []) := by
        rw [hline, List.append_nil]
        exact Reads.nil
      rw [piecesFrom, ← List.append_nil (plainPiece g)]
      exact hend.plainPiece_append hline hg (by simp [Token.ofPieces])
  | case2 g c rest k n hfirst ih =>
      obtain ⟨word, after, hcut, hlength⟩ : ∃ word after, c :: rest = word ++ after ∧
          word.length = n :=
        ⟨_, _, (List.take_append_drop n _).symm, by
          rw [List.length_take, Nat.min_eq_left (firstTake?_le hfirst)]⟩
      rw [hcut, ← hlength] at hfirst ih
      rw [hcut] at hline hg
      rw [List.drop_left] at ih
      have htakes := firstTakes_of_firstTake? hfirst
      have hm : (Token.spanning (before ++ g.reverse) word k).IsMatch z line :=
        ⟨_, word, after, by rw [hline, List.append_assoc], rfl, htakes⟩
      have hrest := ih (before ++ g.reverse ++ word) (by simp [hline]) (by simp)
      have hread := hrest.cons_match hm htakes.ne_nil
      rw [hcut, piecesFrom_of_firstTake? hfirst g]
      refine Reads.plainPiece_append ?_ hline hg ?_
      · rwa [Token.ofPieces_cons]
      · intro t ht
        rw [Token.ofPieces_cons] at ht
        obtain rfl := Option.some.inj ht
        exact hm
  | case3 g c rest hnone ih =>
      rw [piecesFrom_of_firstTake?_eq_none hnone g]
      exact ih before (by simp [hline])
        (takesNothing_gathered hg (takesNothing_of_firstTake? hnone))

/-- The tokens of a line tile it. Each is the match of the first rule that takes anything where it
starts, or a gap in which no rule takes anything, and no two gaps meet. Where no rule is for plain
words, the plain tokens are the gaps, and so no two plain tokens meet. -/
theorem tokens_tile_line (z : Tokenizer) (line : Text) :
    Tiles 0 (z.tokens line) line.byteLength ∧
      (∀ t ∈ z.tokens line, t.IsMatch z line ∨ t.IsGap z line) ∧
      ((z.tokens line).IsChain fun s t => ¬ (s.IsGap z line ∧ t.IsGap z line)) ∧
      ((∀ r ∈ z.rules, r.2 ≠ .plain) →
        (∀ t ∈ z.tokens line, t.IsGap z line ↔ t.kind = .plain) ∧
          (z.tokens line).IsChain fun s t => ¬ (s.kind = .plain ∧ t.kind = .plain)) := by
  have hr : z.Reads line [] (z.tokens line) :=
    reads_piecesFrom [] [] line rfl (by simp)
  refine ⟨hr.tiles, hr.origin, hr.chain, fun hrules => ?_⟩
  have hplain : ∀ t ∈ z.tokens line, t.IsGap z line ↔ t.kind = .plain := by
    refine fun t ht => ⟨?_, fun hplain => ?_⟩
    · rintro ⟨before, word, after, -, rfl, -⟩
      rfl
    · rcases hr.origin t ht with ⟨-, -, -, -, -, earlier, m, later, heq, -⟩ | hgap
      · exact absurd hplain (hrules (m, t.kind) (by simp [heq]))
      · exact hgap
  refine ⟨hplain, hr.chain.imp_of_mem_imp fun s t hs ht hgaps hkinds => hgaps ?_⟩
  exact ⟨(hplain s hs).2 hkinds.1, (hplain t ht).2 hkinds.2⟩

/-- No rule for scripts is one for plain words. -/
theorem tokens_tile_line_rhai :
    (∀ r ∈ Language.rhai.tokenizer.rules, r.2 ≠ .plain) ∧
      ∀ t ∈ Language.rhai.tokenizer.tokens ['a', ' ', '+'],
        t.IsGap Language.rhai.tokenizer ['a', ' ', '+'] ↔ t.kind = .plain := by
  have hrules : ∀ r ∈ Language.rhai.tokenizer.rules, r.2 ≠ .plain := by decide
  exact ⟨hrules, ((tokens_tile_line Language.rhai.tokenizer ['a', ' ', '+']).2.2.2 hrules).1⟩

/-- A rule may itself be for plain words. Its match is a plain token that may stand beside a gap, and
it is no stretch without a match. -/
theorem plain_rule_beside_gap :
    let l : Language := { name := "plain".toList, extensions := [], rules := [⟨.char 'a', .plain⟩] }
    l.tokens ['b', 'a'] = [⟨0, 1, .plain⟩, ⟨1, 2, .plain⟩] ∧
      (¬ (l.tokens ['b', 'a']).IsChain fun s t => ¬ (s.kind = .plain ∧ t.kind = .plain)) ∧
      ¬ l.tokenizer.TakesNothing ['a'] := by
  intro l
  have htokens : l.tokens ['b', 'a'] = [⟨0, 1, .plain⟩, ⟨1, 2, .plain⟩] := by decide +kernel
  have hfirst : l.tokenizer.firstTake? ['a'] = some (.plain, 1) := by decide +kernel
  refine ⟨htokens, ?_, (firstTakes_of_firstTake? hfirst).not_takesNothing⟩
  rw [htokens]
  decide

end Tokenizer

end ScriptPad
