import Mathlib.Data.List.Induction
import Mathlib.Data.List.MinMax
import Mathlib.Data.List.Nodup
import ScriptPad.Diagnostic.Analysis

/-!
Answers in any order. A desk is an analysis in use: each request takes a ticket, and replies are
handed in for tickets, late, more than once or never. Beside the analysis the desk keeps the tickets
given out and a book of the replies, each with the markers that it led to; the analysis reads neither.
An analyzer need not say the same of a source at another time, so every analysis asked for brings the
analyzer as it is then.

Of all replies only the newest success matters, the first of the successful replies for the greatest
ticket. Its ticket is what the analysis remembers, and its markers are the last ones shown. A reply
takes its place if it is a success for a greater ticket, and then it is shown; any other reply leaves
the analysis as it was.
-/

namespace ScriptPad

/-- What holds of the parts of a list and of one more element holds of the parts of the longer list. -/
theorem forall_split_concat {α : Type} {P : List α → α → Prop} {l : List α} {x : α}
    (hl : ∀ earlier e later, l = earlier ++ e :: later → P earlier e) (hx : P l x)
    (earlier : List α) (e : α) (later : List α) (h : l ++ [x] = earlier ++ e :: later) :
    P earlier e := by
  rcases List.eq_nil_or_concat later with rfl | ⟨later, y, rfl⟩
  · obtain ⟨rfl, he⟩ := List.append_inj' h rfl
    obtain ⟨rfl, -⟩ := List.cons.inj he
    exact hx
  · rw [List.concat_eq_append, ← List.cons_append, ← List.append_assoc] at h
    exact hl earlier e later (List.append_inj_left' h rfl)

/-- What is handed in for a ticket. -/
structure Reply where
  ticket : Ticket
  result : Except AnalysisError (List Diagnostic)

namespace Reply

/-- The markers of a success. -/
def markers? (r : Reply) : Option (List Marker) :=
  match r.result with
  | .ok ds => some (ds.map Diagnostic.marker)
  | .error _ => none

def succeeded (r : Reply) : Bool := r.markers?.isSome

/-- The first of the successful replies for the greatest ticket. -/
def newest? (rs : List Reply) : Option Reply := (rs.filter succeeded).argmax (·.ticket.number)

/-- The number of the newest success; no ticket has the number zero. -/
def newestNumber (rs : List Reply) : Nat := ((newest? rs).map (·.ticket.number)).getD 0

theorem newest?_append (rs : List Reply) {r : Reply} (h : r.succeeded) :
    newest? (rs ++ [r]) = some (match newest? rs with
      | none => r
      | some c => if c.ticket.number < r.ticket.number then r else c) := by
  rw [newest?, List.filter_append, List.filter_cons_of_pos h, List.filter_nil, List.argmax_concat,
    newest?]
  cases (rs.filter succeeded).argmax fun r : Reply => r.ticket.number with
  | none => rfl
  | some c => exact (apply_ite some _ _ _).symm

theorem newest?_append_failed (rs : List Reply) {r : Reply} (h : ¬ r.succeeded) :
    newest? (rs ++ [r]) = newest? rs := by
  rw [newest?, List.filter_append, List.filter_cons_of_neg h, List.filter_nil, List.append_nil,
    newest?]

theorem newest?_append_newer (rs : List Reply) {r : Reply} (h : r.succeeded)
    (hlt : newestNumber rs < r.ticket.number) : newest? (rs ++ [r]) = some r := by
  rw [newest?_append rs h]
  rw [newestNumber] at hlt
  cases hn : newest? rs with
  | none => rfl
  | some c =>
      rw [hn] at hlt
      exact congrArg some (if_pos hlt)

theorem newest?_append_stale (rs : List Reply) {r : Reply} (hpos : 0 < r.ticket.number)
    (hle : r.ticket.number ≤ newestNumber rs) : newest? (rs ++ [r]) = newest? rs := by
  by_cases h : r.succeeded
  · rw [newest?_append rs h]
    rw [newestNumber] at hle
    cases hn : newest? rs with
    | none =>
        rw [hn] at hle
        exact absurd hpos (Nat.not_lt.2 hle)
    | some c =>
        rw [hn] at hle
        exact congrArg some (if_neg (Nat.not_lt.2 hle))
  · exact newest?_append_failed rs h

/-- With one reply for each ticket, the newest success does not depend on their order. -/
theorem newest?_perm {rs rs' : List Reply} (h : rs.Perm rs') (hnodup : (rs.map (·.ticket)).Nodup) :
    newest? rs = newest? rs' := by
  have hfilter : (rs.filter succeeded).Perm (rs'.filter succeeded) := h.filter _
  cases hn : newest? rs with
  | none =>
      rw [newest?, List.argmax_eq_none] at hn
      rw [hn, List.nil_perm] at hfilter
      rw [newest?, hfilter]
      rfl
  | some r =>
      obtain ⟨r', hr'⟩ : ∃ r', newest? rs' = some r' := by
        refine Option.ne_none_iff_exists'.1 fun hnone => ?_
        rw [newest?, List.argmax_eq_none] at hnone
        have hr := List.argmax_mem hn
        rw [hfilter.mem_iff, hnone] at hr
        exact List.not_mem_nil hr
      have hmem := List.argmax_mem hn
      have hmem' := hfilter.mem_iff.2 (List.argmax_mem hr')
      have hle : r'.ticket.number ≤ r.ticket.number :=
        List.le_of_mem_argmax (f := fun r : Reply => r.ticket.number) hmem' hn
      have hge : r.ticket.number ≤ r'.ticket.number :=
        List.le_of_mem_argmax (f := fun r : Reply => r.ticket.number) (hfilter.mem_iff.1 hmem) hr'
      have hticket : r.ticket = r'.ticket := congrArg Ticket.mk (Nat.le_antisymm hge hle)
      rw [hr', List.inj_on_of_nodup_map hnodup (List.mem_of_mem_filter hmem)
        (List.mem_of_mem_filter hmem') hticket]

end Reply

namespace Analysis

theorem complete_of_lt (a : Analysis) {r : Reply} (h : a.applied < r.ticket.number) :
    (a.complete r.ticket r.result).1 = r.markers? := by
  cases hr : r.result with
  | error e => simp [Reply.markers?, hr]
  | ok ds => simp [complete, Reply.markers?, hr, Nat.not_le.2 h]

theorem complete_of_succeeded (a : Analysis) {r : Reply} (hr : r.succeeded)
    (h : a.applied < r.ticket.number) :
    (a.complete r.ticket r.result).2 = { a with applied := r.ticket.number } := by
  cases hres : r.result with
  | error e => simp [Reply.succeeded, Reply.markers?, hres] at hr
  | ok ds => simp [complete, Nat.not_le.2 h]

theorem complete_of_failed (a : Analysis) {r : Reply} (hr : ¬ r.succeeded) :
    a.complete r.ticket r.result = (none, a) := by
  cases hres : r.result with
  | error e => rfl
  | ok ds => simp [Reply.succeeded, Reply.markers?, hres] at hr

theorem complete_of_le (a : Analysis) {r : Reply} (h : r.ticket.number ≤ a.applied) :
    a.complete r.ticket r.result = (none, a) := by
  cases hres : r.result with
  | error e => rfl
  | ok ds => simp [complete, h]

end Analysis

/-- A reply and the markers that it led to. -/
structure Entry extends Reply where
  shown : Option (List Marker)

structure Desk where
  analysis : Analysis
  tickets : List Ticket := []
  book : List Entry := []

/-- What is asked of a desk. Replies are for tickets that it has given out, counted from zero. -/
inductive Desk.Call
  | issue
  | refresh (analyzer : Analyzer) (source : Text)
  | complete (i : Nat) (result : Except AnalysisError (List Diagnostic))

namespace Desk

def fresh (f : Analyzer) : Desk := { analysis := { analyzer := f } }

def handIn (d : Desk) (t : Ticket) (result : Except AnalysisError (List Diagnostic)) : Desk :=
  { d with
    analysis := (d.analysis.complete t result).2
    book := d.book ++ [⟨⟨t, result⟩, (d.analysis.complete t result).1⟩] }

def call (d : Desk) : Call → Desk
  | .issue =>
    { d with analysis := d.analysis.issue.2, tickets := d.tickets ++ [d.analysis.issue.1] }
  | .refresh f source =>
    let a := d.analysis.through f
    { analysis := (a.refresh source).2
      tickets := d.tickets ++ [a.issue.1]
      book := d.book ++ [⟨⟨a.issue.1, a.attempt source⟩, (a.refresh source).1⟩] }
  | .complete i result =>
    match d.tickets[i]? with
    | some t => d.handIn t result
    | none => d

def after (d : Desk) (h : List Call) : Desk := h.foldl call d

def replies (d : Desk) : List Reply := d.book.map Entry.toReply

/-- The markers on the screen, if any have been shown. -/
def lastShown (d : Desk) : Option (List Marker) := (d.book.filterMap (·.shown)).getLast?

@[simp] theorem after_append (d : Desk) (h h' : List Call) :
    d.after (h ++ h') = (d.after h).after h' := List.foldl_append

@[simp] theorem after_singleton (d : Desk) (c : Call) : d.after [c] = d.call c := rfl

/-- To analyze at once is to take a ticket and hand in the answer for it. -/
theorem call_refresh (d : Desk) (f : Analyzer) (source : Text) :
    d.call (.refresh f source) =
      (call { d with analysis := d.analysis.through f } .issue).handIn d.analysis.issue.1
        (f source).diagnostics := rfl

/-! ### The invariant -/

structure Orderly (d : Desk) : Prop where
  tickets : ∀ t ∈ d.tickets, 0 < t.number ∧ t.number ≤ d.analysis.issued
  applied_le : d.analysis.applied ≤ d.analysis.issued
  applied : d.analysis.applied = Reply.newestNumber d.replies
  lastShown : d.lastShown = (Reply.newest? d.replies).bind (·.markers?)
  increasing : (d.book.filter (·.shown.isSome)).Pairwise (·.ticket.number < ·.ticket.number)
  lt_iff : ∀ n, 0 < n →
    (d.analysis.applied < n ↔ ∀ b ∈ d.book, b.shown.isSome → b.ticket.number < n)
  shown_iff : ∀ earlier e later, d.book = earlier ++ e :: later → ∀ ms,
    e.shown = some ms ↔ e.markers? = some ms ∧
      ∀ b ∈ earlier, b.shown.isSome → b.ticket.number < e.ticket.number

theorem orderly_fresh (f : Analyzer) : (fresh f).Orderly where
  tickets := by simp [fresh]
  applied_le := Nat.le_refl 0
  applied := rfl
  lastShown := rfl
  increasing := .nil
  lt_iff n hn := by simp [fresh, hn]
  shown_iff earlier e later h := by simp [fresh] at h

variable {d : Desk}

theorem Orderly.through (h : d.Orderly) (f : Analyzer) :
    Orderly { d with analysis := d.analysis.through f } := by
  obtain ⟨h1, h2, h3, h4, h5, h6, h7⟩ := h
  exact ⟨h1, h2, h3, h4, h5, h6, h7⟩

theorem Orderly.issue (h : d.Orderly) : (d.call .issue).Orderly where
  tickets t ht := by
    rcases List.mem_append.1 ht with ht | ht
    · exact ⟨(h.tickets t ht).1, Nat.le_succ_of_le (h.tickets t ht).2⟩
    · rw [List.mem_singleton.1 ht]
      exact ⟨Nat.succ_pos _, Nat.le_refl _⟩
  applied_le := Nat.le_succ_of_le h.applied_le
  applied := h.applied
  lastShown := h.lastShown
  increasing := h.increasing
  lt_iff := h.lt_iff
  shown_iff := h.shown_iff

/-- A reply that is not shown is only written down. -/
theorem Orderly.handIn_unseen (h : d.Orderly) {r : Reply} (hpos : 0 < r.ticket.number)
    (hc : d.analysis.complete r.ticket r.result = (none, d.analysis))
    (hn : Reply.newest? (d.replies ++ [r]) = Reply.newest? d.replies)
    (hs : r.succeeded → r.ticket.number ≤ d.analysis.applied) :
    (d.handIn r.ticket r.result).Orderly := by
  have hd : d.handIn r.ticket r.result = { d with book := d.book ++ [⟨r, none⟩] } := by
    rw [handIn, hc]
  have hreplies : replies { d with book := d.book ++ [⟨r, none⟩] } = d.replies ++ [r] := by
    simp [replies]
  rw [hd]
  refine ⟨h.tickets, h.applied_le, ?_, ?_, ?_, fun n hn => ?_,
    forall_split_concat h.shown_iff fun ms => ?_⟩
  · rw [hreplies, Reply.newestNumber, hn]
    exact h.applied
  · rw [hreplies, hn, ← h.lastShown]
    simp [Desk.lastShown]
  · simpa using h.increasing
  · rw [h.lt_iff n hn]
    simp [or_imp, forall_and]
  · simp only [reduceCtorEq, false_iff, not_and]
    intro hms hall
    have hle := hs (by simp [Reply.succeeded, hms])
    exact absurd ((h.lt_iff _ hpos).2 hall) (Nat.not_lt.2 hle)

/-- A success for a greater ticket than any shown takes the place of the newest success. -/
theorem Orderly.handIn_newer (h : d.Orderly) {r : Reply} (hs : r.succeeded)
    (hlt : d.analysis.applied < r.ticket.number) (hle : r.ticket.number ≤ d.analysis.issued) :
    (d.handIn r.ticket r.result).Orderly := by
  have hn : Reply.newest? (d.replies ++ [r]) = some r :=
    Reply.newest?_append_newer _ hs (h.applied ▸ hlt)
  have hd : d.handIn r.ticket r.result = { d with
      analysis := { d.analysis with applied := r.ticket.number }
      book := d.book ++ [⟨r, r.markers?⟩] } := by
    rw [handIn, d.analysis.complete_of_lt hlt, d.analysis.complete_of_succeeded hs hlt]
  obtain ⟨ms, hms⟩ := Option.isSome_iff_exists.1 hs
  have hreplies : replies { d with
      analysis := { d.analysis with applied := r.ticket.number }
      book := d.book ++ [⟨r, r.markers?⟩] } = d.replies ++ [r] := by
    simp [replies]
  have hbelow := (h.lt_iff _ (Nat.lt_of_le_of_lt (Nat.zero_le _) hlt)).1 hlt
  rw [hd]
  refine ⟨h.tickets, hle, ?_, ?_, ?_, fun n hpos => ?_,
    forall_split_concat h.shown_iff fun ms' => ?_⟩
  · rw [hreplies, Reply.newestNumber, hn]
    rfl
  · rw [hreplies, hn]
    simp [Desk.lastShown, hms]
  · rw [List.filter_append, List.pairwise_append]
    refine ⟨h.increasing, List.Pairwise.filter _ (List.pairwise_singleton _ _), ?_⟩
    intro b hb e he
    rw [List.mem_singleton.1 (List.mem_of_mem_filter he)]
    exact hbelow b (List.mem_of_mem_filter hb) (List.mem_filter.1 hb).2
  · have hbook : (∀ b ∈ d.book, b.shown.isSome → b.ticket.number < n) ∧ r.ticket.number < n ↔
        r.ticket.number < n :=
      ⟨And.right, fun hn => ⟨fun b hb hsome => Nat.lt_trans (hbelow b hb hsome) hn, hn⟩⟩
    simpa [or_imp, forall_and, hms] using hbook.symm
  · exact ⟨fun hshown => ⟨hshown, hbelow⟩, And.left⟩

theorem Orderly.handIn (h : d.Orderly) {t : Ticket} (hpos : 0 < t.number)
    (hle : t.number ≤ d.analysis.issued) (result : Except AnalysisError (List Diagnostic)) :
    (d.handIn t result).Orderly := by
  let r : Reply := ⟨t, result⟩
  by_cases hs : r.succeeded
  · by_cases hlt : d.analysis.applied < t.number
    · exact h.handIn_newer (r := r) hs hlt hle
    · have hstale := Nat.not_lt.1 hlt
      exact h.handIn_unseen (r := r) hpos (d.analysis.complete_of_le hstale)
        (Reply.newest?_append_stale _ hpos (h.applied ▸ hstale)) fun _ => hstale
  · exact h.handIn_unseen (r := r) hpos (d.analysis.complete_of_failed hs)
      (Reply.newest?_append_failed _ hs) fun hs' => absurd hs' hs

theorem Orderly.call (h : d.Orderly) (c : Call) : (d.call c).Orderly := by
  cases c with
  | issue => exact h.issue
  | refresh f source =>
      rw [call_refresh]
      exact (h.through f).issue.handIn (Nat.succ_pos _) (Nat.le_refl _) _
  | complete i result =>
      cases ht : d.tickets[i]? with
      | none => simpa [Desk.call, ht] using h
      | some t =>
          obtain ⟨hpos, hle⟩ := h.tickets t (List.mem_of_getElem? ht)
          simpa [Desk.call, ht] using h.handIn hpos hle result

theorem orderly_after (f : Analyzer) (h : List Call) : ((fresh f).after h).Orderly := by
  induction h using List.reverseRecOn with
  | nil => exact orderly_fresh f
  | append_singleton h c ih =>
      rw [after_append, after_singleton]
      exact ih.call c

/-! ### Failures -/

/-- The call with its failure left out. Of an analysis that fails only the ticket remains. -/
def Call.withoutFailure : Call → List Call
  | .issue => [.issue]
  | .refresh f source =>
    match (f source).diagnostics with
    | .ok _ => [.refresh f source]
    | .error _ => [.issue]
  | .complete i (.ok ds) => [.complete i (.ok ds)]
  | .complete _ (.error _) => []

/-- Two desks that differ in the failures written down. -/
structure SameSuccesses (d d' : Desk) : Prop where
  issued : d'.analysis.issued = d.analysis.issued
  applied : d'.analysis.applied = d.analysis.applied
  tickets : d'.tickets = d.tickets
  book : d'.book = d.book.filter (·.succeeded)

variable {d' : Desk}

theorem SameSuccesses.through (h : SameSuccesses d d') (f f' : Analyzer) :
    SameSuccesses { d with analysis := d.analysis.through f }
      { d' with analysis := d'.analysis.through f' } :=
  ⟨h.issued, h.applied, h.tickets, h.book⟩

theorem SameSuccesses.issue (h : SameSuccesses d d') :
    SameSuccesses (d.call .issue) (d'.call .issue) where
  issued := congrArg (· + 1) h.issued
  applied := h.applied
  tickets := by simp [Desk.call, Analysis.issue, h.tickets, h.issued]
  book := h.book

theorem SameSuccesses.handIn_ok (h : SameSuccesses d d') (t : Ticket) (ds : List Diagnostic) :
    SameSuccesses (d.handIn t (.ok ds)) (d'.handIn t (.ok ds)) := by
  by_cases hle : t.number ≤ d.analysis.applied
  · constructor <;>
      simp [Desk.handIn, Analysis.complete, Reply.succeeded, Reply.markers?, h.issued, h.applied,
        h.tickets, h.book, hle]
  · constructor <;>
      simp [Desk.handIn, Analysis.complete, Reply.succeeded, Reply.markers?, h.issued, h.applied,
        h.tickets, h.book, hle]

theorem SameSuccesses.handIn_error (h : SameSuccesses d d') (t : Ticket) (e : AnalysisError) :
    SameSuccesses (d.handIn t (.error e)) d' where
  issued := h.issued
  applied := h.applied
  tickets := h.tickets
  book := by simp [Desk.handIn, Reply.succeeded, Reply.markers?, h.book]

theorem SameSuccesses.call (h : SameSuccesses d d') (c : Call) :
    SameSuccesses (d.call c) (d'.after c.withoutFailure) := by
  cases c with
  | issue => exact h.issue
  | refresh f source =>
      rw [call_refresh]
      cases hds : (f source).diagnostics with
      | ok ds =>
          rw [Call.withoutFailure, hds]
          show SameSuccesses _ (d'.call (.refresh f source))
          rw [call_refresh, hds]
          simpa only [Analysis.issue, h.issued] using (h.through f f).issue.handIn_ok _ ds
      | error e =>
          rw [Call.withoutFailure, hds]
          exact (h.through f d'.analysis.analyzer).issue.handIn_error _ e
  | complete i result =>
      cases result with
      | ok ds =>
          show SameSuccesses _ (d'.call (.complete i (.ok ds)))
          cases ht : d.tickets[i]? with
          | none => simpa [Desk.call, h.tickets, ht] using h
          | some t => simpa [Desk.call, h.tickets, ht] using h.handIn_ok t ds
      | error e =>
          cases ht : d.tickets[i]? with
          | none => simpa [Desk.call, Desk.after, Call.withoutFailure, ht] using h
          | some t => simpa [Desk.call, Desk.after, Call.withoutFailure, ht] using h.handIn_error t e

theorem sameSuccesses_after (f : Analyzer) (h : List Call) :
    SameSuccesses ((fresh f).after h) ((fresh f).after (h.flatMap Call.withoutFailure)) := by
  induction h using List.reverseRecOn with
  | nil => exact ⟨rfl, rfl, rfl, rfl⟩
  | append_singleton h c ih =>
      rw [List.flatMap_append, List.flatMap_singleton, after_append, after_append, after_singleton]
      exact ih.call c

end Desk

/-- The first conjunct says of every reply exactly when it is shown, the second that ever newer ones
are; by the third the failures could have been left out of the history without a trace in the rest.
An analysis on the spot is shown if it succeeds. What is shown at the end are the markers of the
newest success, so that with one reply for each ticket the order of the replies does not matter. -/
theorem newest_success_is_shown (f : Analyzer) (h : List Desk.Call) :
    let d := (Desk.fresh f).after h
    (∀ earlier e later, d.book = earlier ++ e :: later → ∀ ms,
      e.shown = some ms ↔ e.markers? = some ms ∧
        ∀ b ∈ earlier, b.shown.isSome → b.ticket.number < e.ticket.number) ∧
    (d.book.filter (·.shown.isSome)).Pairwise (·.ticket.number < ·.ticket.number) ∧
    ((Desk.fresh f).after (h.flatMap Desk.Call.withoutFailure)).book =
      d.book.filter (·.succeeded) ∧
    (∀ (g : Analyzer) source ds, (g source).diagnostics = .ok ds →
      ((d.analysis.through g).refresh source).1 = some (ds.map Diagnostic.marker)) ∧
    d.lastShown = (Reply.newest? d.replies).bind (·.markers?) ∧
    ∀ h', d.replies.Perm ((Desk.fresh f).after h').replies → (d.replies.map (·.ticket)).Nodup →
      ((Desk.fresh f).after h').lastShown = d.lastShown := by
  intro d
  have hd : d.Orderly := Desk.orderly_after f h
  refine ⟨hd.shown_iff, hd.increasing, (Desk.sameSuccesses_after f h).book, ?_, hd.lastShown, ?_⟩
  · intro g source ds hds
    exact congrArg Prod.fst (Analysis.refresh_of_ok (a := d.analysis.through g) hd.applied_le hds)
  · intro h' hperm hnodup
    rw [(Desk.orderly_after f h').lastShown, hd.lastShown, Reply.newest?_perm hperm hnodup]

/-- Two answers in the order of their requests and the other way round. -/
theorem newest_success_is_shown_swapped :
    let silent : Analyzer := fun _ => .reports []
    let found : Diagnostic := ⟨1, [], .error⟩
    let inOrder := (Desk.fresh silent).after
      [.issue, .issue, .complete 0 (.ok []), .complete 1 (.ok [found])]
    let swapped := (Desk.fresh silent).after
      [.issue, .issue, .complete 1 (.ok [found]), .complete 0 (.ok [])]
    inOrder.replies.Perm swapped.replies ∧ (inOrder.replies.map (·.ticket)).Nodup ∧
      swapped.lastShown = inOrder.lastShown ∧ swapped.lastShown = some [found.marker] := by
  intro silent found inOrder swapped
  have hperm : inOrder.replies.Perm swapped.replies := .swap _ _ []
  have hnodup : (inOrder.replies.map (·.ticket)).Nodup := by decide
  have hsame : swapped.lastShown = inOrder.lastShown :=
    (newest_success_is_shown silent _).2.2.2.2.2 _ hperm hnodup
  exact ⟨hperm, hnodup, hsame, rfl⟩

end ScriptPad
