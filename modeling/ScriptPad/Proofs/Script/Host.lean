import Mathlib.Data.Prod.Basic
import ScriptPad.Script.Run

/-!
What a script can do to its host. A map of host states under which two hosts answer alike
(`Host.Maps`) is seen by no script: it takes a run on the one to the run on the other. This is all
that is asked of an interpreter (`Runtime.Lawful`), and it says that a run knows its host by the
answers of the host's functions and changes it by calling them.

Two hosts are built to make use of it. One lives on the states with a property that the functions
keep (`Host.restrict`), so a run keeps the property. The other writes down the calls it has taken
(`Host.watched`). Together they say that a run leaves its host as the calls made, one after another,
leave it (`Runtime.Lawful.run_eq_after`), however the run ends.

For the machine of the pad each function commutes with a map of host states, and only the call of a
named function has to look at the host.
-/

namespace ScriptPad.Script

variable {σ τ : Type} {f : σ → τ} {h : Host σ} {h' : Host τ}

namespace Host

/-- The functions of `h'` do to the image of a state what those of `h` do to the state. -/
def Maps (f : σ → τ) (h : Host σ) (h' : Host τ) : Prop :=
  ∀ name args s, h'.call name args (f s) = (h.call name args s).map (Prod.map id f)

/-- A call that a host has taken. -/
structure Call where
  name : Text
  args : List Value
  deriving Repr

/-- The state after some calls, made one after another. -/
def after (h : Host σ) (s : σ) (calls : List Call) : σ :=
  calls.foldl (fun s c => ((h.call c.name c.args s).map Prod.snd).getD s) s

theorem after_append (h : Host σ) (s : σ) (calls more : List Call) :
    h.after s (calls ++ more) = h.after (h.after s calls) more :=
  List.foldl_append ..

theorem after_concat (h : Host σ) (s : σ) (calls : List Call) (c : Call) :
    h.after s (calls ++ [c]) =
      ((h.call c.name c.args (h.after s calls)).map Prod.snd).getD (h.after s calls) :=
  h.after_append s calls [c]

/-- The host with the calls it has taken written down, in order. -/
def watched (h : Host σ) : Host (σ × List Call) where
  call name args s :=
    (h.call name args s.1).map (Prod.map id fun s' => (s', s.2 ++ [⟨name, args⟩]))

theorem maps_watched (h : Host σ) : h.watched.Maps Prod.fst h := by
  intro name args s
  show h.call name args s.1 = ((h.call name args s.1).map _).map _
  rw [Option.map_map]
  exact Option.map_id'.symm

/-- The functions of the host keep a property of its states. -/
def Keeps (h : Host σ) (P : σ → Prop) : Prop :=
  ∀ ⦃name args s v s'⦄, P s → h.call name args s = some (v, s') → P s'

/-- The host on the states with a property that its functions keep. -/
def restrict (h : Host σ) {P : σ → Prop} (hP : h.Keeps P) : Host {s // P s} where
  call name args s := (h.call name args s.1).attach.map fun r => (r.1.1, ⟨r.1.2, hP s.2 r.2⟩)

theorem maps_restrict {P : σ → Prop} (hP : h.Keeps P) : (h.restrict hP).Maps Subtype.val h := by
  intro name args s
  show h.call name args s.1 = ((h.call name args s.1).attach.map _).map _
  rw [Option.map_map]
  exact Option.attach_map_subtype_val _ |>.symm

end Host

/-! ### Runs on any host -/

/-- What an interpreter has to keep to. -/
structure Runtime.Lawful (r : Runtime) : Prop where
  run_map : ∀ {σ τ : Type} {f : σ → τ} {h : Host σ} {h' : Host τ}, h.Maps f h' →
    ∀ code s, r.run h' code (f s) = Prod.map f id (r.run h code s)

namespace Runtime

variable {r : Runtime}

/-- The calls that a run makes of the functions of its host, in order. -/
def calls (r : Runtime) (h : Host σ) (code : r.Code) (s : σ) : List Host.Call :=
  (r.run h.watched code (s, [])).1.2

theorem Lawful.run_keeps (hr : r.Lawful) {P : σ → Prop} (hP : h.Keeps P) {s : σ} (hs : P s)
    (code : r.Code) : P (r.run h code s).1 := by
  have hrun := hr.run_map (Host.maps_restrict hP) code ⟨s, hs⟩
  rw [hrun]
  exact (r.run (h.restrict hP) code ⟨s, hs⟩).1.2

/-- A run leaves its host as its calls leave it. -/
theorem Lawful.run_eq_after (hr : r.Lawful) (h : Host σ) (code : r.Code) (s : σ) :
    (r.run h code s).1 = h.after s (r.calls h code s) := by
  let P : σ × List Host.Call → Prop := fun t => t.1 = h.after s t.2
  have hP : h.watched.Keeps P := by
    rintro name args ⟨t, calls⟩ v ⟨t', calls'⟩ ht hcall
    obtain ⟨⟨w, u⟩, hu, heq⟩ := Option.map_eq_some_iff.1 hcall
    obtain ⟨-, rfl, rfl⟩ : w = v ∧ u = t' ∧ calls ++ [⟨name, args⟩] = calls' := by
      simpa using heq
    obtain rfl : t = h.after s calls := ht
    show u = h.after s (calls ++ [⟨name, args⟩])
    rw [Host.after_concat, hu]
    rfl
  have hend : P (r.run h.watched code (s, [])).1 := hr.run_keeps hP rfl code
  have hfst := congrArg Prod.fst (hr.run_map h.maps_watched code (s, []))
  exact hfst.trans hend

end Runtime

/-! ### The machine -/

namespace Machine

/-- The machine with another state of its host. -/
def map (f : σ → τ) (m : Machine σ) : Machine τ where
  control := m.control
  frames := m.frames
  scope := m.scope
  operations := m.operations
  depth := m.depth
  reached := m.reached
  host := f m.host

variable (m : Machine σ)

@[simp] theorem control_map : (m.map f).control = m.control := rfl

@[simp] theorem frames_map : (m.map f).frames = m.frames := rfl

@[simp] theorem scope_map : (m.map f).scope = m.scope := rfl

@[simp] theorem operations_map : (m.map f).operations = m.operations := rfl

@[simp] theorem depth_map : (m.map f).depth = m.depth := rfl

@[simp] theorem host_map : (m.map f).host = f m.host := rfl

theorem settle_map (q : Position) (result : Except Cause Value) :
    (m.map f).settle q result = (m.settle q result).map f := by
  cases result <;> rfl

theorem write_map (name : Text) (path : List Access) (root new : Value) :
    (m.map f).write name path root new = (m.write name path root new).map f := by
  unfold write
  cases Access.update path root new <;> rfl

theorem atPlace_map (place : Place) (indices : List Value)
    {g : List Access → Value → Value → Machine σ} {g' : List Access → Value → Value → Machine τ}
    (hg : ∀ path root part, g' path root part = (g path root part).map f) :
    (m.map f).atPlace place indices g' = (m.atPlace place indices g).map f := by
  unfold atPlace
  rw [scope_map]
  cases Value.lookup place.root m.scope with
  | none => rfl
  | some root =>
      dsimp only
      cases Access.fetch (Access.ofPath place.path indices) root with
      | ok part => exact hg _ root part
      | error e => rfl

theorem store_map (place : Place) (op : Option BinaryOp) (q : Position) (v : Value)
    (indices : List Value) :
    (m.map f).store place op q v indices = (m.store place op q v indices).map f := by
  unfold store
  cases op with
  | none =>
      rw [scope_map]
      cases Value.lookup place.root m.scope with
      | none => rfl
      | some root => exact write_map m ..
  | some op =>
      refine atPlace_map m place indices fun path root old => ?_
      cases op.eval old v with
      | ok new => exact write_map m ..
      | error cause => rfl

variable {p : Program} {limit : Nat}

/-- Only here is the host asked. -/
theorem callNamed_map (hf : h.Maps f h') (name : Text) (args : List Value) (q : Position) :
    (m.map f).callNamed ⟨h', p, limit⟩ name args q =
      (m.callNamed ⟨h, p, limit⟩ name args q).map f := by
  unfold callNamed
  dsimp only
  cases p.function? name args.length with
  | some g =>
      by_cases hdepth : callLimit ≤ m.depth <;> simp only [depth_map, hdepth] <;> rfl
  | none =>
      rw [host_map, hf name args m.host]
      cases h.call name args m.host with
      | some r => rfl
      | none =>
          dsimp only [Option.map_none]
          cases Value.builtin? name args <;> rfl

theorem callMethod_map (hf : h.Maps f h') (v : Value) (name : Text) (args : List Value)
    (q : Position) :
    (m.map f).callMethod ⟨h', p, limit⟩ v name args q =
      (m.callMethod ⟨h, p, limit⟩ v name args q).map f := by
  unfold callMethod
  cases v with
  | closure g =>
      dsimp only
      split
      · exact callNamed_map m hf ..
      · exact callNamed_map m hf ..
  | _ => exact callNamed_map m hf ..

theorem perform_map (hf : h.Maps f h') (op : Operation) (args : List Value) :
    (m.map f).perform ⟨h', p, limit⟩ op args = (m.perform ⟨h, p, limit⟩ op args).map f := by
  unfold perform
  split
  · rfl
  · rfl
  · exact settle_map m ..
  · exact settle_map m ..
  · exact settle_map m ..
  · exact settle_map m ..
  · exact settle_map m ..
  · exact settle_map m ..
  · exact callNamed_map m hf ..
  · split
    · rfl
    · exact callMethod_map m hf ..
  · refine atPlace_map m _ _ fun path root v => ?_
    dsimp only
    split
    · exact write_map m ..
    · exact callMethod_map m hf ..
  · exact store_map m ..
  · rfl

theorem beginRound_map (condition : Option Term) (body : Term) (q : Position) :
    (m.map f).beginRound condition body q = (m.beginRound condition body q).map f := by
  cases condition <;> rfl

theorem nextPass_map (name : Text) (counter : Option Text) (rest : Supply) (count : Nat)
    (body : Term) :
    (m.map f).nextPass name counter rest count body =
      (m.nextPass name counter rest count body).map f := by
  unfold nextPass
  cases rest.next? with
  | none => rfl
  | some r => cases counter <;> rfl

theorem evaluate_map (hf : h.Maps f h') (t : Term) :
    (m.map f).evaluate ⟨h', p, limit⟩ t = (m.evaluate ⟨h, p, limit⟩ t).map f := by
  cases t with
  | «variable» name q =>
      simp only [evaluate, scope_map]
      cases Value.lookup name m.scope <;> rfl
  | apply op operands =>
      cases operands with
      | nil => exact perform_map m hf op []
      | cons t ts => rfl
  | block body q => cases body <;> rfl
  | repeatWhile condition body q => exact beginRound_map m ..
  | leaveLoop t => cases t <;> rfl
  | giveBack t => cases t <;> rfl
  | throwValue t q => cases t <;> rfl
  | _ => rfl

theorem begin_map (hf : h.Maps f h') (t : Term) :
    (m.map f).begin ⟨h', p, limit⟩ t = (m.begin ⟨h, p, limit⟩ t).map f := by
  unfold begin
  dsimp only [operations_map]
  split
  · rfl
  · exact evaluate_map { m with
      operations := m.operations + 1, reached := t.position?.getD m.reached } hf t

theorem onTruth_map (v : Value) (q : Position) {g : Bool → Machine σ} {g' : Bool → Machine τ}
    (hg : ∀ b, g' b = (g b).map f) : (m.map f).onTruth v q g' = (m.onTruth v q g).map f := by
  cases v with
  | bool b => exact hg b
  | _ => rfl

theorem resume_map (hf : h.Maps f h') (v : Value) (frame : Frame) :
    (m.map f).resume ⟨h', p, limit⟩ v frame = (m.resume ⟨h, p, limit⟩ v frame).map f := by
  cases frame with
  | operands op done pending =>
      cases pending with
      | nil => exact perform_map m hf ..
      | cons t ts => rfl
  | bothRight b q | eitherRight b q | truth q | branch yes no q | condition c body q =>
      refine onTruth_map m v q fun b => ?_
      cases b <;> rfl
  | sequence rest height => cases rest <;> rfl
  | round c body q height => exact beginRound_map (m.rewind height) ..
  | supply name counter body q =>
      unfold resume
      dsimp only
      cases Supply.of? v with
      | none => rfl
      | some rest => exact nextPass_map m ..
  | pass name counter rest count body height => exact nextPass_map (m.rewind height) ..
  | _ => rfl

theorem unwind_map (x : Exit) (frame : Frame) :
    (m.map f).unwind x frame = (m.unwind x frame).map f := by
  cases frame with
  | round c body q height =>
      cases x with
      | nextRound => exact beginRound_map (m.rewind height) ..
      | _ => rfl
  | pass name counter rest count body height =>
      cases x with
      | nextRound => exact nextPass_map (m.rewind height) ..
      | _ => rfl
  | guarded name handler height =>
      cases x with
      | fault fault =>
          unfold unwind
          dsimp only
          split
          · rfl
          · cases name <;> rfl
      | _ => rfl
  | call name q scope => cases x <;> rfl
  | _ => rfl

/-- One step does to the image of a machine what it does to the machine. -/
theorem step_map (hf : h.Maps f h') :
    (m.map f).step ⟨h', p, limit⟩ = (m.step ⟨h, p, limit⟩).map f := by
  unfold step
  rw [control_map, frames_map]
  cases m.control with
  | eval t => exact begin_map m hf t
  | value v =>
      cases m.frames with
      | nil => rfl
      | cons frame frames =>
          dsimp only
          exact resume_map { m with control := .value v, frames := frames } hf v frame
  | exit x =>
      cases m.frames with
      | nil => rfl
      | cons frame frames =>
          dsimp only
          exact unwind_map { m with control := .exit x, frames := frames } x frame

theorem run_map (hf : h.Maps f h') (n : Nat) :
    (m.map f).run ⟨h', p, limit⟩ n = (m.run ⟨h, p, limit⟩ n).map f := by
  induction n generalizing m with
  | zero => rfl
  | succ n ih =>
      unfold run
      have hending : (m.map f).ending? = m.ending? := rfl
      rw [hending]
      split
      · rfl
      · rw [step_map m hf]
        exact ih _

end Machine

theorem lawful_runtime (limits : Limits) (patience : Nat) : (runtime limits patience).Lawful where
  run_map {σ τ f h h'} hf p s := by
    let e : Engine τ := ⟨h', p, limits.maxOperations⟩
    have hrun : (Machine.start p (f s)).run e (stepLimit limits.maxOperations patience) = Machine.map f _ :=
      Machine.run_map (Machine.start p s) hf _
    show ((Machine.run e _ (Machine.start p (f s))).host, failure? (Machine.run e _ _).ending?) = _
    rw [hrun]
    rfl

end ScriptPad.Script
