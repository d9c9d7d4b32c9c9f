import Mathlib.Algebra.Group.Nat.Defs
import Mathlib.Data.List.Induction
import ScriptPad.InitScript
import ScriptPad.Proofs.Script.Host

/-!
What init scripts do to the settings. A script changes them while it runs, by calls of its host's
functions, so the settings are at every moment what the changes made so far amount to. Which functions
change what is a table (`InitScript.Sets`): each gives one setting a value, the nearest in range to the
number asked for, and leaves the others. A script that ends in the middle leaves what it has done. One
that is not read does nothing, and the program takes over the settings of a script only if it ran to
its end.

The interpreter is any that keeps to `Script.Runtime.Lawful`. How scripts run matters nowhere here.
-/

namespace ScriptPad

/-! ### Settings -/

namespace Settings

/-- The range of each setting that has one. -/
structure InRange (s : Settings) : Prop where
  tabWidth : 1 ≤ s.tabWidth ∧ s.tabWidth ≤ 16
  outputHeight : 3 ≤ s.outputHeight.toNat ∧ s.outputHeight.toNat ≤ 40
  maxOperations : s.maxOperations < 2 ^ 63
  maxExprDepth : 1 ≤ s.maxExprDepth ∧ s.maxExprDepth ≤ 1024

inductive Field
  | theme
  | showLineNumbers
  | tabWidth
  | outputHeight
  | maxOperations
  | maxExprDepth
  deriving DecidableEq, Repr

inductive FieldValue
  | text (t : Text)
  | flag (b : Bool)
  | number (n : Nat)
  deriving DecidableEq, Repr

def value (s : Settings) : Field → FieldValue
  | .theme => .text s.theme
  | .showLineNumbers => .flag s.showLineNumbers
  | .tabWidth => .number s.tabWidth
  | .outputHeight => .number s.outputHeight.toNat
  | .maxOperations => .number s.maxOperations
  | .maxExprDepth => .number s.maxExprDepth

/-- The one setting that a change is about. -/
def Update.field : Update → Field
  | .theme _ => .theme
  | .tabWidth _ => .tabWidth
  | .showLineNumbers _ => .showLineNumbers
  | .outputHeight _ => .outputHeight
  | .maxOperations _ => .maxOperations
  | .maxExprDepth _ => .maxExprDepth

theorem value_apply_of_ne (s : Settings) (u : Update) {f : Field} (h : f ≠ u.field) :
    (s.apply u).value f = s.value f := by
  cases u <;> cases f <;> first | rfl | exact absurd rfl h

theorem clamp_eq {lo hi : Nat} (h : lo ≤ hi) (n : Int) :
    clamp lo hi n = (max (lo : Int) (min n hi)).toNat := by
  unfold clamp
  omega

theorem toNat_ofNat_clamp {lo hi : Nat} (h : hi < UInt16.size) (n : Int) :
    (UInt16.ofNat (clamp lo hi n)).toNat = clamp lo hi n := by
  rw [UInt16.toNat_ofNat', Nat.mod_eq_of_lt (Nat.lt_of_le_of_lt (clamp_le lo hi n) h)]

theorem inRange_default : InRange {} := by
  constructor <;> decide

theorem InRange.apply {s : Settings} (h : s.InRange) (u : Update) : (s.apply u).InRange := by
  cases u with
  | theme | showLineNumbers => exact ⟨h.1, h.2, h.3, h.4⟩
  | tabWidth n => exact ⟨⟨le_clamp (by decide) _, clamp_le ..⟩, h.2, h.3, h.4⟩
  | outputHeight n =>
      have hword : (s.apply (.outputHeight n)).outputHeight.toNat = clamp 3 40 n.toInt :=
        toNat_ofNat_clamp (by decide) n.toInt
      refine ⟨h.1, ?_, h.3, h.4⟩
      rw [hword]
      exact ⟨le_clamp (by decide) _, clamp_le ..⟩
  | maxOperations n =>
      refine ⟨h.1, h.2, ?_, h.4⟩
      show n.toInt.toNat < 2 ^ 63
      have hlt := n.toInt_lt
      omega
  | maxExprDepth n => exact ⟨h.1, h.2, h.3, le_clamp (by decide) _, clamp_le ..⟩

theorem InRange.foldl {s : Settings} (h : s.InRange) (us : List Update) :
    (us.foldl Settings.apply s).InRange := by
  induction us generalizing s with
  | nil => exact h
  | cons u us ih => exact ih (h.apply u)

end Settings

/-! ### Changes made by calls -/

namespace InitScript

open Script (Runtime Value Host)

variable {r : Runtime} {s : Settings}

/-- The functions that set something, each with the setting that is theirs and the value that it gets. A
number is moved into the range of its setting. -/
inductive Sets : Host.Call → Settings.Field → Settings.FieldValue → Prop
  | theme (t : Text) : Sets ⟨"set_theme".toList, [.text t]⟩ .theme (.text t)
  | showLineNumbers (b : Bool) :
      Sets ⟨"set_show_line_numbers".toList, [.bool b]⟩ .showLineNumbers (.flag b)
  | tabWidth (n : Int64) :
      Sets ⟨"set_tab_width".toList, [.int n]⟩ .tabWidth (.number (max 1 (min n.toInt 16)).toNat)
  | outputHeight (n : Int64) :
      Sets ⟨"set_output_height".toList, [.int n]⟩ .outputHeight
        (.number (max 3 (min n.toInt 40)).toNat)
  | maxOperations (n : Int64) :
      Sets ⟨"set_max_operations".toList, [.int n]⟩ .maxOperations (.number (max 0 n.toInt).toNat)
  | maxExprDepth (n : Int64) :
      Sets ⟨"set_max_expr_depth".toList, [.int n]⟩ .maxExprDepth
        (.number (max 1 (min n.toInt 1024)).toNat)

/-- The changes that calls of the functions of an init script ask for. -/
def changes (calls : List Host.Call) : List Settings.Update :=
  calls.filterMap fun c => update? c.name c.args

theorem call_host_of_update {name : Text} {args : List Value} {u : Settings.Update}
    (h : update? name args = some u) : host.call name args s = some (.unit, s.apply u) := by
  simp [host, h]

theorem Sets.exists_update {c : Host.Call} {f : Settings.Field} {x : Settings.FieldValue}
    (h : Sets c f x) (s : Settings) :
    ∃ u, update? c.name c.args = some u ∧ u.field = f ∧ (s.apply u).value f = x := by
  cases h with
  | theme t => exact ⟨.theme t, rfl, rfl, rfl⟩
  | showLineNumbers b => exact ⟨.showLineNumbers b, rfl, rfl, rfl⟩
  | tabWidth n =>
      exact ⟨.tabWidth n, rfl, rfl, congrArg _ (Settings.clamp_eq (by decide) n.toInt)⟩
  | outputHeight n =>
      have hword : (UInt16.ofNat (Settings.clamp 3 40 n.toInt)).toNat = Settings.clamp 3 40 n.toInt :=
        Settings.toNat_ofNat_clamp (by decide) n.toInt
      exact ⟨.outputHeight n, rfl, rfl,
        congrArg Settings.FieldValue.number (hword.trans (Settings.clamp_eq (by decide) n.toInt))⟩
  | maxOperations n =>
      have hmax : n.toInt.toNat = (max 0 n.toInt).toNat := by omega
      exact ⟨.maxOperations n, rfl, rfl, congrArg Settings.FieldValue.number hmax⟩
  | maxExprDepth n =>
      exact ⟨.maxExprDepth n, rfl, rfl, congrArg _ (Settings.clamp_eq (by decide) n.toInt)⟩

theorem exists_sets_of_update {name : Text} {args : List Value} {u : Settings.Update}
    (h : update? name args = some u) : ∃ x, Sets ⟨name, args⟩ u.field x := by
  unfold update? at h
  split at h
  · obtain ⟨rfl, hu⟩ := Option.ite_none_right_eq_some.1 h
    obtain rfl := Option.some.inj hu
    exact ⟨_, .theme _⟩
  · obtain ⟨rfl, hu⟩ := Option.ite_none_right_eq_some.1 h
    obtain rfl := Option.some.inj hu
    exact ⟨_, .showLineNumbers _⟩
  · split_ifs at h with hwidth hheight hoperations hdepth
    · obtain rfl := hwidth
      obtain rfl := Option.some.inj h
      exact ⟨_, .tabWidth _⟩
    · obtain rfl := hheight
      obtain rfl := Option.some.inj h
      exact ⟨_, .outputHeight _⟩
    · obtain rfl := hoperations
      obtain rfl := Option.some.inj h
      exact ⟨_, .maxOperations _⟩
    · obtain rfl := hdepth
      obtain rfl := Option.some.inj h
      exact ⟨_, .maxExprDepth _⟩
  · cases h

theorem call_host_of_none {name : Text} {args : List Value} {v : Value} {s' : Settings}
    (h : update? name args = none) (hcall : host.call name args s = some (v, s')) : s' = s := by
  simp only [host, h] at hcall
  split at hcall
  · exact (Prod.mk.inj (Option.some.inj hcall)).2.symm
  · split at hcall
    · exact (Prod.mk.inj (Option.some.inj hcall)).2.symm
    · cases hcall

/-- A setter gives its setting the value and leaves the others. -/
theorem call_host_of_sets {c : Host.Call} {f : Settings.Field} {x : Settings.FieldValue}
    (h : Sets c f x) (s : Settings) : ∃ s', host.call c.name c.args s = some (.unit, s') ∧
      s'.value f = x ∧ ∀ g, g ≠ f → s'.value g = s.value g := by
  obtain ⟨u, hu, rfl, hvalue⟩ := h.exists_update s
  exact ⟨s.apply u, call_host_of_update hu, hvalue, fun g => Settings.value_apply_of_ne s u⟩

/-- A call of anything else changes nothing. -/
theorem call_host_of_not_sets {c : Host.Call} (h : ∀ f x, ¬ Sets c f x) {v : Value} {s' : Settings}
    (hcall : host.call c.name c.args s = some (v, s')) : s' = s := by
  cases hu : update? c.name c.args with
  | none => exact call_host_of_none hu hcall
  | some u =>
      obtain ⟨x, hx⟩ := exists_sets_of_update hu
      exact absurd hx (h _ x)

/-- A call that does not set a setting leaves its value, whatever else it sets. -/
theorem value_call_host {c : Host.Call} {f : Settings.Field} (h : ∀ x, ¬ Sets c f x) {v : Value}
    {s' : Settings} (hcall : host.call c.name c.args s = some (v, s')) : s'.value f = s.value f := by
  cases hu : update? c.name c.args with
  | none => rw [call_host_of_none hu hcall]
  | some u =>
      obtain ⟨x, hx⟩ := exists_sets_of_update hu
      have hne : f ≠ u.field := by
        rintro rfl
        exact h x hx
      rw [call_host_of_update hu] at hcall
      obtain ⟨-, rfl⟩ := Prod.mk.inj (Option.some.inj hcall)
      exact Settings.value_apply_of_ne s u hne

theorem after_host (s : Settings) (calls : List Host.Call) :
    host.after s calls = (changes calls).foldl Settings.apply s := by
  induction calls generalizing s with
  | nil => rfl
  | cons c calls ih =>
      show host.after (((host.call c.name c.args s).map Prod.snd).getD s) calls = _
      rw [ih]
      cases hu : update? c.name c.args with
      | some u => simp [changes, call_host_of_update hu, hu]
      | none =>
          have hsame : ((host.call c.name c.args s).map Prod.snd).getD s = s := by
            cases hcall : host.call c.name c.args s with
            | none => rfl
            | some a => exact call_host_of_none hu hcall
          simp [changes, hsame, hu]

/-- After some calls a setting has the value of the last call that set it, or the one it had. -/
def Settled (f : Settings.Field) (start : Settings.FieldValue) (calls : List Host.Call)
    (x : Settings.FieldValue) : Prop :=
  (∃ before c after, calls = before ++ c :: after ∧ Sets c f x ∧ ∀ d ∈ after, ∀ y, ¬ Sets d f y) ∨
    (x = start ∧ ∀ d ∈ calls, ∀ y, ¬ Sets d f y)

theorem settled_after (f : Settings.Field) (s : Settings) (calls : List Host.Call) :
    Settled f (s.value f) calls ((host.after s calls).value f) := by
  induction calls using List.reverseRecOn with
  | nil => exact .inr ⟨rfl, by simp⟩
  | append_singleton calls c ih =>
      rw [Host.after_concat]
      by_cases hset : ∃ x, Sets c f x
      · obtain ⟨x, hx⟩ := hset
        obtain ⟨s', hcall, rfl, -⟩ := call_host_of_sets hx (host.after s calls)
        rw [hcall]
        exact .inl ⟨calls, c, [], rfl, hx, by simp⟩
      · have hnot : ∀ x, ¬ Sets c f x := fun x hx => hset ⟨x, hx⟩
        have hsame : (((host.call c.name c.args (host.after s calls)).map Prod.snd).getD
            (host.after s calls)).value f = (host.after s calls).value f := by
          cases hcall : host.call c.name c.args (host.after s calls) with
          | none => rfl
          | some a => exact value_call_host hnot hcall
        have hlast : ∀ d ∈ [c], ∀ x, ¬ Sets d f x := by simpa using hnot
        rw [hsame]
        rcases ih with ⟨before, d, after, rfl, hd, hafter⟩ | ⟨hstart, hnone⟩
        · refine .inl ⟨before, d, after ++ [c], by simp, hd, fun e he => ?_⟩
          exact (List.mem_append.1 he).elim (hafter e) (hlast e)
        · exact .inr ⟨hstart, fun e he => (List.mem_append.1 he).elim (hnone e) (hlast e)⟩

/-- The changes that a run makes, in order. -/
def changesOf (r : Runtime) (code : r.Code) (s : Settings) : List Settings.Update :=
  changes (r.calls host code s)

theorem fst_run_host (hr : r.Lawful) (code : r.Code) (s : Settings) :
    (r.run host code s).1 = (changesOf r code s).foldl Settings.apply s :=
  (hr.run_eq_after host code s).trans (after_host s _)

/-! ### Requests -/

/-- What settings can be asked to do: to run a script, or to run the one at a path. -/
inductive Request
  | eval (source : Text)
  | load (files : FileTree) (path shown : Text)

namespace Request

/-- The settings after a request, and its error if there was one. -/
def serve (r : Runtime) (s : Settings) : Request → Settings × Option InitError
  | .eval source => InitScript.eval s source r
  | .load files path shown => InitScript.load s files path shown r

/-- The script of a request. -/
def text : Request → Except FileError Text
  | .eval source => .ok source
  | .load files path _ => files.readText path

/-- The calls that the script of a request makes, in order; none if it is not opened or not read. -/
def calls (r : Runtime) (s : Settings) (q : Request) : List Host.Call :=
  match q.text with
  | .error _ => []
  | .ok source =>
    match r.read source with
    | .error _ => []
    | .ok code => r.calls host code s

variable {q : Request} {source : Text}

theorem serve_of_unreadable {e : FileError} (h : q.text = .error e) :
    ∃ shown, q.serve r s = (s, some (.read shown e)) := by
  cases q with
  | eval source => cases h
  | load files path shown =>
      obtain h : files.readText path = .error e := h
      exact ⟨shown, by simp [serve, InitScript.load, h]⟩

theorem serve_of_text (h : q.text = .ok source) : q.serve r s = InitScript.eval s source r := by
  cases q with
  | eval source' =>
      obtain rfl := Except.ok.inj h
      rfl
  | load files path shown =>
      obtain h : files.readText path = .ok source := h
      simp [serve, InitScript.load, h]

theorem serve_of_refused {reason : Text} (h : q.text = .ok source)
    (hread : r.read source = .error reason) : q.serve r s = (s, some (.parse reason)) := by
  rw [serve_of_text h, InitScript.eval, hread]

theorem serve_of_read (hr : r.Lawful) {code : r.Code} (h : q.text = .ok source)
    (hread : r.read source = .ok code) :
    q.serve r s = ((InitScript.changesOf r code s).foldl Settings.apply s,
      (r.run host code s).2.map .eval) := by
  rw [serve_of_text h, InitScript.eval, hread, ← fst_run_host hr]

theorem fst_serve (hr : r.Lawful) (q : Request) (s : Settings) :
    (q.serve r s).1 = host.after s (q.calls r s) := by
  unfold calls
  cases h : q.text with
  | error e =>
      obtain ⟨shown, hserve⟩ := serve_of_unreadable (r := r) (s := s) h
      rw [hserve]
      rfl
  | ok source =>
      dsimp only
      cases hread : r.read source with
      | error reason => rw [serve_of_refused h hread]; rfl
      | ok code =>
          rw [serve_of_read hr h hread]
          exact (after_host s _).symm

end Request

/-- The settings after some requests. -/
def after (r : Runtime) (s : Settings) (requests : List Request) : Settings :=
  requests.foldl (fun s q => (q.serve r s).1) s

/-- The calls that the scripts of some requests make, in order. -/
def allCalls (r : Runtime) (s : Settings) : List Request → List Host.Call
  | [] => []
  | q :: requests => q.calls r s ++ allCalls r (q.serve r s).1 requests

theorem after_eq (hr : r.Lawful) (s : Settings) (requests : List Request) :
    after r s requests = host.after s (allCalls r s requests) := by
  induction requests generalizing s with
  | nil => rfl
  | cons q requests ih =>
      rw [allCalls, Host.after_append, ← Request.fst_serve hr q s]
      exact ih _

/-- A setter gives one setting a value in its range and leaves the others, and a call of anything else
changes nothing. After any requests each setting is in its range and has the value of the last call that
set it, among all that the scripts made, or the default one; so the settings are what the changes made
amount to. -/
theorem settings_are_changes_made (r : Runtime) (hr : r.Lawful) (requests : List Request) :
    let settings := after r {} requests
    let calls := allCalls r {} requests
    settings.InRange ∧
      (∀ c f x, Sets c f x → ∀ s : Settings, ∃ s', host.call c.name c.args s = some (.unit, s') ∧
        s'.value f = x ∧ ∀ g, g ≠ f → s'.value g = s.value g) ∧
      (∀ c, (∀ f x, ¬ Sets c f x) → ∀ s v s', host.call c.name c.args s = some (v, s') → s' = s) ∧
      (∀ f, Settled f (Settings.value {} f) calls (settings.value f)) ∧
      settings = (changes calls).foldl Settings.apply {} := by
  intro settings calls
  have hafter : settings = host.after {} calls := after_eq hr {} requests
  have hfold : settings = (changes calls).foldl Settings.apply {} := hafter.trans (after_host {} calls)
  refine ⟨?_, fun c f x => call_host_of_sets, fun c hc s v s' => call_host_of_not_sets hc, fun f => ?_,
    hfold⟩
  · rw [hfold]
    exact Settings.inRange_default.foldl _
  · rw [hafter]
    exact settled_after f {} calls

/-- A script that sets one thing twice and throws, a path that leads nowhere, and a script that is not
read though it begins well. -/
theorem settings_are_changes_made_midway :
    let requests : List Request := [
      .eval "set_max_operations(-5); set_tab_width(9); set_tab_width(100); throw 1;".toList,
      .load .empty path path,
      .eval "set_tab_width(2); let = ;".toList]
    runtime.Lawful ∧
      after runtime {} requests = { tabWidth := 16, maxOperations := 0 } ∧
      (after runtime {} requests).InRange := by
  intro requests
  have hr : runtime.Lawful := Script.lawful_runtime _ _
  obtain ⟨hrange, -, -, -, hfold⟩ := settings_are_changes_made runtime hr requests
  have hchanges : changes (allCalls runtime {} requests) =
      [.maxOperations (-5), .tabWidth 9, .tabWidth 100] := by decide +kernel
  refine ⟨hr, ?_, hrange⟩
  rw [hfold, hchanges]
  decide

/-! ### The settings of the program -/

theorem decode_toUTF8 (s : String) : FileTree.decode s.toUTF8 = .ok s.toList := by
  have h : String.fromUTF8? s.toUTF8 = some s := dif_pos s.isValidUTF8
  rw [FileTree.decode, h]

theorem hasPath_of_readText {config : FileTree} {path source : Text}
    (h : config.readText path = .ok source) : config.hasPath path := by
  unfold FileTree.readText at h
  unfold FileTree.hasPath
  cases hfind : config.find path with
  | error e =>
      rw [hfind] at h
      cases h
  | ok t => rfl

theorem settings_of_unreadable {config : FileTree} {e : FileError}
    (h : config.readText path = .error e) : settings config r = {} := by
  unfold settings load
  rw [h]
  exact ite_self _

theorem settings_of_text {config : FileTree} {source : Text}
    (h : config.readText path = .ok source) :
    settings config r = if (eval {} source r).2 = none then (eval {} source r).1 else {} := by
  unfold settings load
  rw [if_pos (hasPath_of_readText h), h]
  dsimp only
  split
  · next heq => rw [heq, if_pos rfl]
  · next heq => rw [heq, if_neg (Option.some_ne_none _)]

theorem settings_of_refused {config : FileTree} {source reason : Text}
    (h : config.readText path = .ok source) (hread : r.read source = .error reason) :
    settings config r = {} := by
  have heval : eval {} source r = ({}, some (.parse reason)) := by rw [eval, hread]
  rw [settings_of_text h, heval, ite_self]

theorem settings_of_read (hr : r.Lawful) {config : FileTree} {source : Text} {code : r.Code}
    (h : config.readText path = .ok source) (hread : r.read source = .ok code) :
    settings config r =
      if (r.run host code {}).2 = none then (changesOf r code {}).foldl Settings.apply {} else {} := by
  have heval : eval {} source r =
      ((changesOf r code {}).foldl Settings.apply {}, (r.run host code {}).2.map .eval) := by
    rw [eval, hread, ← fst_run_host hr]
  simp only [settings_of_text h, heval, Option.map_eq_none_iff]

/-- A script that cannot be opened or read changes no settings, whatever it begins with. A script that is
read leaves the settings with the changes that it has made when it ends, also where it fails. The program
has the settings with all the changes of a script that ran to its end, or the default ones. -/
theorem script_is_all_or_nothing (r : Runtime) (hr : r.Lawful) :
    (∀ s (q : Request) e, q.text = .error e → ∃ shown, q.serve r s = (s, some (.read shown e))) ∧
      (∀ s (q : Request) source reason, q.text = .ok source → r.read source = .error reason →
        q.serve r s = (s, some (.parse reason))) ∧
      (∀ s (q : Request) source code, q.text = .ok source → r.read source = .ok code →
        q.serve r s = ((changesOf r code s).foldl Settings.apply s,
          (r.run host code s).2.map .eval)) ∧
      ∀ config : FileTree,
        (∃ source code, config.readText path = .ok source ∧ r.read source = .ok code ∧
          (r.run host code {}).2 = none ∧
          settings config r = (changesOf r code {}).foldl Settings.apply {}) ∨
        (settings config r = {} ∧ ∀ source code, config.readText path = .ok source →
          r.read source = .ok code → (r.run host code {}).2 ≠ none) := by
  refine ⟨fun s q e h => Request.serve_of_unreadable h,
    fun s q source reason h hread => Request.serve_of_refused h hread,
    fun s q source code h hread => Request.serve_of_read hr h hread, fun config => ?_⟩
  cases h : config.readText path with
  | error e => exact .inr ⟨settings_of_unreadable h, fun _ _ hsource => by cases hsource⟩
  | ok source =>
      cases hread : r.read source with
      | error reason =>
          refine .inr ⟨settings_of_refused h hread, fun source' code hsource hread' => ?_⟩
          obtain rfl := Except.ok.inj hsource
          rw [hread] at hread'
          cases hread'
      | ok code =>
          have hsettings := settings_of_read hr h hread
          by_cases hend : (r.run host code {}).2 = none
          · exact .inl ⟨source, code, rfl, hread, hend, by rw [hsettings, if_pos hend]⟩
          · refine .inr ⟨by rw [hsettings, if_neg hend], fun source' code' hsource hread' => ?_⟩
            obtain rfl := Except.ok.inj hsource
            rw [hread] at hread'
            obtain rfl := Except.ok.inj hread'
            exact hend

/-- A script that throws between two changes: the first one stays made, and the program has neither. -/
theorem script_is_all_or_nothing_throws :
    let source := "set_tab_width(8); throw 1; set_tab_width(2);"
    let config : FileTree :=
      .directory [("sparkpad".toList, .directory [(fileName, .file source.toUTF8)])]
    runtime.Lawful ∧ config.readText path = .ok source.toList ∧
      eval {} source.toList =
        ({ tabWidth := 8 }, some (.eval "Runtime error: 1 (line 1, position 19)".toList)) ∧
      settings config = {} := by
  intro source config
  have hr : runtime.Lawful := Script.lawful_runtime _ _
  have hfind : config.find path = .ok (.file source.toUTF8) := rfl
  have htext : config.readText path = .ok source.toList := by
    rw [FileTree.readText, hfind]
    exact decode_toUTF8 source
  have heval : eval {} source.toList =
      ({ tabWidth := 8 }, some (.eval "Runtime error: 1 (line 1, position 19)".toList)) := by
    decide +kernel
  refine ⟨hr, htext, heval, ?_⟩
  obtain ⟨-, -, hserve, hprogram⟩ := script_is_all_or_nothing runtime hr
  rcases hprogram config with ⟨source', code, hsource, hread, hend, -⟩ | ⟨hsettings, -⟩
  · obtain rfl := Except.ok.inj (htext.symm.trans hsource)
    have hfailure : (eval {} source.toList).2 = none := by
      rw [show eval {} source.toList = _ from hserve {} (.eval source.toList) _ code rfl hread, hend]
      rfl
    rw [heval] at hfailure
    cases hfailure
  · exact hsettings

end InitScript

end ScriptPad
