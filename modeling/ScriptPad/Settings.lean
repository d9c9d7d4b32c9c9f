import ScriptPad.Theme

/-!
What the init script can set. Every setter touches one field and clamps its argument, so the
settings stay in range whatever numbers a script passes.
-/

namespace ScriptPad

structure Settings where
  theme : Text := "gruvbox-dark".toList
  showLineNumbers : Bool := true
  tabWidth : Nat := 4
  /-- Rows asked for by the output pane. -/
  outputHeight : UInt16 := 10
  /-- Operations that a run may take; zero is no limit. -/
  maxOperations : Nat := 5000000
  /-- How deep an expression may nest; zero is no limit. -/
  maxExprDepth : Nat := 64
  deriving DecidableEq, Repr

/-- A change to one setting, as a script asks for it. -/
inductive Settings.Update
  | theme (name : Text)
  | tabWidth (n : Int64)
  | showLineNumbers (b : Bool)
  | outputHeight (n : Int64)
  | maxOperations (n : Int64)
  | maxExprDepth (n : Int64)
  deriving DecidableEq, Repr

namespace Settings

/-- The number nearest to `n` between two bounds. -/
def clamp (lo hi : Nat) (n : Int) : Nat := min (max n.toNat lo) hi

theorem le_clamp {lo hi : Nat} (h : lo ≤ hi) (n : Int) : lo ≤ clamp lo hi n := by
  unfold clamp; omega

theorem clamp_le (lo hi : Nat) (n : Int) : clamp lo hi n ≤ hi := by
  unfold clamp; omega

def apply (s : Settings) : Update → Settings
  | .theme name => { s with theme := name }
  | .tabWidth n => { s with tabWidth := clamp 1 16 n.toInt }
  | .showLineNumbers b => { s with showLineNumbers := b }
  | .outputHeight n => { s with outputHeight := UInt16.ofNat (clamp 3 40 n.toInt) }
  | .maxOperations n => { s with maxOperations := n.toInt.toNat }
  | .maxExprDepth n => { s with maxExprDepth := clamp 1 1024 n.toInt }

end Settings

end ScriptPad
