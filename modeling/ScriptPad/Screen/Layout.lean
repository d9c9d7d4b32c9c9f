/-!
How the rows of the screen are shared out: the editor at the top, a separator, the output and the
status line at the bottom. The output yields before the editor, which always has a row.
-/

namespace ScriptPad

structure Layout where
  editorHeight : UInt16
  separatorRow : UInt16
  outputTop : UInt16
  outputHeight : UInt16
  statusRow : UInt16
  deriving DecidableEq, Repr

namespace Layout

/-- A difference that stops at zero. -/
def monus (a b : UInt16) : UInt16 := if b ≤ a then a - b else 0

theorem toNat_monus (a b : UInt16) : (monus a b).toNat = a.toNat - b.toNat := by
  unfold monus
  split
  · next h => exact UInt16.toNat_sub_of_le _ _ h
  · next h =>
    rw [UInt16.le_iff_toNat_le] at h
    simp; omega

/-- The layout of a screen of some height when the output asks for some rows. -/
def ofHeight (height requested : UInt16) : Layout :=
  let outputHeight := min requested (monus height 3)
  let editorHeight := max (monus height (outputHeight + 2)) 1
  { editorHeight := editorHeight
    separatorRow := editorHeight
    outputTop := editorHeight + 1
    outputHeight := outputHeight
    statusRow := monus height 1 }

end Layout

end ScriptPad
