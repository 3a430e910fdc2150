import Mathlib.Tactic.Common

/-! # Cursors

The device keeps its cursors in its preferences and a copy of them in memory. A cursor never goes down;
`written` tells whether the preferences accept the new value. -/

namespace PowerMonitor.Config.Cursors

/-- The cursor after it is set, and whether it was. -/
def raiseCursor (current sequence : ℕ) (written : Bool) : ℕ × Bool :=
  if sequence < current then (current, false)
  else if sequence = current then (current, true)
  else if !written then (current, false)
  else (sequence, true)

def setServerAckSequence : ℕ → ℕ → Bool → ℕ × Bool := raiseCursor
def setServerMaximumSeenSequence : ℕ → ℕ → Bool → ℕ × Bool := raiseCursor
def setPreparedRemovalSequence : ℕ → ℕ → Bool → ℕ × Bool := raiseCursor
def setServerEventAckSequence : ℕ → ℕ → Bool → ℕ × Bool := raiseCursor

/-- A cursor never goes down. -/
theorem le_raiseCursor (current sequence : ℕ) (written : Bool) :
    current ≤ (raiseCursor current sequence written).1 := by
  unfold raiseCursor
  split_ifs <;> simp only <;> omega

/-- A cursor that was set has its new value. -/
theorem raiseCursor_eq {current sequence : ℕ} {written : Bool}
    (h : (raiseCursor current sequence written).2 = true) :
    (raiseCursor current sequence written).1 = sequence := by
  unfold raiseCursor at h ⊢
  split_ifs at h ⊢ <;> simp_all

end PowerMonitor.Config.Cursors
