import Mathlib.Algebra.Group.Int.Defs
import Mathlib.Data.Int.Notation
import PowerMonitor.Lib.Scan

/-! # The timestamp of a signed request -/

namespace PowerMonitor.Security.AuthPolicy

open PowerMonitor.Lib.Binary PowerMonitor.Lib.Scan

/-- The smallest and the largest 64-bit signed integer. -/
def int64Min : ℤ := -2 ^ 63

def int64Max : ℤ := 2 ^ 63 - 1

/-- `strtoll` on the whole text: a text that ends early at a zero byte counts as whole, leading white
space and a sign are accepted, and a value outside the range is refused. -/
def parseTimestamp (value : Bytes) : Option Int64 :=
  if value = [] then none
  else
    match scanInteger (value.takeWhile (· ≠ 0)) with
    | none => none
    | some (negative, magnitude, rest) =>
      let candidate : ℤ := if negative then -magnitude else magnitude
      if candidate < int64Min ∨ int64Max < candidate ∨ rest ≠ [] then none
      else some (Int64.ofInt candidate)

/-- The window around `now`, clipped to the range of the clock. -/
def timestampWithinWindow (timestamp now : Int64) (windowSeconds : ℕ) : Bool :=
  let window : ℤ := windowSeconds
  let minimum := if now.toInt < int64Min + window then int64Min else now.toInt - window
  let maximum := if now.toInt > int64Max - window then int64Max else now.toInt + window
  decide (timestamp.toInt ≥ minimum ∧ timestamp.toInt ≤ maximum)

theorem toInt_range (t : Int64) : int64Min ≤ t.toInt ∧ t.toInt ≤ int64Max := by
  have h1 := t.le_toInt
  have h2 := t.toInt_lt
  unfold int64Min int64Max
  omega

/-- Clipping does not change what is accepted. -/
theorem timestampWithinWindow_iff (timestamp now : Int64) (w : ℕ) :
    timestampWithinWindow timestamp now w = true ↔
      now.toInt - w ≤ timestamp.toInt ∧ timestamp.toInt ≤ now.toInt + w := by
  have ht := toInt_range timestamp
  simp only [timestampWithinWindow, decide_eq_true_eq]
  unfold int64Min int64Max at *
  split_ifs <;> omega

end PowerMonitor.Security.AuthPolicy
