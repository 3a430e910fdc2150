import Mathlib.Data.Int.Log
import Mathlib.Data.Rat.Floor

/-! # Binary floating-point numbers

A number is given by its bits, a sign, an exponent and a fraction, or by its value. -/

namespace PowerMonitor.Lib.Ieee

/-- A binary format. -/
structure Format where
  exponentBits : ℕ
  fractionBits : ℕ
  deriving DecidableEq, Repr

def single : Format := ⟨8, 23⟩
def double : Format := ⟨11, 52⟩

/-- The bits without the sign. -/
def magnitude (f : Format) (bits : ℕ) : ℕ := bits % 2 ^ (f.exponentBits + f.fractionBits)

/-- The bits of infinity. -/
def infinity (f : Format) : ℕ := (2 ^ f.exponentBits - 1) * 2 ^ f.fractionBits

def isFinite (f : Format) (bits : ℕ) : Bool := magnitude f bits < infinity f

def isNan (f : Format) (bits : ℕ) : Bool := infinity f < magnitude f bits

/-- The comparison of numbers: the two zeros are equal, and what is not a number equals nothing. -/
def equal (f : Format) (left right : ℕ) : Bool :=
  !isNan f left && !isNan f right && (left = right || (magnitude f left = 0 && magnitude f right = 0))

/-! ### Rounding -/

/-- The integer nearest to a number, of two the even one. -/
def nearestEven (q : ℚ) : ℤ :=
  let excess := q - ⌊q⌋
  if excess < 1 / 2 ∨ (excess = 1 / 2 ∧ ⌊q⌋ % 2 = 0) then ⌊q⌋ else ⌊q⌋ + 1

/-- The value of a format that is nearest to a number; the number is zero or positive and in the normal range. -/
def round (f : Format) (q : ℚ) : ℚ :=
  if q = 0 then 0
  else
    let unit : ℚ := 2 ^ (Int.log 2 q - f.fractionBits)
    nearestEven (q / unit) * unit

end PowerMonitor.Lib.Ieee
