import Mathlib.Data.List.Lex
import Mathlib.Tactic.Ring
import PowerMonitor.Lib.Scan

/-! # Decimal numerals and their order

The value of a text of digits, one digit at a time, and the numerals without leading zeros. A longer numeral is the
greater number (`decimalValue_lt_of_length`), and texts of digits of one length are ordered as their numbers are
(`decimalValue_lt_iff`), so numerals of any length can be compared without computing their values. -/

namespace PowerMonitor.Lib.Decimal

open PowerMonitor.Lib.Binary PowerMonitor.Lib.Scan

/-- A text of digits. -/
def Digits (s : Bytes) : Prop := ∀ b ∈ s, isDigit b = true

/-- A numeral: zero, or digits of which the first is not zero. -/
inductive Numeral : Bytes → Prop
  | zero : Numeral [48]
  | positive {b : UInt8} {s : Bytes} (digits : Digits (b :: s)) (first : b ≠ 48) : Numeral (b :: s)

theorem Numeral.digits {s : Bytes} (h : Numeral s) : Digits s := by
  cases h with
  | zero => simp [Digits, isDigit]
  | positive digits first => exact digits

theorem Numeral.ne_nil {s : Bytes} (h : Numeral s) : s ≠ [] := by cases h <;> simp

theorem numeral_iff (s : Bytes) : Numeral s ↔ s ≠ [] ∧ Digits s ∧ (s.length = 1 ∨ s.head? ≠ some 48) := by
  constructor
  · intro h
    refine ⟨h.ne_nil, h.digits, ?_⟩
    cases h with
    | zero => exact Or.inl rfl
    | positive digits first => exact Or.inr (by simpa using first)
  · rintro ⟨hne, hdigits, hfirst⟩
    cases s with
    | nil => exact absurd rfl hne
    | cons b s =>
      by_cases hb : b = 48
      · obtain rfl : s = [] := by simpa [hb] using hfirst
        exact hb ▸ Numeral.zero
      · exact Numeral.positive hdigits hb

theorem digit_le {b : UInt8} (h : isDigit b = true) : 48 ≤ b.toNat ∧ b.toNat ≤ 57 := by
  simpa [isDigit, UInt8.le_iff_toNat_le] using h

/-! ### Values -/

theorem foldl_digits (s : Bytes) (n : ℕ) :
    s.foldl (fun n b => 10 * n + (b.toNat - 48)) n = n * 10 ^ s.length + decimalValue s := by
  unfold decimalValue
  induction s generalizing n with
  | nil => simp
  | cons b s ih =>
    rw [List.foldl_cons, List.foldl_cons, ih, ih (10 * 0 + _), List.length_cons, pow_succ]
    ring

theorem decimalValue_cons (b : UInt8) (s : Bytes) :
    decimalValue (b :: s) = (b.toNat - 48) * 10 ^ s.length + decimalValue s := by
  calc
    decimalValue (b :: s) = (10 * 0 + (b.toNat - 48)) * 10 ^ s.length + decimalValue s := foldl_digits s _
    _ = (b.toNat - 48) * 10 ^ s.length + decimalValue s := by rw [Nat.mul_zero, Nat.zero_add]

theorem decimalValue_lt {s : Bytes} (h : Digits s) : decimalValue s < 10 ^ s.length := by
  induction s with
  | nil => simp [decimalValue]
  | cons b s ih =>
    have hb := digit_le (h b (by simp))
    have htail := ih fun c hc => h c (by simp [hc])
    rw [decimalValue_cons, List.length_cons, pow_succ]
    calc
      (b.toNat - 48) * 10 ^ s.length + decimalValue s < (b.toNat - 48) * 10 ^ s.length + 10 ^ s.length := by omega
      _ = (b.toNat - 48 + 1) * 10 ^ s.length := by ring
      _ ≤ 10 * 10 ^ s.length := Nat.mul_le_mul_right _ (by omega)
      _ = 10 ^ s.length * 10 := Nat.mul_comm _ _

theorem pow_le_decimalValue {b : UInt8} {s : Bytes} (hb : isDigit b = true) (hfirst : b ≠ 48) :
    10 ^ s.length ≤ decimalValue (b :: s) := by
  have hdigit := digit_le hb
  have hne : b.toNat ≠ 48 := fun h => hfirst (UInt8.toNat_inj.mp h)
  rw [decimalValue_cons]
  calc
    10 ^ s.length = 1 * 10 ^ s.length := (Nat.one_mul _).symm
    _ ≤ (b.toNat - 48) * 10 ^ s.length := Nat.mul_le_mul_right _ (by omega)
    _ ≤ (b.toNat - 48) * 10 ^ s.length + decimalValue s := Nat.le_add_right _ _

/-! ### The order -/

/-- **A longer numeral is the greater number.** -/
theorem decimalValue_lt_of_length {s t : Bytes} (hs : Digits s) (ht : Numeral t) (h : s.length < t.length)
    (hne : s ≠ []) : decimalValue s < decimalValue t := by
  have hpositive := List.length_pos_of_ne_nil hne
  cases ht with
  | zero =>
    rw [List.length_singleton] at h
    omega
  | @positive b t digits first =>
    rw [List.length_cons] at h
    calc
      decimalValue s < 10 ^ s.length := decimalValue_lt hs
      _ ≤ 10 ^ t.length := Nat.pow_le_pow_right (by omega) (by omega)
      _ ≤ decimalValue (b :: t) := pow_le_decimalValue (digits b (by simp)) first

/-- **Digits of one length are ordered as their numbers are.** -/
theorem decimalValue_lt_iff {s t : Bytes} (hs : Digits s) (ht : Digits t) (h : s.length = t.length) :
    decimalValue s < decimalValue t ↔ s.map UInt8.toNat < t.map UInt8.toNat := by
  induction s generalizing t with
  | nil =>
    obtain rfl : t = [] := List.length_eq_zero_iff.mp h.symm
    simp
  | cons b s ih =>
    cases t with
    | nil => simp at h
    | cons c t =>
      have hb := digit_le (hs b (by simp))
      have hc := digit_le (ht c (by simp))
      have hlength : s.length = t.length := by simpa using h
      have hst : Digits s := fun d hd => hs d (by simp [hd])
      have htt : Digits t := fun d hd => ht d (by simp [hd])
      have hvs := decimalValue_lt hst
      have hvt := decimalValue_lt htt
      rw [List.map_cons, List.map_cons, List.cons_lt_cons_iff, ← ih hst htt hlength, decimalValue_cons,
        decimalValue_cons, hlength]
      rw [hlength] at hvs
      generalize 10 ^ t.length = p at hvs hvt
      rcases Nat.lt_trichotomy b.toNat c.toNat with hlt | heq | hgt
      · have hstep : (b.toNat - 48 + 1) * p ≤ (c.toNat - 48) * p := Nat.mul_le_mul_right _ (by omega)
        rw [Nat.add_mul] at hstep
        omega
      · rw [heq]
        omega
      · have hstep : (c.toNat - 48 + 1) * p ≤ (b.toNat - 48) * p := Nat.mul_le_mul_right _ (by omega)
        rw [Nat.add_mul] at hstep
        omega

end PowerMonitor.Lib.Decimal
