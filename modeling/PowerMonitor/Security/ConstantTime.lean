import PowerMonitor.Security.Crypto
import Mathlib.Data.Nat.Bitwise

/-! # The comparison without early exit

`constantTimeEqual` gathers the differences of two texts in one byte. It is zero exactly if the texts are the same, as
long as they are shorter than `2 ^ 64`. -/

namespace PowerMonitor.Security.ConstantTime

open PowerMonitor.Lib.Binary PowerMonitor.Security.Crypto

theorem eq_of_xor_eq_zero {m n : ℕ} (h : m ^^^ n = 0) : m = n := by
  refine Nat.eq_of_testBit_eq fun i => ?_
  have hbit : (m ^^^ n).testBit i = false := by rw [h, Nat.zero_testBit]
  rw [Nat.testBit_xor] at hbit
  simpa using hbit

/-- The difference is zero if it was and nothing differs. -/
theorem foldl_or_eq_zero (f : ℕ → UInt8) (places : List ℕ) (d : UInt8) :
    places.foldl (fun d i => d ||| f i) d = 0 ↔ d = 0 ∧ ∀ i ∈ places, f i = 0 := by
  induction places generalizing d with
  | nil => simp
  | cons i places ih =>
    rw [List.foldl_cons, ih, UInt8.or_eq_zero_iff, List.forall_mem_cons, and_assoc]

theorem foldLength_eq_zero {fuel n : ℕ} (hn : n < 256 ^ fuel) : foldLength fuel n = 0 ↔ n = 0 := by
  induction fuel generalizing n with
  | zero =>
    have hzero : n = 0 := by omega
    simp [foldLength, hzero]
  | succ fuel ih =>
    have hquotient : n / 256 < 256 ^ fuel := by
      rw [pow_succ] at hn
      exact Nat.div_lt_of_lt_mul (by rwa [Nat.mul_comm] at hn)
    by_cases hzero : n = 0
    · simp [foldLength, hzero]
    · have hdigits : n = 256 * (n / 256) + n % 256 := (Nat.div_add_mod n 256).symm
      simp only [foldLength, hzero, if_false, iff_false]
      rw [UInt8.or_eq_zero_iff, ih hquotient]
      rintro ⟨hlow, hhigh⟩
      have hmod : n % 256 = 0 := by
        have hlow' : (UInt8.ofNat n).toNat = 0 := by rw [hlow]; rfl
        simpa using hlow'
      omega

/-- **The comparison is right.** -/
theorem constantTimeEqual_iff {left right : Bytes} (hleft : left.length < 2 ^ 64) (hright : right.length < 2 ^ 64) :
    constantTimeEqual left right = true ↔ left = right := by
  have hlengths : left.length ^^^ right.length < 256 ^ 8 := Nat.xor_lt_two_pow hleft hright
  unfold constantTimeEqual
  simp only [beq_iff_eq]
  rw [foldl_or_eq_zero (fun i => left.getD i 0 ^^^ right.getD i 0), foldLength_eq_zero hlengths]
  constructor
  · rintro ⟨hxor, hplaces⟩
    have hlength : left.length = right.length := eq_of_xor_eq_zero hxor
    refine List.ext_getElem hlength fun i hl hr => ?_
    have hplace : left.getD i 0 ^^^ right.getD i 0 = 0 := hplaces i (List.mem_range.mpr (by omega))
    rw [UInt8.xor_eq_zero_iff] at hplace
    simpa [List.getD_eq_getElem?_getD, hl, hr] using hplace
  · rintro rfl
    exact ⟨Nat.xor_self _, fun i _ => UInt8.xor_self⟩

end PowerMonitor.Security.ConstantTime
