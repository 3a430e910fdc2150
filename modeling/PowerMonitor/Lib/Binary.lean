import Mathlib.Algebra.GroupWithZero.Nat
import Mathlib.Logic.Function.Iterate
import Mathlib.Tactic.SplitIfs
import Mathlib.Tactic.Common

/-! # Byte strings

Byte strings, the bytes of an ASCII text, little-endian numbers and the CRC-32 of a byte string. -/

namespace PowerMonitor.Lib.Binary

/-- A byte string. -/
abbrev Bytes := List UInt8

instance lawfulBytes : LawfulBEq Bytes := inferInstance

/-- The bytes of a text of ASCII characters. -/
def ascii (s : String) : Bytes := s.toList.map fun c => c.toNat.toUInt8

/-- What holds of the 256 bytes holds of every byte. -/
theorem bytes_forall {p : UInt8 → Prop} (h : ∀ n < 256, p (UInt8.ofNat n)) (b : UInt8) : p b := by
  have hb := h b.toNat b.toNat_lt
  rwa [UInt8.ofNat_toNat] at hb

/-! ### Little-endian numbers -/

/-- The `k` low bytes of `n`, least significant first. -/
def leBytes : ℕ → ℕ → Bytes
  | 0, _ => []
  | k + 1, n => UInt8.ofNat n :: leBytes k (n / 256)

/-- The number whose bytes are `l`, least significant first. -/
def leNat : Bytes → ℕ
  | [] => 0
  | b :: l => b.toNat + 256 * leNat l

@[simp] theorem length_leBytes (k n : ℕ) : (leBytes k n).length = k := by
  induction k generalizing n with
  | zero => rfl
  | succ k ih => simp [leBytes, ih]

theorem leNat_leBytes (k n : ℕ) : leNat (leBytes k n) = n % 256 ^ k := by
  induction k generalizing n with
  | zero => simp [leBytes, leNat, Nat.mod_one]
  | succ k ih =>
    have hb : (UInt8.ofNat n).toNat = n % 256 := by simp
    rw [leBytes, leNat, ih, hb, Nat.pow_succ', Nat.mod_mul]

theorem leNat_leBytes_of_lt {k n : ℕ} (h : n < 256 ^ k) : leNat (leBytes k n) = n := by
  rw [leNat_leBytes, Nat.mod_eq_of_lt h]

theorem leNat_lt (l : Bytes) : leNat l < 256 ^ l.length := by
  induction l with
  | nil => simp [leNat]
  | cons b l ih =>
    have hb := b.toNat_lt
    rw [leNat, List.length_cons, Nat.pow_succ]
    omega

/-- The number in the `k` bytes of `input` at `offset`, if they are there. -/
def readLe (k : ℕ) (input : Bytes) (offset : ℕ) : Option ℕ :=
  if offset + k > input.length then none else some (leNat ((input.drop offset).take k))

theorem readLe_lt {k : ℕ} {input : Bytes} {offset n : ℕ} (h : readLe k input offset = some n) :
    n < 256 ^ k := by
  unfold readLe at h
  split_ifs at h with hlen
  obtain rfl := Option.some.inj h
  refine lt_of_lt_of_eq (leNat_lt _) ?_
  rw [List.length_take, List.length_drop]
  congr 1
  omega

/-- A number written after `pre` reads back. -/
theorem readLe_append (pre post : Bytes) {k n offset : ℕ} (ho : offset = pre.length)
    (h : n < 256 ^ k) : readLe k (pre ++ (leBytes k n ++ post)) offset = some n := by
  subst ho
  unfold readLe
  rw [if_neg (by simp), List.drop_left, List.take_left' (length_leBytes k n),
    leNat_leBytes_of_lt h]

/-! ### CRC-32 -/

/-- One bit of the reflected CRC-32 with polynomial `0xEDB88320`. -/
def crcBit (crc : UInt32) : UInt32 := (crc >>> 1) ^^^ (0xEDB88320 &&& (0 - (crc &&& 1)))

/-- One byte. -/
def crcByte (crc : UInt32) (b : UInt8) : UInt32 := (crcBit^[8]) (crc ^^^ b.toUInt32)

/-- The CRC-32 of a byte string. -/
def crc32 (data : Bytes) : UInt32 := ~~~(data.foldl crcByte 0xFFFFFFFF)

/-- The check value of the CRC-32 catalogue. -/
example : crc32 (ascii "123456789") = 0xCBF43926 := by decide +kernel

end PowerMonitor.Lib.Binary
