import Mathlib.Data.List.TakeWhile
import PowerMonitor.Lib.Binary

/-! # Numbers in text

The number scanning of the C library on byte strings: white space, an optional sign and the longest
run of digits (`scanInteger`, as `strtoll`, `strtoull` and the `%llu` conversion read it; `scanHex`, as
the `%x` conversion does), and the texts of a number (`decimal`, `hexText`). A text followed by
something that is not a digit scans back to its number (`scanInteger_decimal`, `scanHex_hexText`). -/

namespace PowerMonitor.Lib.Scan

open PowerMonitor.Lib.Binary

/-- White space of the C locale. -/
def isSpace (b : UInt8) : Bool := b == 32 || (9 ≤ b && b ≤ 13)

/-- A decimal digit. -/
def isDigit (b : UInt8) : Bool := 48 ≤ b && b ≤ 57

/-- The value of a string of decimal digits. -/
def decimalValue (ds : Bytes) : ℕ := ds.foldl (fun n b => 10 * n + (b.toNat - 48)) 0

/-- An optional sign (`true` for minus) and what follows it. -/
def scanSign : Bytes → Bool × Bytes
  | 45 :: rest => (true, rest)
  | 43 :: rest => (false, rest)
  | input => (false, input)

/-- A signed decimal integer at the head of the text: its sign, its magnitude and the rest. -/
def scanInteger (input : Bytes) : Option (Bool × ℕ × Bytes) :=
  let signed := scanSign (input.dropWhile isSpace)
  let digits := signed.2.takeWhile isDigit
  if digits = [] then none
  else some (signed.1, decimalValue digits, signed.2.dropWhile isDigit)

/-- The decimal text of a number. -/
def decimal (n : ℕ) : Bytes := (Nat.toDigits 10 n).map fun c => c.toNat.toUInt8

theorem length_decimal {n : ℕ} (h : n < 2 ^ 64) : (decimal n).length ≤ 20 := by
  rw [decimal, List.length_map]
  exact (Nat.length_toDigits_le_iff (by omega) (by omega)).mpr (by omega)

theorem digit_toNat {c : Char} (h : c.isDigit) : 48 ≤ c.toNat ∧ c.toNat ≤ 57 := by
  simp only [Char.isDigit, Bool.and_eq_true, decide_eq_true_eq, ge_iff_le] at h
  exact ⟨by simpa using UInt32.le_iff_toNat_le.mp h.1, by simpa using UInt32.le_iff_toNat_le.mp h.2⟩

theorem digitByte_toNat {c : Char} (h : c.isDigit) : (c.toNat.toUInt8).toNat = c.toNat := by
  have := digit_toNat h
  simp only [Nat.toUInt8, UInt8.toNat_ofNat']
  omega

theorem isDigit_of_mem_decimal {n : ℕ} {b : UInt8} (h : b ∈ decimal n) : isDigit b = true := by
  obtain ⟨c, hc, rfl⟩ := List.mem_map.mp h
  have hd := Nat.isDigit_of_mem_toDigits (by omega) (by omega) hc
  have hb := digit_toNat hd
  have he := digitByte_toNat hd
  simp only [isDigit, Bool.and_eq_true, decide_eq_true_eq, UInt8.le_iff_toNat_le]
  exact ⟨by rw [he]; exact hb.1, by rw [he]; exact hb.2⟩

theorem decimal_ne_nil (n : ℕ) : decimal n ≠ [] := by
  simp only [decimal, ne_eq, List.map_eq_nil_iff]
  exact Nat.toDigits_ne_nil

theorem decimalValue_map {l : List Char} (h : ∀ c ∈ l, c.isDigit) (n : ℕ) :
    (l.map fun c => c.toNat.toUInt8).foldl (fun n b => 10 * n + (b.toNat - 48)) n =
      Nat.ofDigitChars 10 l n := by
  induction l generalizing n with
  | nil => simp
  | cons c l ih =>
    rw [List.map_cons, List.foldl_cons, digitByte_toNat (h c (by simp)),
      ih (fun d hd => h d (by simp [hd])), Nat.ofDigitChars_cons]
    rfl

@[simp] theorem decimalValue_decimal (n : ℕ) : decimalValue (decimal n) = n := by
  unfold decimalValue decimal
  rw [decimalValue_map fun c hc => Nat.isDigit_of_mem_toDigits (by omega) (by omega) hc]
  exact Nat.ofDigitChars_toDigits (by omega) (by omega)

/-- The text of a number, up to the first byte after it that is not a digit. -/
theorem span_decimal {n : ℕ} {rest : Bytes} (h : ∀ b ∈ rest.head?, isDigit b = false) :
    (decimal n ++ rest).takeWhile isDigit = decimal n ∧
      (decimal n ++ rest).dropWhile isDigit = rest := by
  have hd : ∀ b ∈ decimal n, isDigit b = true := fun b hb => isDigit_of_mem_decimal hb
  have hrest : rest.takeWhile isDigit = [] ∧ rest.dropWhile isDigit = rest := by
    cases rest with
    | nil => simp
    | cons b rest =>
      have hb : isDigit b = false := h b (by simp)
      simp [hb]
  rw [List.takeWhile_append_of_pos hd, List.dropWhile_append_of_pos hd, hrest.1, hrest.2]
  simp

/-- **A decimal text scans back**, when no digit follows it. -/
theorem scanInteger_decimal {n : ℕ} {rest : Bytes} (h : ∀ b ∈ rest.head?, isDigit b = false) :
    scanInteger (decimal n ++ rest) = some (false, n, rest) := by
  obtain ⟨d, ds, hds⟩ := List.exists_cons_of_ne_nil (decimal_ne_nil n)
  have hd : isDigit d = true := isDigit_of_mem_decimal (n := n) (by rw [hds]; simp)
  have hrange : 48 ≤ d.toNat ∧ d.toNat ≤ 57 := by
    simpa [isDigit, UInt8.le_iff_toNat_le] using hd
  have hspace : isSpace d = false := by
    have h1 : d ≠ 32 := by rintro rfl; simp at hrange
    have h2 : ¬ d ≤ 13 := by rw [UInt8.le_iff_toNat_le]; simp; omega
    simp [isSpace, h1, h2]
  have hskip : (decimal n ++ rest).dropWhile isSpace = decimal n ++ rest := by
    rw [hds]; simp [hspace]
  have hsign : scanSign (decimal n ++ rest) = (false, decimal n ++ rest) := by
    rw [hds, List.cons_append]
    unfold scanSign
    split
    · next heq => cases heq; simp at hrange
    · next heq => cases heq; simp at hrange
    · rfl
  obtain ⟨htake, hdrop⟩ := span_decimal (n := n) h
  unfold scanInteger
  rw [hskip, hsign]
  simp only [htake, hdrop, decimalValue_decimal]
  rw [if_neg (decimal_ne_nil n)]

/-- The value of a signed integer in 64 bits without sign: the largest one if it does not fit. -/
def unsigned64 (negative : Bool) (n : ℕ) : ℕ :=
  if 2 ^ 64 ≤ n then 2 ^ 64 - 1 else if negative then (2 ^ 64 - n) % 2 ^ 64 else n

/-- The `%llu` conversion, and `strtoull`. -/
def scanUnsigned (input : Bytes) : Option (ℕ × Bytes) :=
  (scanInteger input).map fun (negative, n, rest) => (unsigned64 negative n, rest)

theorem scanUnsigned_decimal {n : ℕ} (hn : n < 2 ^ 64) {rest : Bytes}
    (h : ∀ b ∈ rest.head?, isDigit b = false) : scanUnsigned (decimal n ++ rest) = some (n, rest) := by
  rw [scanUnsigned, scanInteger_decimal h]
  simp only [Option.map_some, unsigned64, Bool.false_eq_true, if_false]
  rw [if_neg (by omega)]

/-! ### Hexadecimal -/

/-- The value of a hexadecimal digit. -/
def hexValue? (b : UInt8) : Option ℕ :=
  if 48 ≤ b ∧ b ≤ 57 then some (b.toNat - 48)
  else if 97 ≤ b ∧ b ≤ 102 then some (b.toNat - 87)
  else if 65 ≤ b ∧ b ≤ 70 then some (b.toNat - 55)
  else none

/-- The value of a string of hexadecimal digits. -/
def hexadecimalValue (ds : Bytes) : ℕ := ds.foldl (fun n b => 16 * n + (hexValue? b).getD 0) 0

/-- The hexadecimal number in a field: a sign, a prefix and digits. A prefix without digits is the
digit zero of the prefix. -/
def scanHexField (field : Bytes) : Option (Bool × ℕ) :=
  let signed := scanSign field
  match signed.2 with
  | 48 :: 120 :: rest => some (signed.1, hexadecimalValue (rest.takeWhile fun b => (hexValue? b).isSome))
  | 48 :: 88 :: rest => some (signed.1, hexadecimalValue (rest.takeWhile fun b => (hexValue? b).isSome))
  | rest =>
    let digits := rest.takeWhile fun b => (hexValue? b).isSome
    if digits = [] then none else some (signed.1, hexadecimalValue digits)

/-- The `%x` conversion into 32 bits, of a field of at most `width` bytes. -/
def scanHex (width : ℕ) (input : Bytes) : Option UInt32 :=
  (scanHexField ((input.dropWhile isSpace).take width)).map fun (negative, n) =>
    if negative then 0 - UInt32.ofNat n else UInt32.ofNat n

def hexDigit (d : ℕ) : UInt8 := UInt8.ofNat (if d < 10 then 48 + d else 87 + d)

/-- The text of the `k` low hexadecimal digits of a number. -/
def hexText : ℕ → ℕ → Bytes
  | 0, _ => []
  | k + 1, n => hexText k (n / 16) ++ [hexDigit (n % 16)]

@[simp] theorem length_hexText (k n : ℕ) : (hexText k n).length = k := by
  induction k generalizing n with
  | zero => rfl
  | succ k ih => simp [hexText, ih]

theorem hexValue?_hexDigit : ∀ d < 16, hexValue? (hexDigit d) = some d := by decide

theorem isSpace_hexDigit : ∀ d < 16, isSpace (hexDigit d) = false := by decide

theorem mem_hexText {k n : ℕ} {b : UInt8} (h : b ∈ hexText k n) : ∃ d < 16, b = hexDigit d := by
  induction k generalizing n with
  | zero => cases h
  | succ k ih =>
    rcases List.mem_append.mp h with h | h
    · exact ih h
    · exact ⟨n % 16, by omega, List.mem_singleton.mp h⟩

theorem hexadecimalValue_hexText (k n : ℕ) : hexadecimalValue (hexText k n) = n % 16 ^ k := by
  induction k generalizing n with
  | zero => simp [hexText, hexadecimalValue, Nat.mod_one]
  | succ k ih =>
    have hlast : hexadecimalValue (hexText (k + 1) n) =
        16 * hexadecimalValue (hexText k (n / 16)) + n % 16 := by
      simp [hexText, hexadecimalValue, hexValue?_hexDigit (n % 16) (by omega)]
    rw [hlast, ih, Nat.pow_succ', Nat.mod_mul]
    omega

theorem hexDigit_printable : ∀ d < 16, 32 < hexDigit d := by decide

theorem notMem_hexText {k n : ℕ} {b : UInt8} (hb : ¬ 32 < b) : b ∉ hexText k n := fun h => by
  obtain ⟨d, hd, rfl⟩ := mem_hexText h
  exact hb (hexDigit_printable d hd)

theorem hexDigit_notMem_signs : ∀ d < 16, hexDigit d ≠ 45 ∧ hexDigit d ≠ 43 ∧ hexDigit d ≠ 120 ∧
    hexDigit d ≠ 88 := by decide

/-- **A hexadecimal text scans back.** -/
theorem scanHex_hexText {k : ℕ} (hk : k ≠ 0) (n : ℕ) (rest : Bytes) :
    scanHex k (hexText k n ++ rest) = some (UInt32.ofNat (n % 16 ^ k)) := by
  obtain ⟨b, bs, hb⟩ := List.exists_cons_of_ne_nil
    (fun h => hk (by rw [← length_hexText k n, h]; rfl) : hexText k n ≠ [])
  obtain ⟨d, hd, hbd⟩ := mem_hexText (k := k) (n := n) (b := b) (by rw [hb]; simp)
  have hsigns := hexDigit_notMem_signs d hd
  rw [← hbd] at hsigns
  have hskip : (hexText k n ++ rest).dropWhile isSpace = hexText k n ++ rest := by
    rw [hb, List.cons_append, List.dropWhile_cons_of_neg (by rw [hbd, isSpace_hexDigit d hd]; simp)]
  have hsign : scanSign (hexText k n) = (false, hexText k n) := by
    rw [hb]
    unfold scanSign
    split
    · next h => cases h; exact absurd rfl hsigns.1
    · next h => cases h; exact absurd rfl hsigns.2.1
    · rfl
  have hall : (hexText k n).takeWhile (fun b => (hexValue? b).isSome) = hexText k n := by
    have hd : ∀ c ∈ hexText k n, (hexValue? c).isSome = true := by
      intro c hc
      obtain ⟨e, he, rfl⟩ := mem_hexText hc
      rw [hexValue?_hexDigit e he]
      rfl
    exact List.takeWhile_eq_self_iff.mpr hd
  have hfield : scanHexField (hexText k n) = some (false, n % 16 ^ k) := by
    unfold scanHexField
    rw [hsign]
    simp only
    split
    · next h =>
      obtain ⟨e, he, h120⟩ := mem_hexText (k := k) (n := n) (b := 120) (by rw [h]; simp)
      exact absurd h120.symm (hexDigit_notMem_signs e he).2.2.1
    · next h =>
      obtain ⟨e, he, h88⟩ := mem_hexText (k := k) (n := n) (b := 88) (by rw [h]; simp)
      exact absurd h88.symm (hexDigit_notMem_signs e he).2.2.2
    · rw [hall, if_neg (by rw [hb]; simp), hexadecimalValue_hexText]
  unfold scanHex
  rw [hskip, List.take_left' (length_hexText k n), hfield]
  rfl

end PowerMonitor.Lib.Scan
