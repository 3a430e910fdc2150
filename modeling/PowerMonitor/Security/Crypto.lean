import Mathlib.Data.List.Lex
import Mathlib.Data.List.Sort
import Mathlib.Data.Prod.Lex
import PowerMonitor.Lib.Binary

/-! # Request signing

The string a signed request covers: the upper-cased method, the path with its percent-encoded and
sorted query, the timestamp, the nonce and the hash of the body. The digest and the keyed digest are
those of the TLS library and stay parameters (`Primitives`). -/

namespace PowerMonitor.Security.Crypto

open PowerMonitor.Lib.Binary

/-- A 32-byte digest or key. -/
abbrev Key32 := Vector UInt8 32

/-- The primitives of the TLS library: SHA-256 and HMAC-SHA-256. -/
structure Primitives where
  sha256 : Bytes → Key32
  hmacSha256 : Bytes → Bytes → Key32

/-- The SHA-256 of no bytes. -/
def emptyDigest : Key32 :=
  #v[0xe3, 0xb0, 0xc4, 0x42, 0x98, 0xfc, 0x1c, 0x14, 0x9a, 0xfb, 0xf4, 0xc8, 0x99, 0x6f, 0xb9, 0x24,
    0x27, 0xae, 0x41, 0xe4, 0x64, 0x9b, 0x93, 0x4c, 0xa4, 0x95, 0x99, 0x1b, 0x78, 0x52, 0xb8, 0x55]

/-- A digit of the alphabet `digits` (upper or lower case hexadecimal). -/
def hexDigit (digits : Bytes) (n : UInt8) : UInt8 := digits.getD n.toNat 0

/-- Lower-case hexadecimal. -/
def hexEncode (data : Bytes) : Bytes :=
  data.flatMap fun b : UInt8 =>
    [hexDigit (ascii "0123456789abcdef") (b >>> 4), hexDigit (ascii "0123456789abcdef") (b &&& 0x0F)]

def sha256Hex (c : Primitives) (data : Bytes) : Bytes := hexEncode (c.sha256 data).toList

def hmacSha256Hex (c : Primitives) (key data : Bytes) : Bytes := hexEncode (c.hmacSha256 key data).toList

/-- The bytes of a length, folded together. -/
def foldLength : ℕ → ℕ → UInt8
  | 0, _ => 0
  | fuel + 1, n => if n = 0 then 0 else UInt8.ofNat n ||| foldLength fuel (n / 256)

/-- Comparison without early exit: the differences of the lengths and of all bytes (absent bytes
count as zero) are accumulated. -/
def constantTimeEqual (left right : Bytes) : Bool :=
  let length := foldLength 8 (left.length ^^^ right.length)
  let difference := (List.range (max left.length right.length)).foldl
    (fun d i => d ||| (left.getD i 0 ^^^ right.getD i 0)) length
  difference == 0

def asciiUnreserved (c : UInt8) : Bool :=
  (97 ≤ c && c ≤ 122) || (65 ≤ c && c ≤ 90) || (48 ≤ c && c ≤ 57) ||
    c == 45 || c == 46 || c == 95 || c == 126

def percentEncode (input : Bytes) : Bytes :=
  input.flatMap fun c : UInt8 =>
    if asciiUnreserved c then [c]
    else [37, hexDigit (ascii "0123456789ABCDEF") (c >>> 4),
      hexDigit (ascii "0123456789ABCDEF") (c &&& 0x0F)]

/-- The order of `std::string`: by unsigned bytes, a proper start first. -/
def bytesLe : Bytes → Bytes → Bool
  | [], _ => true
  | _ :: _, [] => false
  | a :: l, b :: m => if a = b then bytesLe l m else decide (a < b)

/-- The order of pairs of strings. -/
def pairLe (p q : Bytes × Bytes) : Bool := if p.1 = q.1 then bytesLe p.2 q.2 else bytesLe p.1 q.1

/-- The bytes of a text as numbers; the texts are ordered as the lists of their numbers are. -/
def numbers (s : Bytes) : List ℕ := s.map UInt8.toNat

theorem numbers_injective {s t : Bytes} (h : numbers s = numbers t) : s = t :=
  List.map_injective_iff.mpr (fun _ _ hb => UInt8.toNat_inj.mp hb) h

/-- The order of strings is the lexicographic one. -/
theorem bytesLe_iff (l m : Bytes) : bytesLe l m = true ↔ numbers l ≤ numbers m := by
  induction l generalizing m with
  | nil =>
    cases m with
    | nil => simp [bytesLe, numbers]
    | cons b m => simpa [bytesLe, numbers] using le_of_lt (List.nil_lt_cons b.toNat (m.map UInt8.toNat))
  | cons a l ih =>
    cases m with
    | nil => simp [bytesLe, numbers]
    | cons b m =>
      have hcons : numbers (a :: l) ≤ numbers (b :: m) ↔ a.toNat < b.toNat ∨ a.toNat = b.toNat ∧ numbers l ≤ numbers m := by
        rw [le_iff_lt_or_eq, le_iff_lt_or_eq (a := numbers l)]
        unfold numbers
        rw [List.map_cons, List.map_cons, List.cons_lt_cons_iff, List.cons.injEq]
        tauto
      rw [hcons, ← ih, UInt8.toNat_inj, ← UInt8.lt_iff_toNat_lt, bytesLe]
      by_cases hab : a = b
      · simp [hab]
      · simp [hab]

theorem pairLe_iff (p q : Bytes × Bytes) :
    pairLe p q = true ↔ toLex (numbers p.1, numbers p.2) ≤ toLex (numbers q.1, numbers q.2) := by
  rw [Prod.Lex.toLex_le_toLex, pairLe]
  by_cases hfst : p.1 = q.1
  · simp [hfst, bytesLe_iff]
  · have hne : numbers p.1 ≠ numbers q.1 := fun h => hfst (numbers_injective h)
    simp [hfst, bytesLe_iff, le_iff_lt_or_eq, hne]

def canonicalPathQuery (path : Bytes) (query : List (Bytes × Bytes)) : Bytes :=
  let encoded := (query.map fun item => (percentEncode item.1, percentEncode item.2)).insertionSort
    fun p q => pairLe p q = true
  if encoded = [] then path
  else path ++ ascii "?" ++
    (List.intersperse (ascii "&") (encoded.map fun p => p.1 ++ ascii "=" ++ p.2)).flatten

def upperByte (c : UInt8) : UInt8 := if 97 ≤ c && c ≤ 122 then c - 32 else c

def canonicalRequest (method pathQuery timestamp nonce bodyHash : Bytes) : Bytes :=
  ascii "PM-HMAC-SHA256-V1\n" ++ method.map upperByte ++ ascii "\n" ++ pathQuery ++ ascii "\n" ++
    timestamp ++ ascii "\n" ++ nonce ++ ascii "\n" ++ bodyHash

end PowerMonitor.Security.Crypto
