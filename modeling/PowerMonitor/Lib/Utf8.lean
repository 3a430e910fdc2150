import PowerMonitor.Lib.Binary

/-! # UTF-8

The well-formed sequences are the encodings of characters, that is of Unicode scalar values: no sequence is longer than
its character needs, none is that of a surrogate, and none is above U+10FFFF. A text that is not well formed is repaired
byte by byte (`Repairs`): a byte at which no character starts becomes U+FFFD. -/

namespace PowerMonitor.Lib.Utf8

open PowerMonitor.Lib.Binary

/-- The bytes of a character. -/
abbrev encode (c : Char) : Bytes := String.utf8EncodeChar c

/-- The bytes of a text. -/
def encodeAll (cs : List Char) : Bytes := cs.flatMap encode

/-- A text whose bytes start with a character. -/
def StartsCharacter (s : Bytes) : Prop := ∃ c t, s = encode c ++ t

/-- U+FFFD, which stands for a byte that belongs to no character. -/
def replacement : Char := Char.ofNat 0xFFFD

/-- The text, with U+FFFD for every byte at which no character starts. -/
inductive Repairs : Bytes → List Char → Prop
  | nil : Repairs [] []
  | character (c : Char) {s : Bytes} {cs : List Char} (rest : Repairs s cs) : Repairs (encode c ++ s) (c :: cs)
  | invalid {b : UInt8} {s : Bytes} {cs : List Char} (start : ¬ StartsCharacter (b :: s)) (rest : Repairs s cs) :
      Repairs (b :: s) (replacement :: cs)

/-! ### The bytes of a character -/

theorem Char.toNat_lt (c : Char) : c.val.toNat < 0x110000 ∧ ¬ (0xD800 ≤ c.val.toNat ∧ c.val.toNat ≤ 0xDFFF) := by
  have h := c.valid
  simp only [UInt32.isValidChar, Nat.isValidChar] at h
  omega

/-- The character of a number. -/
theorem exists_char {n : ℕ} (h : n < 0x110000) (hsurrogate : ¬ (0xD800 ≤ n ∧ n ≤ 0xDFFF)) :
    ∃ c : Char, c.val.toNat = n := by
  have hvalid : n.isValidChar := by
    unfold Nat.isValidChar
    omega
  exact ⟨Char.ofNatAux n hvalid, rfl⟩

theorem encode_ne_nil (c : Char) : encode c ≠ [] := String.utf8EncodeChar_ne_nil

theorem encode_one {c : Char} (h : c.val.toNat < 0x80) : encode c = [UInt8.ofNat c.val.toNat] := by
  simp only [encode, String.utf8EncodeChar]
  rw [if_pos (by omega)]

theorem encode_two {c : Char} (h : 0x80 ≤ c.val.toNat) (h' : c.val.toNat < 0x800) :
    encode c = [UInt8.ofNat (c.val.toNat / 64 + 0xC0), UInt8.ofNat (c.val.toNat % 64 + 0x80)] := by
  simp only [encode, String.utf8EncodeChar]
  rw [if_neg (by omega), if_pos (by omega), Nat.mod_eq_of_lt (by omega : c.val.toNat / 64 < 32)]

theorem encode_three {c : Char} (h : 0x800 ≤ c.val.toNat) (h' : c.val.toNat < 0x10000) :
    encode c = [UInt8.ofNat (c.val.toNat / 4096 + 0xE0), UInt8.ofNat (c.val.toNat / 64 % 64 + 0x80),
      UInt8.ofNat (c.val.toNat % 64 + 0x80)] := by
  simp only [encode, String.utf8EncodeChar]
  rw [if_neg (by omega), if_neg (by omega), if_pos (by omega),
    Nat.mod_eq_of_lt (by omega : c.val.toNat / 4096 < 16)]

theorem encode_four {c : Char} (h : 0x10000 ≤ c.val.toNat) :
    encode c = [UInt8.ofNat (c.val.toNat / 262144 + 0xF0), UInt8.ofNat (c.val.toNat / 4096 % 64 + 0x80),
      UInt8.ofNat (c.val.toNat / 64 % 64 + 0x80), UInt8.ofNat (c.val.toNat % 64 + 0x80)] := by
  have hlt := (Char.toNat_lt c).1
  simp only [encode, String.utf8EncodeChar]
  rw [if_neg (by omega), if_neg (by omega), if_neg (by omega),
    Nat.mod_eq_of_lt (by omega : c.val.toNat / 262144 < 8)]

/-- The four lengths of a character. -/
theorem encode_cases (c : Char) :
    c.val.toNat < 0x80 ∨ (0x80 ≤ c.val.toNat ∧ c.val.toNat < 0x800) ∨
      (0x800 ≤ c.val.toNat ∧ c.val.toNat < 0x10000) ∨ 0x10000 ≤ c.val.toNat := by
  omega

/-- Above ASCII all bytes of a character are. -/
theorem le_of_mem_encode {c : Char} (h : 0x80 ≤ c.val.toNat) {b : UInt8} (hb : b ∈ encode c) : 0x80 ≤ b.toNat := by
  have hlt := (Char.toNat_lt c).1
  rcases encode_cases c with hc | ⟨h1, h2⟩ | ⟨h1, h2⟩ | h1
  · omega
  · rw [encode_two h1 h2] at hb
    simp only [List.mem_cons, List.not_mem_nil, or_false] at hb
    rcases hb with rfl | rfl <;> rw [UInt8.toNat_ofNat'] <;> omega
  · rw [encode_three h1 h2] at hb
    simp only [List.mem_cons, List.not_mem_nil, or_false] at hb
    rcases hb with rfl | rfl | rfl <;> rw [UInt8.toNat_ofNat'] <;> omega
  · rw [encode_four h1] at hb
    simp only [List.mem_cons, List.not_mem_nil, or_false] at hb
    rcases hb with rfl | rfl | rfl | rfl <;> rw [UInt8.toNat_ofNat'] <;> omega

/-- **No character starts with another.** -/
theorem encode_inj {c d : Char} {s t : Bytes} (h : encode c ++ s = encode d ++ t) : c = d ∧ s = t := by
  have hdecode : c = d := by
    have hc := ByteArray.utf8DecodeChar?_utf8EncodeChar_append (b := s.toByteArray) (c := c)
    have hd := ByteArray.utf8DecodeChar?_utf8EncodeChar_append (b := t.toByteArray) (c := d)
    rw [← List.toByteArray_append] at hc hd
    rw [h, hd] at hc
    exact (Option.some.inj hc).symm
  subst hdecode
  exact ⟨rfl, List.append_cancel_left h⟩

/-! ### Repairs -/

/-- **A text has one repair.** -/
theorem Repairs.unique {s : Bytes} {cs ds : List Char} (h : Repairs s cs) (h' : Repairs s ds) : cs = ds := by
  induction h generalizing ds with
  | nil =>
    generalize hs : ([] : Bytes) = s at h'
    cases h' with
    | nil => rfl
    | character d rest => exact absurd (List.append_eq_nil_iff.mp hs.symm).1 (encode_ne_nil d)
    | invalid _ _ => cases hs
  | @character c s cs rest ih =>
    generalize hall : encode c ++ s = all at h'
    cases h' with
    | nil => exact absurd (List.append_eq_nil_iff.mp hall).1 (encode_ne_nil c)
    | character d rest' =>
      obtain ⟨rfl, rfl⟩ := encode_inj hall
      rw [ih rest']
    | invalid start _ => exact absurd ⟨c, s, hall.symm⟩ start
  | @invalid b s cs start rest ih =>
    generalize hall : b :: s = all at h'
    cases h' with
    | nil => cases hall
    | character d rest' => exact absurd ⟨d, _, hall⟩ start
    | invalid _ rest' =>
      obtain ⟨rfl, rfl⟩ := List.cons.inj hall
      rw [ih rest']

/-- A well-formed text is its own repair. -/
theorem repairs_encodeAll (cs : List Char) : Repairs (encodeAll cs) cs := by
  induction cs with
  | nil => exact .nil
  | cons c cs ih =>
    rw [encodeAll, List.flatMap_cons]
    exact .character c ih

end PowerMonitor.Lib.Utf8
