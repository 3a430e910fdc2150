import PowerMonitor.Lib.JsonGrammar
import PowerMonitor.Lib.Scan
import PowerMonitor.Lib.Utf8

/-! # The strings of JSON and what they mean

Between the quotes of a string stand characters in UTF-8 and escapes; each stands for one character (`Denotes`), two
escapes of a surrogate pair for one together. What denotes a text is well-formed UTF-8 (`Denotes.wellFormed`) and fits
the grammar (`Denotes.characters`). -/

namespace PowerMonitor.Lib.JsonString

open PowerMonitor.Lib.Binary PowerMonitor.Lib.JsonGrammar PowerMonitor.Lib.Scan PowerMonitor.Lib.Utf8

/-- What a short escape stands for. -/
def shortMeaning : List (UInt8 × Char) :=
  [(34, '"'), (92, '\\'), (47, '/'), (98, Char.ofNat 8), (102, Char.ofNat 12), (110, '\n'), (114, '\r'), (116, '\t')]

/-- Four hexadecimal digits and their value. -/
structure HexFour (hex : Bytes) (value : ℕ) : Prop where
  length : hex.length = 4
  digits : ∀ b ∈ hex, isHex b = true
  value : hexadecimalValue hex = value

/-- **The meaning of what stands between the quotes.** -/
inductive Denotes : Bytes → List Char → Prop
  | nil : Denotes [] []
  | plain (c : Char) {s : Bytes} {v : List Char} (visible : 0x20 ≤ c.val.toNat) (quote : c ≠ '"') (backslash : c ≠ '\\')
      (rest : Denotes s v) : Denotes (encode c ++ s) (c :: v)
  | short {e : UInt8} {c : Char} {s : Bytes} {v : List Char} (escape : (e, c) ∈ shortMeaning) (rest : Denotes s v) :
      Denotes (92 :: e :: s) (c :: v)
  | unicode {hex : Bytes} {c : Char} {s : Bytes} {v : List Char} (value : HexFour hex c.val.toNat) (rest : Denotes s v) :
      Denotes (92 :: 117 :: (hex ++ s)) (c :: v)
  | surrogates {hex hex' : Bytes} {high low : ℕ} {c : Char} {s : Bytes} {v : List Char} (first : HexFour hex high)
      (second : HexFour hex' low) (highRange : 0xD800 ≤ high ∧ high < 0xDC00) (lowRange : 0xDC00 ≤ low ∧ low < 0xE000)
      (value : c.val.toNat = 0x10000 + (high - 0xD800) * 0x400 + (low - 0xDC00)) (rest : Denotes s v) :
      Denotes (92 :: 117 :: (hex ++ 92 :: 117 :: (hex' ++ s))) (c :: v)

variable {s t : Bytes} {v : List Char}

/-! ### The grammar -/

/-- The bytes of a character above the controls, other than the quote and the backslash. -/
theorem encode_plain {c : Char} (hvisible : 0x20 ≤ c.val.toNat) (hquote : c ≠ '"') (hbackslash : c ≠ '\\') {b : UInt8}
    (hb : b ∈ encode c) : 32 ≤ b ∧ b ≠ 34 ∧ b ≠ 92 := by
  have hne {n : ℕ} (h : b.toNat ≠ n) (hn : n < 256) : b ≠ UInt8.ofNat n := by
    rintro rfl
    exact h (UInt8.toNat_ofNat_of_lt' hn)
  by_cases hascii : c.val.toNat < 0x80
  · have hvalue {d : Char} (hd : c ≠ d) : c.val.toNat ≠ d.val.toNat := fun h => hd (Char.ext (UInt32.toNat_inj.mp h))
    rw [encode_one hascii, List.mem_singleton] at hb
    have hb' : b.toNat = c.val.toNat := by
      rw [hb]
      exact UInt8.toNat_ofNat_of_lt' (hascii.trans (by decide))
    refine ⟨UInt8.le_iff_toNat_le.mpr (by rw [hb']; exact hvisible), ?_, ?_⟩
    · exact hne (by rw [hb']; exact hvalue hquote) (by decide)
    · exact hne (by rw [hb']; exact hvalue hbackslash) (by decide)
  · have hhigh := le_of_mem_encode (by omega) hb
    exact ⟨UInt8.le_iff_toNat_le.mpr (le_trans (by decide) hhigh), hne (n := 34) (by omega) (by decide),
      hne (n := 92) (by omega) (by decide)⟩

theorem characters_plain (h : ∀ b ∈ s, 32 ≤ b ∧ b ≠ 34 ∧ b ≠ 92) (ht : Characters t) : Characters (s ++ t) := by
  induction s with
  | nil => exact ht
  | cons b s ih =>
    obtain ⟨hvisible, hquote, hbackslash⟩ := h b (by simp)
    exact .plain hvisible hquote hbackslash (ih fun b' hb' => h b' (by simp [hb']))

theorem shortMeaning_escapes : ∀ p ∈ shortMeaning, p.1 ∈ shortEscapes := by decide

/-- **What denotes a text fits the grammar.** -/
theorem Denotes.characters (h : Denotes s v) : Characters s := by
  induction h with
  | nil => exact .nil
  | plain c visible quote backslash _ ih => exact characters_plain (fun b => encode_plain visible quote backslash) ih
  | short escape _ ih => exact .short (shortMeaning_escapes _ escape) ih
  | unicode value _ ih => exact .unicode value.length value.digits ih
  | surrogates first second _ _ _ _ ih =>
    exact .unicode first.length first.digits (.unicode second.length second.digits ih)

/-! ### UTF-8 -/

theorem encode_ascii {b : UInt8} (h : b < 0x80) : ∃ c, encode c = [b] := by
  have hb : b.toNat < 0x80 := UInt8.lt_iff_toNat_lt.mp h
  obtain ⟨c, hc⟩ := exists_char (n := b.toNat) (by omega) (by omega)
  exact ⟨c, by rw [encode_one (by omega), hc, UInt8.ofNat_toNat]⟩

/-- ASCII before a well-formed text. -/
theorem wellFormed_ascii (h : ∀ b ∈ s, b < 0x80) (ht : ∃ cs, t = encodeAll cs) : ∃ cs, s ++ t = encodeAll cs := by
  induction s with
  | nil => exact ht
  | cons b s ih =>
    obtain ⟨cs, hcs⟩ := ih fun b' hb' => h b' (by simp [hb'])
    obtain ⟨c, hc⟩ := encode_ascii (h b (by simp))
    exact ⟨c :: cs, by rw [encodeAll, List.flatMap_cons, hc, ← encodeAll, ← hcs]; rfl⟩

theorem isHex_ascii (b : UInt8) : isHex b = true → b < 0x80 :=
  bytes_forall (p := fun b => isHex b = true → b < 0x80) (by decide +kernel) b

theorem shortMeaning_ascii : ∀ p ∈ shortMeaning, p.1 < 0x80 := by decide

/-- An escape before a well-formed text. -/
theorem HexFour.wellFormed {hex : Bytes} {value : ℕ} (h : HexFour hex value) (ht : ∃ cs, t = encodeAll cs) :
    ∃ cs, 92 :: 117 :: (hex ++ t) = encodeAll cs := by
  refine wellFormed_ascii (s := [92, 117]) (by decide +kernel) ?_
  exact wellFormed_ascii (fun b hb => isHex_ascii b (h.digits b hb)) ht

/-- **What denotes a text is well-formed UTF-8.** -/
theorem Denotes.wellFormed (h : Denotes s v) : ∃ cs, s = encodeAll cs := by
  induction h with
  | nil => exact ⟨[], rfl⟩
  | plain c _ _ _ _ ih =>
    obtain ⟨cs, rfl⟩ := ih
    exact ⟨c :: cs, rfl⟩
  | @short e _ _ _ escape _ ih =>
    refine wellFormed_ascii (s := [92, e]) (fun b hb => ?_) ih
    rcases List.mem_pair.mp hb with rfl | rfl
    · decide
    · exact shortMeaning_ascii _ escape
  | unicode value _ ih => exact value.wellFormed ih
  | surrogates first second _ _ _ _ ih => exact first.wellFormed (second.wellFormed ih)

end PowerMonitor.Lib.JsonString
