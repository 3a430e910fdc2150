import PowerMonitor.Lib.Decimal

/-! # The grammar of JSON

The texts of RFC 8259, as bytes: a value, the elements of an array, the members of an object with their names. White
space stands around every value and every separator. The names are the texts between the quotes, escapes and all; that
the bytes above ASCII are well-formed UTF-8 is not asked. -/

namespace PowerMonitor.Lib.JsonGrammar

open PowerMonitor.Lib.Binary PowerMonitor.Lib.Decimal

/-- Blank, tab, newline and carriage return. -/
def White (s : Bytes) : Prop := ∀ b ∈ s, b = 32 ∨ b = 9 ∨ b = 10 ∨ b = 13

def isHex (b : UInt8) : Bool := (48 ≤ b && b ≤ 57) || (65 ≤ b && b ≤ 70) || (97 ≤ b && b ≤ 102)

/-- What follows the backslash of a short escape: a quote, a backslash, a slash, or one of the letters bfnrt. -/
def shortEscapes : Bytes := [34, 92, 47, 98, 102, 110, 114, 116]

/-- What may stand between the quotes of a string. -/
inductive Characters : Bytes → Prop
  | nil : Characters []
  | plain {b : UInt8} {s : Bytes} (visible : 32 ≤ b) (quote : b ≠ 34) (backslash : b ≠ 92) (rest : Characters s) :
      Characters (b :: s)
  | short {c : UInt8} {s : Bytes} (escape : c ∈ shortEscapes) (rest : Characters s) : Characters (92 :: c :: s)
  | unicode {hex : Bytes} {s : Bytes} (length : hex.length = 4) (digits : ∀ b ∈ hex, isHex b = true)
      (rest : Characters s) : Characters (92 :: 117 :: (hex ++ s))

/-- An optional minus sign, a numeral, an optional fraction and an optional exponent. -/
structure Number (s : Bytes) : Prop where
  parts : ∃ sign integer fraction exponent, s = sign ++ integer ++ fraction ++ exponent ∧ (sign = [] ∨ sign = [45]) ∧
    Numeral integer ∧ (fraction = [] ∨ ∃ digits, digits ≠ [] ∧ Digits digits ∧ fraction = 46 :: digits) ∧
    (exponent = [] ∨ ∃ e plus digits, (e = 69 ∨ e = 101) ∧ (plus = [] ∨ plus = [43] ∨ plus = [45]) ∧ digits ≠ [] ∧
      Digits digits ∧ exponent = e :: (plus ++ digits))

/-- The texts of a derivation. -/
inductive Part
  | value
  | elements
  | members (names : List Bytes)

inductive Derives : Part → Bytes → Prop
  | literal {s : Bytes} (h : s = ascii "true" ∨ s = ascii "false" ∨ s = ascii "null") : Derives .value s
  | number {s : Bytes} (h : Number s) : Derives .value s
  | string {s : Bytes} (h : Characters s) : Derives .value (34 :: (s ++ [34]))
  | emptyArray {w : Bytes} (h : White w) : Derives .value (91 :: (w ++ [93]))
  | array {s : Bytes} (h : Derives .elements s) : Derives .value (91 :: (s ++ [93]))
  | emptyObject {w : Bytes} (h : White w) : Derives .value (123 :: (w ++ [125]))
  | object {names : List Bytes} {s : Bytes} (h : Derives (.members names) s) : Derives .value (123 :: (s ++ [125]))
  | lastElement {w v w' : Bytes} (hw : White w) (hv : Derives .value v) (hw' : White w') :
      Derives .elements (w ++ (v ++ w'))
  | element {w v w' s : Bytes} (hw : White w) (hv : Derives .value v) (hw' : White w') (hs : Derives .elements s) :
      Derives .elements (w ++ (v ++ (w' ++ 44 :: s)))
  | lastMember {w name w₁ w₂ v w' : Bytes} (hw : White w) (hname : Characters name) (hw₁ : White w₁) (hw₂ : White w₂)
      (hv : Derives .value v) (hw' : White w') :
      Derives (.members [name]) (w ++ 34 :: (name ++ 34 :: (w₁ ++ 58 :: (w₂ ++ (v ++ w')))))
  | member {w name w₁ w₂ v w' s : Bytes} {names : List Bytes} (hw : White w) (hname : Characters name)
      (hw₁ : White w₁) (hw₂ : White w₂) (hv : Derives .value v) (hw' : White w') (hs : Derives (.members names) s) :
      Derives (.members (name :: names)) (w ++ 34 :: (name ++ 34 :: (w₁ ++ 58 :: (w₂ ++ (v ++ (w' ++ 44 :: s))))))

/-- A text that is an object, with the names of its members in their order. -/
inductive Object : List Bytes → Bytes → Prop
  | empty {w s w' : Bytes} (hw : White w) (hs : White s) (hw' : White w') : Object [] (w ++ 123 :: (s ++ 125 :: w'))
  | members {names : List Bytes} {w s w' : Bytes} (hw : White w) (hs : Derives (.members names) s) (hw' : White w') :
      Object names (w ++ 123 :: (s ++ 125 :: w'))

/-- The bytes that open and close: braces, brackets and the quote. -/
def structural : Bytes := [123, 91, 125, 93, 34]

theorem White.plain {s : Bytes} (h : White s) : ∀ b ∈ s, b ∉ structural := fun b hb => by
  rcases h b hb with rfl | rfl | rfl | rfl <;> decide

theorem digits_plain {s : Bytes} (h : Digits s) : ∀ b ∈ s, b ∉ structural := fun b hb hmem => by
  have hdigit := digit_le (h b hb)
  simp only [structural, List.mem_cons, List.not_mem_nil, or_false] at hmem
  rcases hmem with rfl | rfl | rfl | rfl | rfl <;> revert hdigit <;> decide

/-- A number has no such bytes. -/
theorem Number.plain {s : Bytes} (h : Number s) : ∀ b ∈ s, b ∉ structural := by
  obtain ⟨sign, integer, fraction, exponent, rfl, hsign, hinteger, hfraction, hexponent⟩ := h.parts
  intro b hb
  simp only [List.mem_append] at hb
  rcases hb with ((hb | hb) | hb) | hb
  · rcases hsign with rfl | rfl
    · cases hb
    · rw [List.mem_singleton.mp hb]; decide
  · exact digits_plain hinteger.digits b hb
  · rcases hfraction with rfl | ⟨digits, -, hdigits, rfl⟩
    · cases hb
    · rcases List.mem_cons.mp hb with rfl | hb
      · decide
      · exact digits_plain hdigits b hb
  · rcases hexponent with rfl | ⟨e, plus, digits, he, hplus, -, hdigits, rfl⟩
    · cases hb
    · rcases List.mem_cons.mp hb with rfl | hb
      · rcases he with rfl | rfl <;> decide
      · rcases List.mem_append.mp hb with hb | hb
        · rcases hplus with rfl | rfl | rfl
          · cases hb
          · rw [List.mem_singleton.mp hb]; decide
          · rw [List.mem_singleton.mp hb]; decide
        · exact digits_plain hdigits b hb

theorem literal_plain {s : Bytes} (h : s = ascii "true" ∨ s = ascii "false" ∨ s = ascii "null") :
    ∀ b ∈ s, b ∉ structural := by
  rcases h with rfl | rfl | rfl <;> decide +kernel

end PowerMonitor.Lib.JsonGrammar
