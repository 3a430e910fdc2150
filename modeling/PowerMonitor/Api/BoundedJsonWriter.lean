import Mathlib.Data.List.Induction
import PowerMonitor.Lib.JsonString

/-! # The writer of JSON into a buffer

Texts are appended to a buffer of fixed size. The first one that does not fit sets a flag, and from then on nothing is
appended. A string is escaped byte by byte, and what is not UTF-8 is replaced.

* `utf8SequenceLength_iff`: the sequences that are copied are the characters.
* `string_denotes`: a string that was written means the text, with U+FFFD for every byte at which no character starts.
* `writer_text`: this, and that over any calls what was written stays in front of a terminator within the buffer. -/

namespace PowerMonitor.Api.BoundedJsonWriter

open PowerMonitor.Lib.Binary PowerMonitor.Lib.JsonGrammar PowerMonitor.Lib.JsonString PowerMonitor.Lib.Scan
open PowerMonitor.Lib.Utf8

/-! ### Sequences of UTF-8 -/

/-- The code point after some continuation bytes. -/
def continued : ℕ → Bytes → UInt32 → Option UInt32
  | 0, _, codepoint => some codepoint
  | _ + 1, [], _ => none
  | n + 1, continuation :: rest, codepoint =>
    if continuation &&& 0xC0 ≠ 0x80 then none
    else continued n rest ((codepoint <<< 6) ||| (continuation &&& 0x3F).toUInt32)

/-- Sequences that are longer than they need be, surrogates, and what is no code point. -/
def outOfRange (length : ℕ) (codepoint : UInt32) : Bool :=
  (length = 3 && codepoint < 0x800) || (length = 4 && codepoint < 0x10000) || 0x10FFFF < codepoint ||
    (0xD800 ≤ codepoint && codepoint ≤ 0xDFFF)

/-- The length that the first byte announces, and its part of the code point. -/
def announced (lead : UInt8) : Option (ℕ × UInt8) :=
  if 0xC2 ≤ lead ∧ lead ≤ 0xDF then some (2, lead &&& 0x1F)
  else if 0xE0 ≤ lead ∧ lead ≤ 0xEF then some (3, lead &&& 0x0F)
  else if 0xF0 ≤ lead ∧ lead ≤ 0xF4 then some (4, lead &&& 0x07)
  else none

/-- The length of the sequence at which a text starts, `0` if it starts with none. -/
def utf8SequenceLength (lead : UInt8) (rest : Bytes) : ℕ :=
  if lead < 0x80 then 1
  else
    match announced lead with
    | none => 0
    | some (length, bits) =>
      if rest.length + 1 < length then 0
      else
        match continued (length - 1) rest bits.toUInt32 with
        | none => 0
        | some codepoint => if outOfRange length codepoint then 0 else length

/-- The code point of some bits and the continuation bytes behind them. -/
def codepointOf (bits : ℕ) (continuations : Bytes) : ℕ := continuations.foldl (fun n b => n * 64 + b.toNat % 64) bits

theorem continuation_iff (b : UInt8) : b &&& 0xC0 = 0x80 ↔ 0x80 ≤ b.toNat ∧ b.toNat < 0xC0 :=
  bytes_forall (p := fun b => b &&& 0xC0 = 0x80 ↔ 0x80 ≤ b.toNat ∧ b.toNat < 0xC0) (by decide +kernel) b

theorem low_bits (b : UInt8) : (b &&& 0x3F).toNat = b.toNat % 64 := Nat.and_two_pow_sub_one_eq_mod _ 6

theorem shift_or {codepoint : UInt32} (b : UInt8) (h : codepoint.toNat < 2 ^ 20) :
    ((codepoint <<< 6) ||| (b &&& 0x3F).toUInt32).toNat = codepoint.toNat * 64 + b.toNat % 64 := by
  rw [UInt32.toNat_or, UInt32.toNat_shiftLeft, UInt8.toNat_toUInt32, low_bits]
  have hup : codepoint.toNat <<< ((6 : UInt32).toNat % 32) % 2 ^ 32 = codepoint.toNat <<< 6 := by
    rw [show (6 : UInt32).toNat % 32 = 6 from rfl, Nat.mod_eq_of_lt]
    rw [Nat.shiftLeft_eq]
    omega
  rw [hup, ← Nat.shiftLeft_add_eq_or_of_lt (by omega : b.toNat % 64 < 2 ^ 6), Nat.shiftLeft_eq]

/-- **What the continuation bytes give.** -/
theorem continued_iff {n : ℕ} {rest : Bytes} {bits codepoint : UInt32} (h : (bits.toNat + 1) * 64 ^ n ≤ 2 ^ 26) :
    continued n rest bits = some codepoint ↔ ∃ bs t, rest = bs ++ t ∧ bs.length = n ∧
      (∀ b ∈ bs, 0x80 ≤ b.toNat ∧ b.toNat < 0xC0) ∧ codepoint.toNat = codepointOf bits.toNat bs := by
  induction n generalizing rest bits with
  | zero =>
    rw [continued, Option.some.injEq]
    constructor
    · rintro rfl
      exact ⟨[], rest, rfl, rfl, by simp, rfl⟩
    · rintro ⟨bs, t, -, hlength, -, hvalue⟩
      obtain rfl := List.length_eq_zero_iff.mp hlength
      exact UInt32.toNat_inj.mp hvalue.symm
  | succ n ih =>
    have hsmall : bits.toNat < 2 ^ 20 := by
      have hpos : 64 ^ 1 ≤ 64 ^ (n + 1) := Nat.pow_le_pow_right (by decide) (by omega)
      have hmul := Nat.mul_le_mul_left (bits.toNat + 1) hpos
      omega
    cases rest with
    | nil =>
      refine iff_of_false (by simp [continued]) ?_
      rintro ⟨bs, t, hrest, hlength, -⟩
      rw [(List.append_eq_nil_iff.mp hrest.symm).1] at hlength
      cases hlength
    | cons b rest =>
      have hnext := shift_or b hsmall
      have hroom : (((bits <<< 6) ||| (b &&& 0x3F).toUInt32).toNat + 1) * 64 ^ n ≤ 2 ^ 26 := by
        rw [hnext]
        refine le_trans ?_ h
        rw [Nat.pow_succ', ← Nat.mul_assoc]
        exact Nat.mul_le_mul_right _ (by omega)
      rw [continued]
      split_ifs with hrefused
      · refine iff_of_false (by simp) ?_
        rintro ⟨bs, t, hrest, hlength, hbytes, -⟩
        cases bs with
        | nil => cases hlength
        | cons c bs =>
          obtain ⟨rfl, -⟩ := List.cons.inj hrest
          exact hrefused ((continuation_iff b).mpr (hbytes b (by simp)))
      · rw [ih hroom, hnext]
        have hb := (continuation_iff b).mp (not_not.mp hrefused)
        constructor
        · rintro ⟨bs, t, rfl, rfl, hbytes, hvalue⟩
          exact ⟨b :: bs, t, rfl, rfl, List.forall_mem_cons.mpr ⟨hb, hbytes⟩, hvalue⟩
        · rintro ⟨bs, t, hrest, hlength, hbytes, hvalue⟩
          cases bs with
          | nil => cases hlength
          | cons c bs =>
            obtain ⟨rfl, rfl⟩ := List.cons.inj hrest
            exact ⟨bs, t, rfl, Nat.succ.inj hlength, (List.forall_mem_cons.mp hbytes).2, hvalue⟩

/-- What the first byte announces. -/
inductive Announces (lead : UInt8) : ℕ → ℕ → Prop
  | two : 0xC2 ≤ lead.toNat → lead.toNat ≤ 0xDF → Announces lead 2 (lead.toNat % 32)
  | three : 0xE0 ≤ lead.toNat → lead.toNat ≤ 0xEF → Announces lead 3 (lead.toNat % 16)
  | four : 0xF0 ≤ lead.toNat → lead.toNat ≤ 0xF4 → Announces lead 4 (lead.toNat % 8)

theorem announced_spec {lead bits : UInt8} {length : ℕ} (h : announced lead = some (length, bits)) :
    Announces lead length bits.toNat := by
  unfold announced at h
  simp only [UInt8.le_iff_toNat_le] at h
  split_ifs at h with htwo hthree hfour
  · obtain ⟨rfl, rfl⟩ := Prod.mk.inj (Option.some.inj h)
    rw [show (lead &&& 0x1F).toNat = lead.toNat % 32 from Nat.and_two_pow_sub_one_eq_mod _ 5]
    exact .two htwo.1 htwo.2
  · obtain ⟨rfl, rfl⟩ := Prod.mk.inj (Option.some.inj h)
    rw [show (lead &&& 0x0F).toNat = lead.toNat % 16 from Nat.and_two_pow_sub_one_eq_mod _ 4]
    exact .three hthree.1 hthree.2
  · obtain ⟨rfl, rfl⟩ := Prod.mk.inj (Option.some.inj h)
    rw [show (lead &&& 0x07).toNat = lead.toNat % 8 from Nat.and_two_pow_sub_one_eq_mod _ 3]
    exact .four hfour.1 hfour.2

theorem Announces.announced {lead : UInt8} {length bits : ℕ} (h : Announces lead length bits) :
    ∃ b : UInt8, announced lead = some (length, b) ∧ b.toNat = bits := by
  unfold BoundedJsonWriter.announced
  simp only [UInt8.le_iff_toNat_le]
  have h1 : (0xDF : UInt8).toNat = 0xDF := rfl
  have h2 : (0xE0 : UInt8).toNat = 0xE0 := rfl
  have h3 : (0xEF : UInt8).toNat = 0xEF := rfl
  have h4 : (0xF0 : UInt8).toNat = 0xF0 := rfl
  cases h with
  | two hlow hhigh => exact ⟨_, if_pos ⟨hlow, hhigh⟩, Nat.and_two_pow_sub_one_eq_mod _ 5⟩
  | three hlow hhigh =>
    rw [if_neg (by omega), if_pos ⟨hlow, hhigh⟩]
    exact ⟨_, rfl, Nat.and_two_pow_sub_one_eq_mod _ 4⟩
  | four hlow hhigh =>
    rw [if_neg (by omega), if_neg (by omega), if_pos ⟨hlow, hhigh⟩]
    exact ⟨_, rfl, Nat.and_two_pow_sub_one_eq_mod _ 3⟩

theorem Announces.room {lead : UInt8} {length bits : ℕ} (h : Announces lead length bits) :
    (bits + 1) * 64 ^ (length - 1) ≤ 2 ^ 26 := by
  cases h <;> norm_num <;> omega

/-- A number that is in range for the length of its sequence. -/
def InRange (length value : ℕ) : Prop :=
  ¬ (length = 3 ∧ value < 0x800) ∧ ¬ (length = 4 ∧ value < 0x10000) ∧ value < 0x110000 ∧
    ¬ (0xD800 ≤ value ∧ value ≤ 0xDFFF)

theorem outOfRange_eq (length : ℕ) (codepoint : UInt32) :
    outOfRange length codepoint = false ↔ InRange length codepoint.toNat := by
  simp only [outOfRange, InRange, Bool.or_eq_false_iff, Bool.and_eq_false_iff, decide_eq_false_iff_not,
    UInt32.lt_iff_toNat_lt, UInt32.le_iff_toNat_le]
  have h1 : (0x800 : UInt32).toNat = 0x800 := rfl
  have h2 : (0x10000 : UInt32).toNat = 0x10000 := rfl
  have h3 : (0x10FFFF : UInt32).toNat = 0x10FFFF := rfl
  have h4 : (0xD800 : UInt32).toNat = 0xD800 := rfl
  have h5 : (0xDFFF : UInt32).toNat = 0xDFFF := rfl
  omega

/-- A sequence above ASCII: what is announced, the continuation bytes, and a code point. -/
def Sequence (lead : UInt8) (rest : Bytes) (length : ℕ) : Prop :=
  ∃ bits bs t, Announces lead length bits ∧ rest = bs ++ t ∧ bs.length = length - 1 ∧
    (∀ b ∈ bs, 0x80 ≤ b.toNat ∧ b.toNat < 0xC0) ∧ InRange length (codepointOf bits bs)

theorem utf8SequenceLength_eq {lead : UInt8} {rest : Bytes} {length : ℕ} (hlead : ¬ lead < 0x80) (hlength : length ≠ 0) :
    utf8SequenceLength lead rest = length ↔ Sequence lead rest length := by
  unfold utf8SequenceLength
  rw [if_neg hlead]
  constructor
  · intro h
    cases hannounced : announced lead with
    | none =>
      rw [hannounced] at h
      exact absurd h.symm hlength
    | some parts =>
      obtain ⟨announcedLength, bits⟩ := parts
      have hannounces := announced_spec hannounced
      rw [hannounced] at h
      simp only at h
      split_ifs at h
      · exact absurd h.symm hlength
      cases hcontinued : continued (announcedLength - 1) rest bits.toUInt32 with
      | none =>
        rw [hcontinued] at h
        exact absurd h.symm hlength
      | some codepoint =>
        rw [hcontinued] at h
        simp only at h
        split_ifs at h with hrange
        · exact absurd h.symm hlength
        · subst h
          have hroom := hannounces.room
          rw [← UInt8.toNat_toUInt32] at hroom
          obtain ⟨bs, t, hrest, hbs, hbytes, hvalue⟩ := (continued_iff hroom).mp hcontinued
          rw [UInt8.toNat_toUInt32] at hvalue
          refine ⟨bits.toNat, bs, t, hannounces, hrest, hbs, hbytes, ?_⟩
          rw [← hvalue, ← outOfRange_eq]
          exact Bool.eq_false_iff.mpr hrange
  · rintro ⟨bits, bs, t, hannounces, rfl, hbs, hbytes, hrange⟩
    obtain ⟨b, hannounced, rfl⟩ := hannounces.announced
    have hsmall : codepointOf b.toNat bs < 2 ^ 32 := by
      have := hrange.2.2.1
      omega
    have hvalue : (UInt32.ofNat (codepointOf b.toNat bs)).toNat = codepointOf b.toNat bs := UInt32.toNat_ofNat_of_lt' hsmall
    have hroom := hannounces.room
    rw [← UInt8.toNat_toUInt32] at hroom
    have hcontinued : continued (length - 1) (bs ++ t) b.toUInt32 = some (UInt32.ofNat (codepointOf b.toNat bs)) :=
      (continued_iff hroom).mpr ⟨bs, t, rfl, hbs, hbytes, by rw [hvalue, UInt8.toNat_toUInt32]⟩
    have hinside : outOfRange length (UInt32.ofNat (codepointOf b.toNat bs)) = false := by
      rwa [outOfRange_eq, hvalue]
    rw [hannounced]
    simp only [hcontinued, hinside]
    rw [if_neg (by rw [List.length_append, hbs]; omega)]
    rfl

theorem ofNat_eq {b : UInt8} {n : ℕ} (h : n = b.toNat) : UInt8.ofNat n = b := by rw [h, UInt8.ofNat_toNat]

theorem toNat_eq {b : UInt8} {n : ℕ} (h : b = UInt8.ofNat n) (hn : n < 256) : b.toNat = n := by
  rw [h]
  exact UInt8.toNat_ofNat_of_lt' hn

theorem continuation_toNat (n : ℕ) : (UInt8.ofNat (n % 64 + 0x80)).toNat = n % 64 + 0x80 := toNat_eq rfl (by omega)

theorem continuation_bits (n : ℕ) : (UInt8.ofNat (n % 64 + 0x80)).toNat % 64 = n % 64 := by
  rw [continuation_toNat]
  omega

/-- **A sequence is a character**, and a character a sequence. -/
theorem sequence_iff {lead : UInt8} {rest : Bytes} {length : ℕ} (hlead : ¬ lead < 0x80) :
    Sequence lead rest length ↔ ∃ c t, lead :: rest = encode c ++ t ∧ (encode c).length = length := by
  constructor
  · rintro ⟨bits, bs, t, hannounces, rfl, hbs, hbytes, hrange⟩
    obtain ⟨c, hc⟩ := exists_char hrange.2.2.1 hrange.2.2.2
    refine ⟨c, t, ?_⟩
    cases hannounces with
    | two hlow hhigh =>
      obtain ⟨b, rfl⟩ := List.length_eq_one_iff.mp hbs
      have hb := hbytes b (by simp)
      simp only [codepointOf, List.foldl_cons, List.foldl_nil] at hc
      rw [encode_two (by omega) (by omega), ofNat_eq (b := lead) (by omega), ofNat_eq (b := b) (by omega)]
      exact ⟨rfl, rfl⟩
    | three hlow hhigh =>
      obtain ⟨b, b', rfl⟩ := List.length_eq_two.mp hbs
      have hb := hbytes b (by simp)
      have hb' := hbytes b' (by simp)
      have hlarge := hrange.1
      simp only [codepointOf, List.foldl_cons, List.foldl_nil, true_and] at hc hlarge
      rw [encode_three (by omega) (by omega), ofNat_eq (b := lead) (by omega), ofNat_eq (b := b) (by omega),
        ofNat_eq (b := b') (by omega)]
      exact ⟨rfl, rfl⟩
    | four hlow hhigh =>
      obtain ⟨b, b', b'', rfl⟩ := List.length_eq_three.mp hbs
      have hb := hbytes b (by simp)
      have hb' := hbytes b' (by simp)
      have hb'' := hbytes b'' (by simp)
      have hlarge := hrange.2.1
      simp only [codepointOf, List.foldl_cons, List.foldl_nil, true_and] at hc hlarge
      rw [encode_four (by omega), ofNat_eq (b := lead) (by omega), ofNat_eq (b := b) (by omega),
        ofNat_eq (b := b') (by omega), ofNat_eq (b := b'') (by omega)]
      exact ⟨rfl, rfl⟩
  · rintro ⟨c, t, hall, rfl⟩
    have hscalar := Char.toNat_lt c
    rcases encode_cases c with hone | ⟨hlow, hhigh⟩ | ⟨hlow, hhigh⟩ | hlow
    · rw [encode_one hone] at hall
      obtain ⟨rfl, -⟩ := List.cons.inj hall
      rw [UInt8.lt_iff_toNat_lt, UInt8.toNat_ofNat'] at hlead
      exact absurd (lt_of_le_of_lt (Nat.mod_le _ _) hone) hlead
    · rw [encode_two hlow hhigh] at hall ⊢
      obtain ⟨hfirst, hrest⟩ := List.cons.inj hall
      have hfirst := toNat_eq hfirst (by omega)
      have hbits : lead.toNat % 32 = c.val.toNat / 64 := by omega
      refine ⟨_, _, t, .two (by omega) (by omega), hrest, rfl, ?_, ?_⟩
      · simp only [List.mem_singleton, forall_eq, continuation_toNat]
        omega
      · simp only [codepointOf, List.foldl_cons, List.foldl_nil, continuation_bits, hbits, InRange,
          List.length_cons, List.length_nil]
        omega
    · rw [encode_three hlow hhigh] at hall ⊢
      obtain ⟨hfirst, hrest⟩ := List.cons.inj hall
      have hfirst := toNat_eq hfirst (by omega)
      have hbits : lead.toNat % 16 = c.val.toNat / 4096 := by omega
      refine ⟨_, _, t, .three (by omega) (by omega), hrest, rfl, ?_, ?_⟩
      · simp only [List.mem_cons, List.not_mem_nil, or_false, forall_eq_or_imp, forall_eq, continuation_toNat]
        omega
      · simp only [codepointOf, List.foldl_cons, List.foldl_nil, continuation_bits, hbits, InRange,
          List.length_cons, List.length_nil]
        omega
    · rw [encode_four hlow] at hall ⊢
      obtain ⟨hfirst, hrest⟩ := List.cons.inj hall
      have hfirst := toNat_eq hfirst (by omega)
      have hbits : lead.toNat % 8 = c.val.toNat / 262144 := by omega
      refine ⟨_, _, t, .four (by omega) (by omega), hrest, rfl, ?_, ?_⟩
      · simp only [List.mem_cons, List.not_mem_nil, or_false, forall_eq_or_imp, forall_eq, continuation_toNat]
        omega
      · simp only [codepointOf, List.foldl_cons, List.foldl_nil, continuation_bits, hbits, InRange,
          List.length_cons, List.length_nil]
        omega

/-- **What is copied are the characters.** -/
theorem utf8SequenceLength_iff (lead : UInt8) (rest : Bytes) {length : ℕ} (hlength : length ≠ 0) :
    utf8SequenceLength lead rest = length ↔ ∃ c t, lead :: rest = encode c ++ t ∧ (encode c).length = length := by
  by_cases hlead : lead < 0x80
  · have hascii : lead.toNat < 0x80 := UInt8.lt_iff_toNat_lt.mp hlead
    obtain ⟨c, hc⟩ := encode_ascii hlead
    rw [utf8SequenceLength, if_pos hlead]
    constructor
    · rintro rfl
      exact ⟨c, rest, by rw [hc]; rfl, by rw [hc]; rfl⟩
    · rintro ⟨d, t, hall, rfl⟩
      have hsame : encode c ++ rest = encode d ++ t := by
        rw [hc]
        exact hall
      rw [← (encode_inj hsame).1, hc]
      rfl
  · rw [utf8SequenceLength_eq hlead hlength, sequence_iff hlead]

/-! ### Appending -/

/-- The writer of a buffer, which may be missing. -/
structure Writer (capacity : ℕ) where
  buffer : Option (Vector UInt8 capacity)
  size : ℕ := 0
  overflow : Bool := false
  deriving DecidableEq

namespace Writer

variable {capacity : ℕ} {w : Writer capacity} {data : Bytes}

/-- `memcpy` into the buffer. -/
def copy (b : Vector UInt8 capacity) (position : ℕ) (data : Bytes) : Vector UInt8 capacity :=
  Vector.ofFn fun i => if position ≤ i ∧ i < position + data.length then data.getD (i - position) 0 else b[i]

def terminate (w : Writer capacity) : Writer capacity :=
  { w with buffer := w.buffer.map fun b => b.setIfInBounds (if w.size < capacity then w.size else capacity - 1) 0 }

/-- A new writer. -/
def start (buffer : Option (Vector UInt8 capacity)) : Writer capacity := ({ buffer := buffer } : Writer capacity).terminate

def append (w : Writer capacity) (data : Bytes) : Bool × Writer capacity :=
  if w.overflow ∨ w.buffer = none ∨ capacity = 0 ∨ data.length > capacity - 1 ∨ w.size > capacity - 1 - data.length then
    (false, ({ w with overflow := true } : Writer capacity).terminate)
  else
    (true, ({ w with
      buffer := w.buffer.map fun b => copy b w.size data
      size := w.size + data.length } : Writer capacity).terminate)

/-- What was written. -/
def written (w : Writer capacity) : Bytes := (w.buffer.map fun b => b.toList.take w.size).getD []

/-- What was written ends within the buffer, at a terminator. -/
structure Sound (w : Writer capacity) : Prop where
  fits : w.size = 0 ∨ w.size < capacity
  terminated : ∀ b, w.buffer = some b → 0 < capacity → b[w.size]? = some 0

@[simp] theorem terminate_size : w.terminate.size = w.size := rfl

@[simp] theorem terminate_overflow : w.terminate.overflow = w.overflow := rfl

theorem terminate_sound (h : w.size = 0 ∨ w.size < capacity) : w.terminate.Sound := by
  refine ⟨h, fun b hb hcapacity => ?_⟩
  have hfits : w.size < capacity := by omega
  obtain ⟨b', -, rfl⟩ := Option.map_eq_some_iff.mp hb
  simp [hfits]

theorem terminate_written (h : w.size = 0 ∨ w.size < capacity) : w.terminate.written = w.written := by
  unfold written terminate
  cases w.buffer with
  | none => rfl
  | some b =>
    simp only [Option.map_some, Option.getD_some]
    rcases h with h | h
    · rw [h]
      simp
    · rw [if_pos h, Vector.toList_setIfInBounds, List.take_set_of_le le_rfl]

theorem copy_take (b : Vector UInt8 capacity) {position : ℕ} (h : position + data.length ≤ capacity) :
    (copy b position data).toList.take (position + data.length) = b.toList.take position ++ data := by
  have hfirst : (b.toList.take position).length = position := by
    rw [List.length_take, Vector.length_toList]
    omega
  refine List.ext_getElem? fun i => ?_
  rw [List.getElem?_take]
  split_ifs with hi
  · have hcapacity : i < capacity := by omega
    have hcopied : (copy b position data).toList[i]? =
        some (if position ≤ i ∧ i < position + data.length then data.getD (i - position) 0 else b[i]) := by
      rw [Vector.getElem?_toList, Vector.getElem?_eq_getElem hcapacity, copy, Vector.getElem_ofFn]
      rfl
    rw [hcopied]
    by_cases hlow : position ≤ i
    · rw [if_pos ⟨hlow, hi⟩, List.getElem?_append_right (by omega), hfirst, List.getElem?_eq_getElem (by omega),
        List.getD_eq_getElem?_getD, List.getElem?_eq_getElem (by omega), Option.getD_some]
    · rw [if_neg (fun h => hlow h.1), List.getElem?_append_left (by omega), List.getElem?_take, if_pos (by omega),
        Vector.getElem?_toList, Vector.getElem?_eq_getElem hcapacity]
  · rw [List.getElem?_eq_none]
    rw [List.length_append, hfirst]
    omega

/-- What an append does. -/
inductive Appends (w : Writer capacity) (data : Bytes) : Bool × Writer capacity → Prop
  | fits {w' : Writer capacity} : w.overflow = false → w'.overflow = false → w'.size = w.size + data.length →
      w'.written = w.written ++ data → Appends w data (true, w')
  | refused {w' : Writer capacity} : w'.overflow = true → w'.size = w.size → w'.written = w.written →
      Appends w data (false, w')

/-- **One append.** -/
theorem append_spec (h : w.Sound) (data : Bytes) : Appends w data (w.append data) ∧ (w.append data).2.Sound := by
  unfold append
  split_ifs with hrefused
  · exact ⟨.refused rfl rfl (terminate_written h.fits), terminate_sound h.fits⟩
  · simp only [not_or, Bool.not_eq_true] at hrefused
    obtain ⟨hoverflow, hbuffer, hcapacity, hlength, hsize⟩ := hrefused
    have hfits : w.size + data.length < capacity := by omega
    refine ⟨.fits hoverflow hoverflow rfl ?_, terminate_sound (Or.inr hfits)⟩
    rw [terminate_written (Or.inr hfits)]
    obtain ⟨b, hb⟩ := Option.ne_none_iff_exists'.mp hbuffer
    simp only [written, hb, Option.map_some, Option.getD_some]
    exact copy_take b (by omega)

theorem append_of_overflow (h : w.overflow = true) : (w.append data).1 = false := by
  unfold append
  rw [if_pos (Or.inl h)]

end Writer

/-! ### Strings -/

/-- What is written for the first byte of a text, or for its first sequence, and how many bytes that is for. -/
def piece (byte : UInt8) (rest : Bytes) : Bytes × ℕ :=
  if byte = 34 then ([92, 34], 1)
  else if byte = 92 then ([92, 92], 1)
  else if byte = 8 then (ascii "\\b", 1)
  else if byte = 12 then (ascii "\\f", 1)
  else if byte = 10 then (ascii "\\n", 1)
  else if byte = 13 then (ascii "\\r", 1)
  else if byte = 9 then (ascii "\\t", 1)
  else if byte < 0x20 then (ascii "\\u" ++ hexText 4 byte.toNat, 1)
  else
    let sequence := utf8SequenceLength byte rest
    if sequence = 0 then (ascii "\\ufffd", 1) else ((byte :: rest).take sequence, sequence)

/-- A piece of a text stands for one character of it. -/
def StandsFor (byte : UInt8) (rest : Bytes) (p : Bytes × ℕ) (c : Char) : Prop :=
  (∀ s v, Denotes s v → Denotes (p.1 ++ s) (c :: v)) ∧ ∀ cs, Repairs (rest.drop (p.2 - 1)) cs → Repairs (byte :: rest) (c :: cs)

theorem standsFor_short {byte e : UInt8} {rest : Bytes} (c : Char) (hc : encode c = [byte]) (he : (e, c) ∈ shortMeaning) :
    StandsFor byte rest ([92, e], 1) c := by
  refine ⟨fun s v h => .short he h, fun cs h => ?_⟩
  have hcharacter := Repairs.character c h
  rwa [hc] at hcharacter

theorem isHex_hexDigit : ∀ d < 16, isHex (hexDigit d) = true := by decide

theorem hexFour_hexText {n : ℕ} (h : n < 16 ^ 4) : HexFour (hexText 4 n) n where
  length := length_hexText 4 n
  digits b hb := by
    obtain ⟨d, hd, rfl⟩ := mem_hexText hb
    exact isHex_hexDigit d hd
  value := by rw [hexadecimalValue_hexText, Nat.mod_eq_of_lt h]

/-- A control character is written with its number. -/
theorem standsFor_control {byte : UInt8} (rest : Bytes) (h : byte < 0x20) :
    ∃ c, StandsFor byte rest (ascii "\\u" ++ hexText 4 byte.toNat, 1) c := by
  have hbyte : byte.toNat < 0x20 := UInt8.lt_iff_toNat_lt.mp h
  obtain ⟨c, hc⟩ := exists_char (n := byte.toNat) (by omega) (by omega)
  have hencode : encode c = [byte] := by rw [encode_one (by omega), hc, UInt8.ofNat_toNat]
  refine ⟨c, fun s v hs => ?_, fun cs hcs => ?_⟩
  · have hhex : HexFour (hexText 4 byte.toNat) c.val.toNat := by
      rw [hc]
      exact hexFour_hexText (by omega)
    exact .unicode hhex hs
  · have hcharacter := Repairs.character c hcs
    rwa [hencode] at hcharacter

/-- What is no character is replaced. -/
theorem standsFor_invalid {byte : UInt8} {rest : Bytes} (h : utf8SequenceLength byte rest = 0) :
    StandsFor byte rest (ascii "\\ufffd", 1) replacement := by
  have hhex : HexFour (ascii "fffd") replacement.val.toNat :=
    ⟨by decide, by decide +kernel, by decide +kernel⟩
  refine ⟨fun s v hs => .unicode hhex hs, fun cs hcs => .invalid ?_ hcs⟩
  rintro ⟨c, t, hall⟩
  have hne : (encode c).length ≠ 0 := fun hzero => encode_ne_nil c (List.length_eq_zero_iff.mp hzero)
  exact hne (((utf8SequenceLength_iff byte rest hne).mpr ⟨c, t, hall, rfl⟩).symm.trans h)

/-- What is a character is copied. -/
theorem standsFor_sequence {byte : UInt8} {rest : Bytes} (hcontrol : ¬ byte < 0x20) (hquote : byte ≠ 34)
    (hbackslash : byte ≠ 92) (h : utf8SequenceLength byte rest ≠ 0) :
    ∃ c, StandsFor byte rest ((byte :: rest).take (utf8SequenceLength byte rest), utf8SequenceLength byte rest) c := by
  obtain ⟨c, t, hall, hlength⟩ := (utf8SequenceLength_iff byte rest h).mp rfl
  have hfirst (n : ℕ) (hn : n < 0x80) (hc : c.val.toNat = n) : byte = UInt8.ofNat n := by
    rw [encode_one (by omega), hc] at hall
    exact (List.cons.inj hall).1
  have hdrop : rest.drop (utf8SequenceLength byte rest - 1) = t := by
    have hwhole : (byte :: rest).drop (utf8SequenceLength byte rest) = t := by
      rw [hall, ← hlength, List.drop_left]
    rwa [← Nat.succ_pred_eq_of_ne_zero h, List.drop_succ_cons] at hwhole
  refine ⟨c, fun s v hs => ?_, fun cs hcs => ?_⟩
  · simp only
    rw [hall, ← hlength, List.take_left]
    refine .plain c ?_ (fun hc => hquote ?_) (fun hc => hbackslash ?_) hs
    · by_contra hvisible
      have hlow : c.val.toNat < 0x20 := Nat.lt_of_not_le hvisible
      rw [hfirst _ (by omega) rfl, UInt8.lt_iff_toNat_lt, toNat_eq rfl (by omega)] at hcontrol
      exact hcontrol hlow
    · exact hfirst 34 (by decide) (by rw [hc]; rfl)
    · exact hfirst 92 (by decide) (by rw [hc]; rfl)
  · simp only [hdrop] at hcs
    rw [hall]
    exact .character c hcs

/-- **Every piece stands for one character.** -/
theorem piece_standsFor (byte : UInt8) (rest : Bytes) : ∃ c, StandsFor byte rest (piece byte rest) c := by
  unfold piece
  simp only
  split_ifs with hquote hbackslash hb hf hn hr ht hcontrol hsequence
  · obtain rfl := hquote
    exact ⟨'"', standsFor_short '"' (by decide) (by decide)⟩
  · obtain rfl := hbackslash
    exact ⟨'\\', standsFor_short '\\' (by decide) (by decide)⟩
  · obtain rfl := hb
    exact ⟨Char.ofNat 8, standsFor_short _ (by decide) (by decide)⟩
  · obtain rfl := hf
    exact ⟨Char.ofNat 12, standsFor_short _ (by decide) (by decide)⟩
  · obtain rfl := hn
    exact ⟨'\n', standsFor_short '\n' (by decide) (by decide)⟩
  · obtain rfl := hr
    exact ⟨'\r', standsFor_short '\r' (by decide) (by decide)⟩
  · obtain rfl := ht
    exact ⟨'\t', standsFor_short '\t' (by decide) (by decide)⟩
  · exact standsFor_control rest hcontrol
  · exact ⟨replacement, standsFor_invalid hsequence⟩
  · exact standsFor_sequence hcontrol hquote hbackslash hsequence

namespace Writer

variable {capacity : ℕ} {w : Writer capacity}

/-- The loop over a text, and the closing quote. -/
def stringLoop (w : Writer capacity) : Bytes → Bool × Writer capacity
  | [] => w.append [34]
  | byte :: rest =>
    let appended := w.append (piece byte rest).1
    if appended.1 then appended.2.stringLoop (rest.drop ((piece byte rest).2 - 1)) else appended
termination_by text => text.length
decreasing_by
  rw [List.length_drop, List.length_cons]
  omega

def string (w : Writer capacity) (value : Bytes) : Bool × Writer capacity :=
  let opened := w.append [34]
  if opened.1 then opened.2.stringLoop value else opened

/-- **What the loop writes.** -/
theorem stringLoop_denotes (h : w.Sound) (value : Bytes) (hwritten : (w.stringLoop value).1 = true) :
    ∃ body v, (w.stringLoop value).2.written = w.written ++ (body ++ [34]) ∧ Denotes body v ∧ Repairs value v := by
  induction w, value using stringLoop.induct with
  | case1 w =>
    rw [stringLoop] at hwritten ⊢
    have happend := (append_spec h [34]).1
    generalize w.append [34] = appended at happend hwritten
    cases happend with
    | fits _ _ _ hw => exact ⟨[], [], hw, .nil, .nil⟩
    | refused _ _ _ => cases hwritten
  | case2 w byte rest appended happended ih =>
    obtain ⟨happend, hsound⟩ := append_spec h (piece byte rest).1
    rw [stringLoop, if_pos happended] at hwritten ⊢
    obtain ⟨body, v, hbody, hdenotes, hrepairs⟩ := ih hsound hwritten
    obtain ⟨c, hplain, hrepair⟩ := piece_standsFor byte rest
    have hgrown : appended.2.written = w.written ++ (piece byte rest).1 := by
      change Appends w _ appended at happend
      generalize appended = result at happend happended
      cases happend with
      | fits _ _ _ hw => exact hw
      | refused _ _ _ => cases happended
    refine ⟨(piece byte rest).1 ++ body, c :: v, ?_, hplain body v hdenotes, hrepair v hrepairs⟩
    rw [hbody, hgrown]
    simp only [List.append_assoc]
  | case3 w byte rest appended happended =>
    rw [stringLoop, if_neg happended] at hwritten
    exact absurd hwritten happended

/-- **A string that was written means the text**, repaired where it is no UTF-8. -/
theorem string_denotes (h : w.Sound) (value : Bytes) (hwritten : (w.string value).1 = true) :
    ∃ body v, (w.string value).2.written = w.written ++ 34 :: (body ++ [34]) ∧ Denotes body v ∧ Repairs value v := by
  obtain ⟨happend, hsound⟩ := append_spec h [34]
  unfold string at hwritten ⊢
  simp only at hwritten ⊢
  generalize w.append [34] = opened at happend hsound hwritten
  cases happend with
  | refused _ _ _ => cases hwritten
  | fits _ _ _ hw =>
    obtain ⟨body, v, hbody, hdenotes, hrepairs⟩ := stringLoop_denotes hsound value hwritten
    refine ⟨body, v, ?_, hdenotes, hrepairs⟩
    rw [if_pos rfl, hbody, hw]
    simp

end Writer

/-! ### Calls -/

/-- What the C library does with numbers of type `double`. -/
structure Doubles (F : Type) where
  isfinite : F → Bool
  isZero : F → Bool
  zero : F
  /-- The text of `%.*f`. -/
  fixed : ℕ → F → Bytes

inductive Call (F : Type)
  | literal (text : Bytes)
  | string (value : Bytes)
  | nullValue
  | boolean (value : Bool)
  | unsignedValue (value : UInt64)
  | signedValue (value : Int64)
  | number (value : F) (precision : ℕ)

namespace Writer

variable {capacity : ℕ} {F : Type} {w : Writer capacity}

/-- A text that was printed into a field. -/
def printed (w : Writer capacity) (field : ℕ) (digits : Bytes) : Bool × Writer capacity :=
  if 0 < digits.length ∧ digits.length < field then w.append digits else (false, w)

def nullValue (w : Writer capacity) : Bool × Writer capacity := w.append (ascii "null")

def signedText (value : Int64) : Bytes :=
  if value.toInt < 0 then 45 :: decimal value.toInt.natAbs else decimal value.toInt.natAbs

def number (lib : Doubles F) (w : Writer capacity) (value : F) (precision : ℕ) : Bool × Writer capacity :=
  if !lib.isfinite value || 9 < precision then w.nullValue
  else w.printed 48 (lib.fixed precision (if lib.isZero value then lib.zero else value))

def call (lib : Doubles F) (w : Writer capacity) : Call F → Bool × Writer capacity
  | .literal text => w.append text
  | .string value => w.string value
  | .nullValue => w.nullValue
  | .boolean value => w.append (ascii (if value then "true" else "false"))
  | .unsignedValue value => w.printed 32 (decimal value.toNat)
  | .signedValue value => w.printed 32 (signedText value)
  | .number value precision => number lib w value precision

/-- The writer after some calls. -/
def run (lib : Doubles F) (w : Writer capacity) (calls : List (Call F)) : Writer capacity :=
  calls.foldl (fun w c => (w.call lib c).2) w

/-- **What a call keeps.** -/
structure Keeps (w : Writer capacity) (r : Bool × Writer capacity) : Prop where
  sound : r.2.Sound
  buffer : r.2.buffer.isSome = w.buffer.isSome
  grows : w.written <+: r.2.written
  stopped : w.overflow = true → r.1 = false ∧ r.2.overflow = true ∧ r.2.size = w.size ∧ r.2.written = w.written

theorem keeps_append (h : w.Sound) (data : Bytes) : Keeps w (w.append data) := by
  obtain ⟨happend, hsound⟩ := append_spec h data
  refine ⟨hsound, ?_, ?_, fun hoverflow => ?_⟩
  · unfold append
    split_ifs <;> simp [terminate]
  · generalize w.append data = r at happend
    cases happend with
    | fits _ _ _ hw => exact ⟨data, hw.symm⟩
    | refused _ _ hw => exact hw ▸ List.prefix_rfl
  · have hfalse : (w.append data).1 = false := append_of_overflow hoverflow
    generalize w.append data = r at happend hfalse
    cases happend with
    | fits _ _ _ _ => cases hfalse
    | refused hset hsize hw => exact ⟨rfl, hset, hsize, hw⟩

theorem keeps_refused (h : w.Sound) : Keeps w (false, w) := ⟨h, rfl, List.prefix_rfl, fun hset => ⟨rfl, hset, rfl, rfl⟩⟩

/-- A call that goes on after another. -/
theorem Keeps.bind {r r' : Bool × Writer capacity} (h : Keeps w r) (hok : r.1 = true) (h' : Keeps r.2 r') : Keeps w r' :=
  ⟨h'.sound, h'.buffer.trans h.buffer, h.grows.trans h'.grows, fun hset => by
    rw [(h.stopped hset).1] at hok
    cases hok⟩

theorem keeps_stringLoop (h : w.Sound) (value : Bytes) : Keeps w (w.stringLoop value) := by
  induction w, value using stringLoop.induct with
  | case1 w =>
    rw [stringLoop]
    exact keeps_append h _
  | case2 w byte rest appended happended ih =>
    have happend := keeps_append h (piece byte rest).1
    rw [stringLoop, if_pos happended]
    exact happend.bind happended (ih happend.sound)
  | case3 w byte rest appended happended =>
    rw [stringLoop, if_neg happended]
    exact keeps_append h _

theorem keeps_string (h : w.Sound) (value : Bytes) : Keeps w (w.string value) := by
  have hopened := keeps_append h [34]
  unfold string
  simp only
  split_ifs with hok
  · exact hopened.bind hok (keeps_stringLoop hopened.sound value)
  · exact hopened

theorem keeps_printed (h : w.Sound) (field : ℕ) (digits : Bytes) : Keeps w (w.printed field digits) := by
  unfold printed
  split_ifs
  · exact keeps_append h digits
  · exact keeps_refused h

/-- **One call.** -/
theorem keeps_call (lib : Doubles F) (h : w.Sound) (c : Call F) : Keeps w (w.call lib c) := by
  cases c with
  | literal text => exact keeps_append h text
  | string value => exact keeps_string h value
  | nullValue => exact keeps_append h _
  | boolean value => exact keeps_append h _
  | unsignedValue value => exact keeps_printed h _ _
  | signedValue value => exact keeps_printed h _ _
  | number value precision =>
    change Keeps w (number lib w value precision)
    unfold number
    split_ifs
    · exact keeps_append h _
    all_goals exact keeps_printed h _ _

theorem run_snoc (lib : Doubles F) (w : Writer capacity) (calls : List (Call F)) (c : Call F) :
    run lib w (calls ++ [c]) = ((run lib w calls).call lib c).2 := List.foldl_concat ..

/-- **Any calls.** -/
theorem sound_run (lib : Doubles F) (h : w.Sound) (calls : List (Call F)) :
    (run lib w calls).Sound ∧ (run lib w calls).buffer.isSome = w.buffer.isSome := by
  induction calls using List.reverseRecOn with
  | nil => exact ⟨h, rfl⟩
  | append_singleton calls c ih =>
    have hkeeps := keeps_call lib ih.1 c
    rw [run_snoc]
    exact ⟨hkeeps.sound, hkeeps.buffer.trans ih.2⟩

/-- After the first append that fails, nothing is written. -/
theorem stopped_run (lib : Doubles F) (h : w.Sound) (hset : w.overflow = true) (calls : List (Call F)) :
    (run lib w calls).overflow = true ∧ (run lib w calls).size = w.size ∧ (run lib w calls).written = w.written := by
  induction calls using List.reverseRecOn with
  | nil => exact ⟨hset, rfl, rfl⟩
  | append_singleton calls c ih =>
    obtain ⟨-, hnext, hsize, hwritten⟩ := (keeps_call lib (sound_run lib h calls).1 c).stopped ih.1
    rw [run_snoc]
    exact ⟨hnext, hsize.trans ih.2.1, hwritten.trans ih.2.2⟩

theorem start_sound (buffer : Option (Vector UInt8 capacity)) : (start buffer).Sound := terminate_sound (Or.inl rfl)

end Writer

open Writer

/-- **The writer.** After any calls on a buffer that is not empty, what was written ends at a terminator within the
buffer. An append that fails sets the flag, and then every call fails and leaves what was written. A string that was
written is a string of JSON in UTF-8 which means the text, with U+FFFD for every byte at which no character starts;
a text in UTF-8 is meant as it is. -/
theorem writer_text {F : Type} (lib : Doubles F) {capacity : ℕ} (buffer : Option (Vector UInt8 capacity))
    (calls : List (Call F)) :
    let w := run lib (start buffer) calls
    (0 < capacity → w.size < capacity ∧ w.buffer.isSome = buffer.isSome ∧ ∀ b, w.buffer = some b → b[w.size]? = some 0) ∧
      (∀ data, (w.append data).1 = false →
        (w.append data).2.overflow = true ∧ (w.append data).2.size = w.size ∧ (w.append data).2.written = w.written) ∧
      (w.overflow = true → ∀ later, (run lib w later).size = w.size ∧ (run lib w later).written = w.written ∧
        ∀ c, ((run lib w later).call lib c).1 = false) ∧
      ∀ s, (w.string s).1 = true → ∃ body v, (w.string s).2.written = w.written ++ 34 :: (body ++ [34]) ∧
        Derives .value (34 :: (body ++ [34])) ∧ (∃ cs, body = encodeAll cs) ∧ Denotes body v ∧ Repairs s v ∧
          ∀ cs, s = encodeAll cs → encodeAll v = s := by
  intro w
  obtain ⟨hsound, hbuffer⟩ := sound_run lib (start_sound buffer) calls
  refine ⟨fun hcapacity => ⟨?_, ?_, fun b hb => hsound.terminated b hb hcapacity⟩, fun data hfailed => ?_,
    fun hset later => ?_, fun s hs => ?_⟩
  · have hfits : w.size = 0 ∨ w.size < capacity := hsound.fits
    omega
  · rw [hbuffer, start, terminate, Option.isSome_map]
  · have happend := (append_spec hsound data).1
    change (append w data).1 = false at hfailed
    change Appends w data (append w data) at happend
    generalize append w data = r at happend hfailed
    cases happend with
    | fits _ _ _ _ => cases hfailed
    | refused hset hsize hwritten => exact ⟨hset, hsize, hwritten⟩
  · obtain ⟨hlater, hsize, hwritten⟩ := stopped_run lib hsound hset later
    refine ⟨hsize, hwritten, fun c => ?_⟩
    exact ((keeps_call lib (sound_run lib hsound later).1 c).stopped hlater).1
  · obtain ⟨body, v, hbody, hdenotes, hrepairs⟩ := string_denotes hsound s hs
    refine ⟨body, v, hbody, .string hdenotes.characters, hdenotes.wellFormed, hdenotes, hrepairs, ?_⟩
    rintro cs rfl
    rw [hrepairs.unique (repairs_encodeAll cs)]

/-- Numbers without a value. -/
def noDoubles : Doubles Unit := ⟨fun _ => false, fun _ => false, (), fun _ _ => []⟩

/-- A byte that belongs to no character, written into sixteen bytes. -/
theorem writer_text_invalid :
    ∃ body v, (string (start (some (Vector.replicate 16 0))) [0xFF]).2.written = 34 :: (body ++ [34]) ∧
      Denotes body v ∧ Repairs [0xFF] v := by
  have hwritten : (string (start (some (Vector.replicate 16 0))) [0xFF]).1 = true := by
    rw [string, if_pos (by decide +kernel), stringLoop, if_pos (by decide +kernel), List.drop_nil, stringLoop]
    decide +kernel
  obtain ⟨body, v, hbody, -, -, hdenotes, hrepairs, -⟩ :=
    (writer_text noDoubles (some (Vector.replicate 16 0)) []).2.2.2 [0xFF] hwritten
  exact ⟨body, v, hbody, hdenotes, hrepairs⟩

/-- **A buffer of no bytes** has no room for a terminator. -/
theorem empty_buffer_full :
    ¬ ∀ (capacity : ℕ) (buffer : Vector UInt8 capacity) (calls : List (Call Unit)),
      (run noDoubles (start (some buffer)) calls).size < capacity := by
  intro h
  exact absurd (h 0 #v[] []) (by decide)

end PowerMonitor.Api.BoundedJsonWriter
