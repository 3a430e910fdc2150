import PowerMonitor.Lib.Lines
import PowerMonitor.Lib.Scan

/-! # Envelopes

A payload is stored as a line: a prefix, the payload, a tab, the CRC-32 of the payload in hexadecimal
and a newline. `decodeEnvelope` takes a line apart; it accepts what `encodeEnvelope` writes
(`decodeEnvelope_encodeEnvelope`). Of envelopes that were cut off anywhere, the complete lines decode to the first
payloads (`envelope_framing`). -/

namespace PowerMonitor.Storage.RecordFormat

open PowerMonitor.Lib.Binary PowerMonitor.Lib.Lines PowerMonitor.Lib.Scan

def recordPrefix : Bytes := ascii "PMR1\t"

def encodeEnvelope (canonicalJson : Bytes) : Bytes :=
  recordPrefix ++ (canonicalJson ++ (9 :: hexText 8 (crc32 canonicalJson).toNat ++ [10]))

/-- The last tab of a line. -/
def lastTab (line : Bytes) : Option ℕ :=
  (line.reverse.findIdx? (· == 9)).map fun k => line.length - 1 - k

/-- What stands between the prefix and the separator; the rest of the line, by the wrapping of a
negative length, when the only tab is that of the prefix. -/
def envelopePayload (line : Bytes) (separator : ℕ) : Bytes :=
  if separator < recordPrefix.length then line.drop recordPrefix.length
  else (line.drop recordPrefix.length).take (separator - recordPrefix.length)

/-- The payload and its checksum. -/
def decodeEnvelope (line : Bytes) : Option (Bytes × UInt32) :=
  if !recordPrefix.isPrefixOf line || line.getLast? ≠ some 10 then none
  else
    match lastTab line with
    | none => none
    | some separator =>
      if line.length - separator ≠ 10 then none
      else
        match scanHex 8 (line.drop (separator + 1)) with
        | none => none
        | some storedCrc =>
          let canonicalJson := envelopePayload line separator
          if storedCrc = crc32 canonicalJson then some (canonicalJson, storedCrc) else none

theorem length_recordPrefix : recordPrefix.length = 5 := rfl

theorem length_encodeEnvelope (payload : Bytes) :
    (encodeEnvelope payload).length = payload.length + 15 := by
  simp [encodeEnvelope, length_recordPrefix]
  omega

theorem lastTab_encodeEnvelope (payload : Bytes) :
    lastTab (encodeEnvelope payload) = some (payload.length + 5) := by
  have hne : ∀ b ∈ (10 : UInt8) :: (hexText 8 (crc32 payload).toNat).reverse, (b == 9) = false := by
    intro b hb
    rcases List.mem_cons.mp hb with rfl | hb
    · decide
    · simp only [beq_eq_false_iff_ne]
      rintro rfl
      exact notMem_hexText (by decide) (List.mem_reverse.mp hb)
  have hrev : (encodeEnvelope payload).reverse =
      ((10 : UInt8) :: (hexText 8 (crc32 payload).toNat).reverse) ++
        (9 :: (payload.reverse ++ recordPrefix.reverse)) := by
    simp [encodeEnvelope]
  have hfind : (encodeEnvelope payload).reverse.findIdx? (· == 9) = some 9 := by
    rw [hrev, List.findIdx?_append, List.findIdx?_eq_none_iff.mpr hne, List.findIdx?_cons]
    simp
  unfold lastTab
  rw [hfind, length_encodeEnvelope]
  simp

/-- **An envelope decodes to its payload.** -/
theorem decodeEnvelope_encodeEnvelope (payload : Bytes) :
    decodeEnvelope (encodeEnvelope payload) = some (payload, crc32 payload) := by
  have hpre : recordPrefix.isPrefixOf (encodeEnvelope payload) = true := by
    rw [List.isPrefixOf_iff_prefix]
    exact List.prefix_append ..
  have hlast : (encodeEnvelope payload).getLast? = some 10 := by
    rw [encodeEnvelope, ← List.append_assoc, ← List.append_assoc, List.getLast?_append]
    rfl
  have hdrop : (encodeEnvelope payload).drop (payload.length + 5 + 1) =
      hexText 8 (crc32 payload).toNat ++ [10] := by
    have : encodeEnvelope payload = (recordPrefix ++ payload ++ [9]) ++
        (hexText 8 (crc32 payload).toNat ++ [10]) := by simp [encodeEnvelope]
    rw [this]
    exact List.drop_left' (by simp [length_recordPrefix]; omega)
  have hjson : envelopePayload (encodeEnvelope payload) (payload.length + 5) = payload := by
    unfold envelopePayload
    rw [if_neg (by rw [length_recordPrefix]; omega), length_recordPrefix, Nat.add_sub_cancel,
      ← length_recordPrefix, encodeEnvelope, List.drop_left, List.take_left]
  unfold decodeEnvelope
  rw [hpre, hlast, lastTab_encodeEnvelope]
  simp [length_encodeEnvelope, hdrop, scanHex_hexText, hjson,
    show payload.length + 15 - (payload.length + 5) = 10 by omega]

/-- An envelope is one line, if its payload has no newline. -/
theorem encodeEnvelope_line {payload : Bytes} (h : (10 : UInt8) ∉ payload) :
    ∃ init, encodeEnvelope payload = init ++ [10] ∧ (10 : UInt8) ∉ init := by
  refine ⟨recordPrefix ++ (payload ++ 9 :: hexText 8 (crc32 payload).toNat), by simp [encodeEnvelope], ?_⟩
  simp only [List.mem_append, List.mem_cons, not_or]
  exact ⟨by decide, h, by decide, notMem_hexText (by decide)⟩

/-! ### Envelopes that are cut off -/

/-- The complete lines are the first envelopes. -/
theorem lines_of_envelopes {payloads : List Bytes} {p : Bytes} (hpayloads : ∀ payload ∈ payloads, (10 : UInt8) ∉ payload)
    (hp : p <+: (payloads.map encodeEnvelope).flatten) : lines p <+: payloads.map encodeEnvelope := by
  have henvelopes : ∀ l ∈ payloads.map encodeEnvelope, ∃ init, l = init ++ [10] ∧ (10 : UInt8) ∉ init := by
    intro l hl
    obtain ⟨payload, hmem, rfl⟩ := List.mem_map.mp hl
    exact encodeEnvelope_line (hpayloads payload hmem)
  have hlines := (lines_flatten (payloads.map encodeEnvelope) henvelopes []).1
  rw [List.append_nil, lines_nil, List.append_nil] at hlines
  rw [← hlines]
  exact lines_prefix hp

/-- **Framing.** An envelope decodes to its payload and the payload's CRC. What is left of a row of envelopes that was
cut off are complete lines, which decode to the first payloads in order, and a rest without a newline. -/
theorem envelope_framing :
    (∀ j, decodeEnvelope (encodeEnvelope j) = some (j, crc32 j)) ∧
      ∀ (payloads : List Bytes) (p : Bytes), (∀ payload ∈ payloads, (10 : UInt8) ∉ payload) →
        p <+: (payloads.map encodeEnvelope).flatten →
          p = (lines p).flatten ++ unterminated p ∧ (∀ l ∈ lines p, ∃ init, l = init ++ [10] ∧ (10 : UInt8) ∉ init) ∧
            (10 : UInt8) ∉ unterminated p ∧
            (lines p).map decodeEnvelope = (payloads.take (lines p).length).map fun j => some (j, crc32 j) := by
  refine ⟨decodeEnvelope_encodeEnvelope, fun payloads p hpayloads hp => ⟨(flatten_lines p).symm, fun l => mem_lines,
    newline_notMem_unterminated p, ?_⟩⟩
  have hfirst := List.prefix_iff_eq_take.mp (lines_of_envelopes hpayloads hp)
  calc (lines p).map decodeEnvelope
      = ((payloads.map encodeEnvelope).take (lines p).length).map decodeEnvelope := congrArg _ hfirst
    _ = (payloads.take (lines p).length).map (decodeEnvelope ∘ encodeEnvelope) := by
      rw [← List.map_take, List.map_map]
    _ = (payloads.take (lines p).length).map fun j => some (j, crc32 j) :=
      List.map_congr_left fun j _ => decodeEnvelope_encodeEnvelope j

/-- An envelope with a tab in its payload, and the beginning of an empty one. -/
def cutEnvelopes : Bytes := encodeEnvelope (ascii "a\tb") ++ ascii "PMR1"

theorem envelope_framing_cut :
    (lines cutEnvelopes).map decodeEnvelope = [some (ascii "a\tb", crc32 (ascii "a\tb"))] := by
  have hlength : (lines cutEnvelopes).length = 1 := by decide +kernel
  have hdecode := (envelope_framing.2 [ascii "a\tb", []] cutEnvelopes (by decide)
    ⟨(encodeEnvelope []).drop 4, by decide +kernel⟩).2.2.2
  rw [hlength] at hdecode
  exact hdecode

end PowerMonitor.Storage.RecordFormat
