import PowerMonitor.Config.AtomicConfigStore
import PowerMonitor.Lib.Burst
import PowerMonitor.Reset.RecordStore
import PowerMonitor.Storage.RecordFormat

/-! # Bursts in what is stored

The CRC-32 is the register of 32 bits over a text (`crc32_toBitVec`), so a burst of four bytes changes it
(`crc32_burst`), and what was stored with the CRC of another text is refused: an envelope, a slot of the atomic store
and the record of a reset (`burst_refused`). -/

namespace PowerMonitor.Storage.BurstErrors

open PowerMonitor.Lib.Binary PowerMonitor.Lib.Burst PowerMonitor.Lib.Scan PowerMonitor.Storage.RecordFormat
open PowerMonitor.Config.AtomicConfigStore PowerMonitor.Reset PowerMonitor.Reset.Policy PowerMonitor.Reset.Codec
open PowerMonitor.Reset.RoundTrip

/-! ### The two functions -/

/-- One bit of `persistence::crc32`, which makes its mask of a signed number. -/
def persistenceCrcBit (crc : UInt32) : UInt32 :=
  let mask := (-(crc &&& 1).toInt32).toUInt32
  (crc >>> 1) ^^^ (0xEDB88320 &&& mask)

def persistenceCrcByte (crc : UInt32) (b : UInt8) : UInt32 := (persistenceCrcBit^[8]) (crc ^^^ b.toUInt32)

/-- `persistence::crc32`. -/
def persistenceCrc32 (data : Bytes) : UInt32 := ~~~(data.foldl persistenceCrcByte 0xFFFFFFFF)

variable {s t : Bytes}

theorem persistenceCrc32_eq (data : Bytes) : persistenceCrc32 data = crc32 data := rfl

/-! ### The register -/

theorem crcBit_toBitVec (crc : UInt32) : (crcBit crc).toBitVec = shift 0xEDB88320#32 crc.toBitVec := by
  have hbit : (crcBit crc).toBitVec = (crc.toBitVec >>> 1) ^^^ (0xEDB88320#32 &&& (0#32 - (crc.toBitVec &&& 1#32))) := rfl
  rw [hbit, and_one, shift]
  cases crc.toBitVec.getLsbD 0
  · simp
  · congr 1

theorem iterate_crcBit (n : ℕ) (crc : UInt32) :
    ((crcBit^[n]) crc).toBitVec = ((shift 0xEDB88320#32)^[n]) crc.toBitVec := by
  induction n generalizing crc with
  | zero => rfl
  | succ n ih => rw [Function.iterate_succ_apply, ih, crcBit_toBitVec, ← Function.iterate_succ_apply]

theorem foldl_crcByte (crc : UInt32) (data : Bytes) :
    (data.foldl crcByte crc).toBitVec = register 0xEDB88320#32 crc.toBitVec data := by
  induction data generalizing crc with
  | nil => rfl
  | cons b data ih =>
    have hbyte : (crcByte crc b).toBitVec = absorb 0xEDB88320#32 crc.toBitVec b := iterate_crcBit 8 _
    rw [List.foldl_cons, ih, hbyte]
    rfl

/-- **The CRC-32 is a register of 32 bits.** -/
theorem crc32_toBitVec (data : Bytes) : (crc32 data).toBitVec = ~~~(register 0xEDB88320#32 0xFFFFFFFF#32 data) :=
  congrArg (~~~·) (foldl_crcByte 0xFFFFFFFF data)

/-- **A burst of four bytes changes the CRC.** -/
theorem crc32_burst (h : DifferWithin 4 s t) (hne : s ≠ t) : crc32 s ≠ crc32 t := by
  intro heq
  have hregister := congrArg UInt32.toBitVec heq
  rw [crc32_toBitVec, crc32_toBitVec] at hregister
  exact register_burst (by decide) (by decide) _ h hne (BitVec.not_inj.mp hregister)

/-! ### Envelopes -/

variable {payload payload' rest : Bytes}

/-- The last tab of a line is found in its end. -/
theorem lastTab_append (h : (9 : UInt8) ∈ rest) : ∃ k, ∀ front, lastTab (front ++ rest) = some (front.length + k) := by
  obtain ⟨j, hj⟩ : ∃ j, rest.reverse.findIdx? (· == 9) = some j := by
    rw [← Option.isSome_iff_exists, List.findIdx?_isSome, List.any_eq_true]
    exact ⟨9, List.mem_reverse.mpr h, by decide⟩
  have hlt : j < rest.length := by
    rw [← List.length_reverse]
    exact (List.findIdx?_eq_some_iff_getElem.mp hj).1
  refine ⟨rest.length - 1 - j, fun front => ?_⟩
  rw [lastTab, List.reverse_append, List.findIdx?_append, hj, Option.some_or, Option.map_some, List.length_append]
  congr 1
  omega

/-- What an accepted line has behind its last tab. -/
theorem checksum_of_accepted {line : Bytes} {separator : ℕ} (h : (decodeEnvelope line).isSome)
    (htab : lastTab line = some separator) :
    scanHex 8 (line.drop (separator + 1)) = some (crc32 (envelopePayload line separator)) := by
  unfold decodeEnvelope at h
  split_ifs at h
  · cases h
  rw [htab] at h
  simp only at h
  split_ifs at h
  · cases h
  cases hscan : scanHex 8 (line.drop (separator + 1)) with
  | none =>
    rw [hscan] at h
    cases h
  | some storedCrc =>
    rw [hscan] at h
    simp only at h
    split_ifs at h with hcrc
    · rw [hcrc]
    · cases h

/-- **An envelope with another payload is refused.** -/
theorem envelope_refused (hburst : DifferWithin 4 payload payload') (hne : payload ≠ payload') (htab : (9 : UInt8) ∈ rest)
    (haccepted : (decodeEnvelope (recordPrefix ++ (payload ++ rest))).isSome) :
    decodeEnvelope (recordPrefix ++ (payload' ++ rest)) = none := by
  obtain ⟨k, hk⟩ := lastTab_append htab
  -- what is read of a line with these ends
  have hread (p : Bytes) (h : (decodeEnvelope (recordPrefix ++ (p ++ rest))).isSome) :
      scanHex 8 (rest.drop (k + 1)) = some (crc32 (p ++ rest.take k)) := by
    have hlength : (recordPrefix ++ p).length = 5 + p.length := List.length_append
    have htab := hk (recordPrefix ++ p)
    rw [hlength, List.append_assoc] at htab
    have hchecksum := checksum_of_accepted h htab
    have hpayload : envelopePayload (recordPrefix ++ (p ++ rest)) (5 + p.length + k) = p ++ rest.take k := by
      unfold envelopePayload
      rw [length_recordPrefix, if_neg (by omega), ← length_recordPrefix, List.drop_left, length_recordPrefix,
        show 5 + p.length + k - 5 = p.length + k by omega, List.take_length_add_append]
    have hdrop : (recordPrefix ++ (p ++ rest)).drop (5 + p.length + k + 1) = rest.drop (k + 1) := by
      rw [← List.append_assoc, ← hlength, Nat.add_assoc, List.drop_length_add_append]
    rwa [hpayload, hdrop] at hchecksum
  rw [← Option.not_isSome_iff_eq_none]
  intro haccepted'
  have hsame := Option.some.inj ((hread payload haccepted).symm.trans (hread payload' haccepted'))
  refine crc32_burst (hburst.append [] (rest.take k)) ?_ hsame
  exact fun heq => hne (List.append_cancel_right heq)

/-! ### Slots and reset records -/

theorem readLe_left {k offset : ℕ} {header : Bytes} (h : offset + k ≤ header.length) (payload : Bytes) :
    readLe k (header ++ payload) offset = readLe k header offset := by
  unfold readLe
  rw [List.length_append, if_neg (by omega), if_neg (by omega), List.drop_append_of_le_length (by omega),
    List.take_append_of_le_length (by rw [List.length_drop]; omega)]

/-- **A slot with another payload is refused.** -/
theorem slot_refused {header : Bytes} (hheader : header.length = recordHeaderSize)
    (hburst : DifferWithin 4 payload payload') (hne : payload ≠ payload')
    (haccepted : (decodeRecord (header ++ payload)).isSome) : decodeRecord (header ++ payload') = none := by
  -- what is read of a slot with this header
  have hread (p : Bytes) (h : (decodeRecord (header ++ p)).isSome) :
      ∃ generation, readLe 8 header 8 = some generation ∧
        readLe 4 header 20 = some (crc32 (recordCrcMaterial generation p)).toNat := by
    obtain ⟨decoded, hdecoded⟩ := Option.isSome_iff_exists.mp h
    unfold decodeRecord at hdecoded
    split_ifs at hdecoded
    simp only [Option.bind_eq_bind, Option.bind_eq_some_iff] at hdecoded
    obtain ⟨_, -, _, -, generation, hgeneration, _, -, expectedCrc, hexpected, hdecoded⟩ := hdecoded
    split_ifs at hdecoded with hframe hcrc
    rw [readLe_left (by rw [hheader]; decide)] at hgeneration hexpected
    rw [← hheader, List.drop_left] at hcrc
    exact ⟨generation, hgeneration, by rw [hexpected, hcrc]⟩
  rw [← Option.not_isSome_iff_eq_none]
  intro haccepted'
  obtain ⟨generation, hgeneration, hcrc⟩ := hread payload haccepted
  obtain ⟨_, hgeneration', hcrc'⟩ := hread payload' haccepted'
  obtain rfl := Option.some.inj (hgeneration.symm.trans hgeneration')
  have hsame := UInt32.toNat_inj.mp (Option.some.inj (hcrc.symm.trans hcrc'))
  have hmaterial (p : Bytes) : recordCrcMaterial generation p =
      (leBytes 8 generation ++ leBytes 4 p.length) ++ (p ++ []) := by
    simp [recordCrcMaterial]
  rw [hmaterial, hmaterial, ← hburst.1] at hsame
  exact crc32_burst (hburst.append _ _) (fun heq => hne (by simpa using heq)) hsame

/-- **A reset record with another body is refused.** -/
theorem resetRecord_refused {body body' checksum : Bytes} (hchecksum : checksum.length = 4)
    (hburst : DifferWithin 4 body body') (hne : body ≠ body')
    (haccepted : (decodeDataResetRecord (body ++ checksum)).isSome) : decodeDataResetRecord (body' ++ checksum) = none := by
  -- what is read of a record with this checksum
  have hread (b : Bytes) (h : (decodeDataResetRecord (b ++ checksum)).isSome) : (crc32 b).toNat = leNat checksum := by
    have hlength : (b ++ checksum).length - 4 = b.length := by
      rw [List.length_append, hchecksum, Nat.add_sub_cancel]
    unfold decodeDataResetRecord at h
    simp only [hlength, List.take_left, List.drop_left] at h
    split_ifs at h with hsize hcrc
    · cases h
    · cases h
    · exact not_not.mp hcrc
  rw [← Option.not_isSome_iff_eq_none]
  intro haccepted'
  exact crc32_burst hburst hne (UInt32.toNat_inj.mp ((hread body haccepted).trans (hread body' haccepted').symm))

/-- **Bursts of four bytes.** They change the CRC, which is the same in both implementations, and what was stored with
the CRC is refused: an envelope, with the payload between the prefix and the last tab, a slot, with the payload behind
the header, and the record of a reset, with the body before the checksum. -/
theorem burst_refused :
    (∀ s t, DifferWithin 4 s t → s ≠ t → crc32 s ≠ crc32 t) ∧ (∀ data, persistenceCrc32 data = crc32 data) ∧
      ∀ payload payload', DifferWithin 4 payload payload' → payload ≠ payload' →
        (∀ rest, (9 : UInt8) ∈ rest → (decodeEnvelope (recordPrefix ++ (payload ++ rest))).isSome →
          decodeEnvelope (recordPrefix ++ (payload' ++ rest)) = none) ∧
        (∀ header : Bytes, header.length = recordHeaderSize → (decodeRecord (header ++ payload)).isSome →
          decodeRecord (header ++ payload') = none) ∧
        ∀ checksum : Bytes, checksum.length = 4 → (decodeDataResetRecord (payload ++ checksum)).isSome →
          decodeDataResetRecord (payload' ++ checksum) = none :=
  ⟨fun _ _ => crc32_burst, persistenceCrc32_eq, fun _ _ hburst hne =>
    ⟨fun _ => envelope_refused hburst hne, fun _ hheader => slot_refused hheader hburst hne,
      fun _ hchecksum => resetRecord_refused hchecksum hburst hne⟩⟩

/-- The end of an envelope with the payload `ab`. -/
def envelopeEnd : Bytes := (encodeEnvelope (ascii "ab")).drop 7

/-- The header of a slot with the payload `ab`. -/
def slotHeader : Bytes := (encodeRecord 1 (ascii "ab")).take recordHeaderSize

/-- The record of a reset that was asked for, and its parts behind the first byte. -/
def askedBytes : Bytes := encodeDataResetRecord RecordStore.asked
def askedBody : Bytes := (askedBytes.take (askedBytes.length - 4)).drop 1
def askedChecksum : Bytes := askedBytes.drop (askedBytes.length - 4)

theorem parts_append {encoded : Bytes} (h : 4 < encoded.length) :
    (encoded.headD 0 :: (encoded.take (encoded.length - 4)).drop 1) ++ encoded.drop (encoded.length - 4) = encoded := by
  cases encoded with
  | nil => simp at h
  | cons b rest =>
    have hlength : (b :: rest).length - 4 = (rest.length - 4) + 1 := by
      rw [List.length_cons] at h ⊢
      omega
    rw [hlength, List.take_succ_cons, List.drop_succ_cons, List.drop_zero, List.drop_succ_cons, List.headD_cons,
      List.cons_append, List.take_append_drop]

theorem askedBytes_decodes : (decodeDataResetRecord ((askedBytes.headD 0 :: askedBody) ++ askedChecksum)).isSome := by
  have hvalid : validRecord RecordStore.asked = true := by decide +kernel
  have hlength : 4 < askedBytes.length := by
    rw [askedBytes, length_encode hvalid]
    omega
  rw [askedBody, askedChecksum, parts_append hlength, askedBytes, (decode_encode hvalid).2]
  rfl

theorem burst_refused_ab :
    decodeEnvelope (recordPrefix ++ (ascii "ac" ++ envelopeEnd)) = none ∧ decodeRecord (slotHeader ++ ascii "ac") = none ∧
      decodeDataResetRecord ((0 :: askedBody) ++ askedChecksum) = none := by
  have hab : DifferWithin 4 (ascii "ab") (ascii "ac") := by
    have hparts : DifferWithin 4 ([97] ++ ([98] ++ [])) ([97] ++ ([99] ++ [])) := differWithin_parts _ _ rfl (by decide)
    rwa [show ascii "ab" = [97] ++ ([98] ++ []) by decide, show ascii "ac" = [97] ++ ([99] ++ []) by decide]
  have hfirst (b : UInt8) (rest : Bytes) : DifferWithin 4 (b :: rest) (0 :: rest) :=
    @differWithin_parts 4 [] rest [b] [0] rfl (by simp)
  have hpayload := burst_refused.2.2 _ _ hab (by decide)
  have hbody := burst_refused.2.2 _ _ (hfirst (askedBytes.headD 0) askedBody) (by decide +kernel)
  exact ⟨hpayload.1 envelopeEnd (by decide +kernel) (by decide +kernel),
    hpayload.2.1 slotHeader (by decide +kernel) (by decide +kernel),
    hbody.2.2 askedChecksum (by decide +kernel) askedBytes_decodes⟩

end PowerMonitor.Storage.BurstErrors
