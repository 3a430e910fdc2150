import PowerMonitor.Reset.Generations
import PowerMonitor.Reset.RoundTrip

/-! # The space that is reserved for the records

The store keeps two records, the one in force and the one before it. The space reserved for them counts one
completed record and one that is only prepared; the record before a completed one also holds the digest of
the configuration afterwards. So the space is too small by one entry for records whose texts are all as long
as they may be, and for no others (`reservation_covers_iff`). -/

namespace PowerMonitor.Reset.Capacity

open PowerMonitor.Lib.Binary
open PowerMonitor.Reset.Policy PowerMonitor.Reset.Codec PowerMonitor.Reset.Operation
open PowerMonitor.Reset.RoundTrip PowerMonitor.Reset.Generations

/-! ### Entries -/

def kNvsEntryBytes : ℕ := 32
def kNvsBlobChunkBytes : ℕ := 4000
def kAtomicRecordEnvelopeBytes : ℕ := 24

def divideRoundUp (value divisor : ℕ) : ℕ := if value = 0 then 0 else 1 + (value - 1) / divisor

def nvsBlobEntries (bytes : ℕ) : ℕ :=
  1 + divideRoundUp bytes kNvsEntryBytes + divideRoundUp bytes kNvsBlobChunkBytes

/-- The entries of a slot with so many bytes of payload. -/
def atomicSlotEntries (payloadBytes : ℕ) : ℕ := nvsBlobEntries (payloadBytes + kAtomicRecordEnvelopeBytes)

def kMainResetRecordMaximumBytes : ℕ := 9326
def kPreparedResetRecordMaximumBytes : ℕ := 5126

/-- What the capacity policy reserves for the two slots of the records. -/
def reservedRecordEntries : ℕ :=
  atomicSlotEntries kMainResetRecordMaximumBytes + atomicSlotEntries kPreparedResetRecordMaximumBytes

/-- The entries of the slot that holds a record. -/
def recordEntries (r : Record) : ℕ := atomicSlotEntries (encodeDataResetRecord r).length

variable {current proposed r : Record}

theorem divideRoundUp_eq {value : ℕ} (h : 0 < value) (divisor : ℕ) :
    divideRoundUp value divisor = 1 + (value - 1) / divisor := if_neg (by omega)

theorem atomicSlotEntries_eq (bytes : ℕ) : atomicSlotEntries bytes = 3 + (bytes + 23) / 32 + (bytes + 23) / 4000 := by
  have hpositive : 0 < bytes + 24 := by omega
  have hbytes : bytes + 24 - 1 = bytes + 23 := by omega
  have hentries : atomicSlotEntries bytes = 1 + divideRoundUp (bytes + 24) 32 + divideRoundUp (bytes + 24) 4000 := rfl
  rw [hentries, divideRoundUp_eq hpositive, divideRoundUp_eq hpositive, hbytes]
  omega

theorem recordEntries_eq (h : validRecord r = true) :
    recordEntries r = 3 + (textBytes r + 345) / 32 + (textBytes r + 345) / 4000 := by
  have hbytes : 322 + textBytes r + 23 = textBytes r + 345 := by omega
  rw [recordEntries, length_encode h, atomicSlotEntries_eq, hbytes]

theorem reservedRecordEntries_eq : reservedRecordEntries = 461 := by
  rw [reservedRecordEntries, atomicSlotEntries_eq, atomicSlotEntries_eq]
  rfl

/-! ### How long the texts are -/

/-- Before the end of an operation there is no receipt of it. -/
theorem textBytes_le_of_open (h : validRecord r = true) (hopen : r.state ≠ .completed) : textBytes r ≤ 4839 := by
  have hstorable := storable_of_valid h
  have hrequest := hstorable.prepare.bytes_le
  have hevidence := hstorable.prepared.bytes_le
  have hdigest := hstorable.configurationDigestAfter
  have hfailure := hstorable.failureCode
  have hnone : r.completionTimestamp = [] ∧ r.completionReceipt = [] := by
    simp only [validRecord, Bool.and_eq_true] at h
    have hcompletion := h.2
    rw [if_neg hopen] at hcompletion
    simpa using hcompletion
  rw [textBytes_eq, bytesOf_endTexts, hnone.1, hnone.2, List.length_nil]
  omega

/-- Before anything was measured there is only the request. -/
theorem textBytes_le_of_preparing (h : validRecord r = true) (hpreparing : r.state = .preparing) : textBytes r ≤ 451 := by
  have hstorable := storable_of_valid h
  have hrequest := hstorable.prepare.bytes_le
  have hdigest := hstorable.configurationDigestAfter
  have hfailure := hstorable.failureCode
  simp only [validRecord, Bool.and_eq_true] at h
  obtain ⟨⟨⟨⟨⟨⟨⟨⟨⟨⟨⟨⟨-, -⟩, -⟩, -⟩, -⟩, hprepared⟩, -⟩, habsent⟩, -⟩, -⟩, -⟩, -⟩, hcompletion⟩ := h
  have hnone : r.completionTimestamp = [] ∧ r.completionReceipt = [] := by
    rw [if_neg (by rw [hpreparing]; simp)] at hcompletion
    simpa using hcompletion
  have hevidence : r.prepared = {} := by
    rw [if_neg (by simpa [hpreparing] using habsent)] at hprepared
    simpa [noPreparedEvidence] using hprepared
  have hempty : bytesOf (evidenceTexts r.prepared) = 0 := by
    rw [hevidence]
    rfl
  rw [textBytes_eq, bytesOf_endTexts, hnone.1, hnone.2, List.length_nil]
  omega

/-! ### The reservation -/

/-- Every text of the record before is as long as it may be, and the texts of the completed one almost. -/
def Overfull (current proposed : Record) : Prop := textBytes current = 4839 ∧ 8967 ≤ textBytes proposed

/-- **The space reserved for two records is enough, unless their texts are as long as they may be.** -/
theorem reservation_covers_iff (h : validRecordUpdate current proposed = true) :
    recordEntries current + recordEntries proposed ≤ reservedRecordEntries ↔ ¬ Overfull current proposed := by
  obtain ⟨hcurrent, hproposed⟩ := validRecord_of_update h
  rw [recordEntries_eq hcurrent, recordEntries_eq hproposed, reservedRecordEntries_eq, Overfull]
  have hcurrentBytes := (storable_of_valid hcurrent).textBytes_le
  have hproposedBytes := (storable_of_valid hproposed).textBytes_le
  by_cases hcompleted : current.state = .completed
  · -- after a completed record only the request of another operation is stored
    have hid : proposed.prepare.operationId ≠ current.prepare.operationId := fun hid =>
      not_continued_of_completed (validContinuation_of_update h hid) hcompleted
    have hsuccessor := validSuccessor_of_update h hid
    simp only [validSuccessor, Bool.and_eq_true, decide_eq_true_eq] at hsuccessor
    have hpreparing := textBytes_le_of_preparing hproposed hsuccessor.1.1.2
    generalize textBytes current = a at *
    generalize textBytes proposed = b at *
    omega
  · have hopen := textBytes_le_of_open hcurrent hcompleted
    generalize textBytes current = a at *
    generalize textBytes proposed = b at *
    omega

/-! ### The longest records -/

/-- A reset whose texts are as long as they may be, before it is completed. -/
def longest : Record where
  state := .committing
  checkpoint := .verified
  prepare := {
    protocol := protocolVersion
    operationId := ascii "00000000-0000-0000-0000-000000000001"
    deviceId := ascii "00000000-0000-0000-0000-000000000002"
    targetGeneration := 1
    resetTimestamp := ascii "2026-01-01T00:00:00.0000000000000000000Z"
    planRevision := 1
    planDigest := List.replicate 64 48
    categories := [measurementHistoryCategory]
    expectedFirmwareVersion := List.replicate 32 49
    expectedBuildHashSet := true
    expectedBuildHash := List.replicate 64 97 }
  prepared := {
    firmwareVersion := List.replicate 32 49
    buildHash := List.replicate 64 97
    bootId := ascii "00000000-0000-0000-0000-000000000003"
    nextSequence := 1
    cardGeneration := 1
    sdStatus := List.replicate 32 111
    configurationDigestBefore := List.replicate 64 98
    receipt := List.replicate 4096 114
    receiptDigest := List.replicate 64 99 }
  pause := { startedUtcMs := 1, endedUtcMs := 2, evidenced := true }
  commit := { approvedBoundarySet := true, newNextSequence := 1, energyBaselineSet := true }
  configurationDigestAfter := List.replicate 64 98
  failureCode := List.replicate 80 102

/-- The same reset, completed. -/
def longestCompleted : Record :=
  { longest with
    state := .completed
    checkpoint := .completed
    completionTimestamp := List.replicate 40 116
    completionReceipt := List.replicate 4096 114 }

theorem longest_update : validRecordUpdate longest longestCompleted = true := by
  have hvalid : validRecord longest = true ∧ validRecord longestCompleted = true := by decide +kernel
  have hprepare : prepareRequestsEqual longest.prepare longestCompleted.prepare = true := decide_eq_true rfl
  have hprepared : preparedEvidenceEqual longest longestCompleted = true := decide_eq_true rfl
  have hcontinues : validContinuation longest longestCompleted = true := by
    simp only [validContinuation, hprepare, hprepared, Bool.or_true, Bool.and_true]
    decide +kernel
  simp only [validRecordUpdate, hvalid.1, hvalid.2, Bool.and_self, Bool.true_and]
  rw [if_neg (by decide +kernel)]
  exact hcontinues

theorem textBytes_longest : textBytes longest = 4839 ∧ textBytes longestCompleted = 8975 := by
  have hrequest : bytesOf (requestTexts longest.prepare) = 307 := by decide +kernel
  have hboot : (ascii "00000000-0000-0000-0000-000000000003").length = 36 := by decide
  have hevidence : bytesOf (evidenceTexts longest.prepared) = 4388 := by
    simp only [bytesOf, evidenceTexts, longest, List.map_cons, List.map_nil, List.length_replicate, hboot, List.sum_cons,
      List.sum_nil]
    rfl
  constructor
  · rw [textBytes_eq, hrequest, hevidence, bytesOf_endTexts]
    simp only [longest, List.length_replicate, List.length_nil]
  · have hprepare : longestCompleted.prepare = longest.prepare := rfl
    have hprepared : longestCompleted.prepared = longest.prepared := rfl
    rw [textBytes_eq, hprepare, hprepared, hrequest, hevidence, bytesOf_endTexts]
    simp only [longestCompleted, longest, List.length_replicate]

/-- **The longest records do not fit**: one entry is missing. -/
theorem reservation_exceeded : validRecordUpdate longest longestCompleted = true ∧
    recordEntries longest + recordEntries longestCompleted = reservedRecordEntries + 1 := by
  obtain ⟨hcurrent, hproposed⟩ := validRecord_of_update longest_update
  refine ⟨longest_update, ?_⟩
  rw [recordEntries_eq hcurrent, recordEntries_eq hproposed, reservedRecordEntries_eq, textBytes_longest.1,
    textBytes_longest.2]

/-- The request and its withdrawal fit. -/
theorem reservation_covers_withdrawn :
    recordEntries RecordStore.asked + recordEntries RecordStore.withdrawn ≤ reservedRecordEntries :=
  (@reservation_covers_iff RecordStore.asked RecordStore.withdrawn (by decide +kernel)).mpr
    (by unfold Overfull; decide +kernel)

end PowerMonitor.Reset.Capacity
