import Mathlib.Algebra.Order.BigOperators.Group.List
import Mathlib.Algebra.Order.Group.Nat
import PowerMonitor.Lib.Canonical
import PowerMonitor.Reset.Codec

/-! # The stored form of a record determines the record

Every valid record has a stored form, which reads back as the record (`reads_encodeBody`), and only the stored
form of a record is read (`consumes_readRecord`). -/

namespace PowerMonitor.Reset.RoundTrip

open PowerMonitor.Lib.Binary PowerMonitor.Lib.Reader PowerMonitor.Lib.Canonical
open PowerMonitor.Reset.Policy PowerMonitor.Reset.Codec

variable {r : Record}

/-! ### Flags and enumerations -/

theorem ofValue_state (s : State) : Codec.State.ofValue s.value = some s := by
  cases s <;> rfl

theorem ofValue_checkpoint (c : Checkpoint) : Codec.Checkpoint.ofValue c.value = some c := by
  cases c <;> rfl

theorem value_of_state {n : UInt8} {s : State} (h : Codec.State.ofValue n = some s) : s.value = n := by
  unfold Codec.State.ofValue at h
  split at h <;> first | (cases h; rfl) | cases h

theorem value_of_checkpoint {n : UInt8} {c : Checkpoint} (h : Codec.Checkpoint.ofValue n = some c) : c.value = n := by
  unfold Codec.Checkpoint.ofValue at h
  split at h <;> first | (cases h; rfl) | cases h

/-- The flags of six conditions. -/
def flagsOf (hash card boundary baseline range evidenced : Bool) : UInt8 :=
  flagIf hash expectedBuildHashFlag ||| flagIf card expectedCardGenerationFlag ||| flagIf boundary approvedBoundaryFlag |||
    flagIf baseline commitEnergyBaselineFlag ||| flagIf range prepareDrainSequenceRangeFlag |||
    flagIf evidenced measurementPauseEvidencedFlag

theorem hasFlag_flagsOf : ∀ hash card boundary baseline range evidenced : Bool,
    let flags := flagsOf hash card boundary baseline range evidenced
    flags &&& ~~~knownFlags = 0 ∧ hasFlag flags expectedBuildHashFlag = hash ∧
      hasFlag flags expectedCardGenerationFlag = card ∧ hasFlag flags approvedBoundaryFlag = boundary ∧
      hasFlag flags commitEnergyBaselineFlag = baseline ∧ hasFlag flags prepareDrainSequenceRangeFlag = range ∧
      hasFlag flags measurementPauseEvidencedFlag = evidenced := by
  decide

/-- Known flags are those of their conditions. -/
theorem flagsOf_hasFlag (flags : UInt8) (h : flags &&& ~~~knownFlags = 0) :
    flagsOf (hasFlag flags expectedBuildHashFlag) (hasFlag flags expectedCardGenerationFlag)
      (hasFlag flags approvedBoundaryFlag) (hasFlag flags commitEnergyBaselineFlag)
      (hasFlag flags prepareDrainSequenceRangeFlag) (hasFlag flags measurementPauseEvidencedFlag) = flags := by
  have hall : ∀ n : Fin 256, UInt8.ofNat n &&& ~~~knownFlags = 0 →
      flagsOf (hasFlag (UInt8.ofNat n) expectedBuildHashFlag) (hasFlag (UInt8.ofNat n) expectedCardGenerationFlag)
        (hasFlag (UInt8.ofNat n) approvedBoundaryFlag) (hasFlag (UInt8.ofNat n) commitEnergyBaselineFlag)
        (hasFlag (UInt8.ofNat n) prepareDrainSequenceRangeFlag)
        (hasFlag (UInt8.ofNat n) measurementPauseEvidencedFlag) = UInt8.ofNat n := by
    decide +kernel
  have hflags := hall ⟨flags.toNat, flags.toNat_lt⟩
  simp only [UInt8.ofNat_toNat] at hflags
  exact hflags h

/-! ### What a valid record's texts are -/

theorem length_of_printable {value : Bytes} {maximum : ℕ} (h : boundedPrintable value maximum = true) :
    value.length ≤ maximum := by
  simp only [boundedPrintable, Bool.and_eq_true, decide_eq_true_eq] at h
  exact h.1.1

theorem length_of_hex {value : Bytes} {length : ℕ} (h : lowercaseHex value length = true) : value.length = length := by
  simp only [lowercaseHex, Bool.and_eq_true, decide_eq_true_eq] at h
  exact h.1

theorem length_of_uuid {value : Bytes} (h : lowercaseUuid value = true) : value.length = 36 := by
  simp only [lowercaseUuid, Bool.and_eq_true, decide_eq_true_eq] at h
  exact h.1

theorem length_of_failureCode {value : Bytes} (h : safeFailureCode value = true) : value.length ≤ 80 := by
  cases value with
  | nil => exact Nat.zero_le _
  | cons first rest =>
    simp only [safeFailureCode, Bool.and_eq_true, decide_eq_true_eq] at h
    exact h.1.1

/-- What the stored form relies on in a request. -/
structure StorableRequest (p : PrepareRequest) : Prop where
  protocol : p.protocol.length = 16
  operationId : p.operationId.length = 36
  deviceId : p.deviceId.length = 36
  resetTimestamp : p.resetTimestamp.length ≤ 40
  planDigest : p.planDigest.length = 64
  categories : p.categories = [measurementHistoryCategory]
  expectedFirmwareVersion : p.expectedFirmwareVersion.length ≤ 32
  expectedBuildHash : p.expectedBuildHash.length ≤ 64
  noBuildHash : p.expectedBuildHashSet = false → p.expectedBuildHash = []
  noCardGeneration : p.expectedCardGenerationSet = false → p.expectedCardGeneration = 0

/-- The lengths of what was measured. -/
structure StorableEvidence (p : PreparedEvidence) : Prop where
  firmwareVersion : p.firmwareVersion.length ≤ 32
  buildHash : p.buildHash.length ≤ 64
  bootId : p.bootId.length ≤ 36
  sdStatus : p.sdStatus.length ≤ 32
  configurationDigestBefore : p.configurationDigestBefore.length ≤ 64
  receipt : p.receipt.length ≤ 4096
  receiptDigest : p.receiptDigest.length ≤ 64

/-- **What the stored form relies on**: the lengths of the texts, and that an absent part is empty. -/
structure Storable (r : Record) : Prop where
  prepare : StorableRequest r.prepare
  prepared : StorableEvidence r.prepared
  configurationDigestAfter : r.configurationDigestAfter.length ≤ 64
  completionTimestamp : r.completionTimestamp.length ≤ 40
  completionReceipt : r.completionReceipt.length ≤ 4096
  failureCode : r.failureCode.length ≤ 80

theorem storable_request {p : PrepareRequest} (h : validPrepareRequest p = true) : StorableRequest p := by
  simp only [validPrepareRequest, Bool.and_eq_true, decide_eq_true_eq] at h
  obtain ⟨⟨⟨⟨⟨⟨⟨⟨⟨⟨⟨⟨⟨⟨hprotocol, hoperation⟩, hdevice⟩, -⟩, htimestamp⟩, -⟩, hdigest⟩, hcategories⟩, -⟩, -⟩, -⟩, -⟩,
    hfirmware⟩, hhash⟩, hcard⟩ := h
  have htext : boundedPrintable p.resetTimestamp 40 = true := by
    simp only [validResetTimestamp, Bool.and_eq_true] at htimestamp
    exact htimestamp.2
  constructor
  · rw [hprotocol]
    decide
  · exact length_of_uuid hoperation
  · exact length_of_uuid hdevice
  · exact length_of_printable htext
  · exact length_of_hex hdigest
  · simpa [categoriesSupported] using hcategories
  · exact length_of_printable hfirmware
  · split_ifs at hhash with hset
    · exact Nat.le_of_eq (length_of_hex hhash)
    · simp only [decide_eq_true_eq] at hhash
      simp [hhash]
  · intro hset
    simpa [hset] using hhash
  · intro hset
    simpa [hset] using hcard

theorem storable_evidence (h : validPreparedEvidence r = true) : StorableEvidence r.prepared := by
  simp only [validPreparedEvidence, Bool.and_eq_true] at h
  obtain ⟨⟨⟨⟨⟨⟨⟨⟨⟨⟨⟨⟨⟨⟨⟨hfirmware, hhash⟩, hboot⟩, -⟩, -⟩, -⟩, hstatus⟩, hdigest⟩, hreceipt⟩, hreceiptDigest⟩, -⟩, -⟩, -⟩, -⟩,
    -⟩, -⟩ := h
  constructor
  · exact length_of_printable hfirmware
  · exact Nat.le_of_eq (length_of_hex hhash)
  · exact Nat.le_of_eq (length_of_uuid hboot)
  · exact length_of_printable hstatus
  · exact Nat.le_of_eq (length_of_hex hdigest)
  · exact length_of_printable hreceipt
  · exact Nat.le_of_eq (length_of_hex hreceiptDigest)

/-- **A valid record is storable.** -/
theorem storable_of_valid (h : validRecord r = true) : Storable r := by
  simp only [validRecord, Bool.and_eq_true] at h
  obtain ⟨⟨⟨⟨⟨⟨⟨⟨⟨⟨⟨⟨-, -⟩, hprepare⟩, -⟩, hfailure⟩, hprepared⟩, -⟩, -⟩, -⟩, -⟩, -⟩, hdigest⟩, hcompletion⟩ := h
  constructor
  · exact storable_request hprepare
  · split_ifs at hprepared with hpresent
    · exact storable_evidence hprepared
    · simp only [noPreparedEvidence, decide_eq_true_eq] at hprepared
      rw [hprepared]
      constructor <;> exact Nat.zero_le _
  · split_ifs at hdigest with hverified
    · simp only [Bool.and_eq_true] at hdigest
      exact Nat.le_of_eq (length_of_hex hdigest.1)
    · simp only [Bool.or_eq_true, decide_eq_true_eq] at hdigest
      rcases hdigest with hnone | hhex
      · simp [hnone]
      · exact Nat.le_of_eq (length_of_hex hhex)
  · split_ifs at hcompletion with hcompleted
    · simp only [Bool.and_eq_true] at hcompletion
      exact length_of_printable hcompletion.1
    · simp only [Bool.and_eq_true, decide_eq_true_eq] at hcompletion
      simp [hcompletion.1]
  · split_ifs at hcompletion with hcompleted
    · simp only [Bool.and_eq_true] at hcompletion
      exact length_of_printable hcompletion.2
    · simp only [Bool.and_eq_true, decide_eq_true_eq] at hcompletion
      simp [hcompletion.2]
  · exact length_of_failureCode hfailure

/-! ### Size -/

/-- The length of the texts of a record. -/
def textBytes (r : Record) : ℕ := ((stringFields r).map List.length).sum

theorem length_putText (value : Bytes) : (putText value).length = value.length + 2 := by
  simp only [putText, putUInt16, List.length_append, length_leBytes]
  omega

theorem length_flatMap_putText (texts : List Bytes) :
    (texts.flatMap putText).length = (texts.map List.length).sum + 2 * texts.length := by
  induction texts with
  | nil => rfl
  | cons text texts ih =>
    rw [List.flatMap_cons, List.length_append, length_putText, ih, List.map_cons, List.sum_cons, List.length_cons]
    omega

theorem length_flatMap_putUInt64 (numbers : List UInt64) : (numbers.flatMap putUInt64).length = 8 * numbers.length := by
  induction numbers with
  | nil => rfl
  | cons number numbers ih =>
    rw [List.flatMap_cons, List.length_append, ih, putUInt64, length_leBytes, List.length_cons]
    omega

theorem length_encodeBody (r : Record) : (encodeBody r).length = 318 + textBytes r := by
  have hnumbers : (numericFields r).length = 33 := rfl
  have htexts : (stringFields r).length = 19 := rfl
  simp only [encodeBody, List.length_append, putUInt32, putUInt16, length_leBytes, length_flatMap_putUInt64,
    length_flatMap_putText, hnumbers, htexts, List.length_cons, List.length_nil, textBytes]
  omega

/-- The hash is stored if it is expected. -/
theorem StorableRequest.storedHash {p : PrepareRequest} (h : StorableRequest p) :
    (if p.expectedBuildHashSet then p.expectedBuildHash else []) = p.expectedBuildHash := by
  split_ifs with hset
  · rfl
  · exact (h.noBuildHash (by simpa using hset)).symm

theorem StorableRequest.storedCardGeneration {p : PrepareRequest} (h : StorableRequest p) :
    (if p.expectedCardGenerationSet then p.expectedCardGeneration else 0) = p.expectedCardGeneration := by
  split_ifs with hset
  · rfl
  · exact (h.noCardGeneration (by simpa using hset)).symm

/-- The texts of the request, of what was measured, and of the end of an operation. -/
def requestTexts (p : PrepareRequest) : List Bytes :=
  [p.protocol, p.operationId, p.deviceId, p.resetTimestamp, p.planDigest, p.categories.headD [],
    p.expectedFirmwareVersion, if p.expectedBuildHashSet then p.expectedBuildHash else []]

def evidenceTexts (p : PreparedEvidence) : List Bytes :=
  [p.firmwareVersion, p.buildHash, p.bootId, p.sdStatus, p.configurationDigestBefore, p.receipt, p.receiptDigest]

def endTexts (r : Record) : List Bytes :=
  [r.configurationDigestAfter, r.completionTimestamp, r.completionReceipt, r.failureCode]

def bytesOf (texts : List Bytes) : ℕ := (texts.map List.length).sum

theorem textBytes_eq (r : Record) :
    textBytes r = bytesOf (requestTexts r.prepare) + bytesOf (evidenceTexts r.prepared) + bytesOf (endTexts r) := by
  have hsplit : stringFields r = requestTexts r.prepare ++ evidenceTexts r.prepared ++ endTexts r := rfl
  rw [textBytes, hsplit, List.map_append, List.map_append, List.sum_append, List.sum_append]
  rfl

theorem bytesOf_le {texts : List Bytes} {limits : List ℕ}
    (h : List.Forall₂ (· ≤ ·) (texts.map List.length) limits) : bytesOf texts ≤ limits.sum :=
  h.sum_le_sum

theorem StorableRequest.bytes_le {p : PrepareRequest} (h : StorableRequest p) : bytesOf (requestTexts p) ≤ 307 := by
  have hcategory : measurementHistoryCategory.length ≤ 19 := by decide
  have hlimits : List.Forall₂ (· ≤ ·) ((requestTexts p).map List.length) [16, 36, 36, 40, 64, 19, 32, 64] := by
    simp only [requestTexts, h.storedHash, h.categories, List.headD_cons, List.map_cons, List.map_nil]
    exact .cons (Nat.le_of_eq h.protocol) (.cons (Nat.le_of_eq h.operationId) (.cons (Nat.le_of_eq h.deviceId)
      (.cons h.resetTimestamp (.cons (Nat.le_of_eq h.planDigest) (.cons hcategory (.cons h.expectedFirmwareVersion
      (.cons h.expectedBuildHash .nil)))))))
  exact bytesOf_le hlimits

theorem StorableEvidence.bytes_le {p : PreparedEvidence} (h : StorableEvidence p) : bytesOf (evidenceTexts p) ≤ 4388 := by
  have hlimits : List.Forall₂ (· ≤ ·) ((evidenceTexts p).map List.length) [32, 64, 36, 32, 64, 4096, 64] :=
    .cons h.firmwareVersion (.cons h.buildHash (.cons h.bootId (.cons h.sdStatus (.cons h.configurationDigestBefore
      (.cons h.receipt (.cons h.receiptDigest .nil))))))
  exact bytesOf_le hlimits

theorem bytesOf_endTexts (r : Record) : bytesOf (endTexts r) = r.configurationDigestAfter.length +
    (r.completionTimestamp.length + (r.completionReceipt.length + r.failureCode.length)) := rfl

theorem Storable.textBytes_le (h : Storable r) : textBytes r ≤ 8975 := by
  have hrequest := h.prepare.bytes_le
  have hevidence := h.prepared.bytes_le
  obtain ⟨-, -, hdigest, htimestamp, hreceipt, hfailure⟩ := h
  rw [textBytes_eq, bytesOf_endTexts]
  omega

/-- Nothing of a valid record is too long to be stored. -/
theorem encode_eq (h : validRecord r = true) :
    encodeDataResetRecord r = encodeBody r ++ putUInt32 (crc32 (encodeBody r)) := by
  have hlength := length_encodeBody r
  have htexts := (storable_of_valid h).textBytes_le
  have hmaximum : maximumEncodedSize = 16384 := rfl
  unfold encodeDataResetRecord
  rw [if_neg (by simp [h])]
  simp only
  rw [if_neg (by omega)]

theorem length_encode (h : validRecord r = true) : (encodeDataResetRecord r).length = 322 + textBytes r := by
  rw [encode_eq h, List.length_append, length_encodeBody, putUInt32, length_leBytes]
  omega

/-! ### Reading what was written -/

/-- **What was written of a storable record is read back.** -/
theorem reads_encodeBody (h : Storable r) : Reads readRecord (encodeBody r) r := by
  obtain ⟨hp, he, hdigest, htimestamp, hreceipt, hfailure⟩ := h
  have hcategory : measurementHistoryCategory.length ≤ 32 := by decide
  have hprotocol : r.prepare.protocol.length ≤ 32 := by rw [hp.protocol]; omega
  have hflags : recordFlags r = flagsOf r.prepare.expectedBuildHashSet r.prepare.expectedCardGenerationSet
      r.commit.approvedBoundarySet r.commit.energyBaselineSet r.prepared.drainSequenceRangeSet r.pause.evidenced := rfl
  obtain ⟨hknown, hhash, hcard, hboundary, hbaseline, hrange, hevidenced⟩ := hasFlag_flagsOf
    r.prepare.expectedBuildHashSet r.prepare.expectedCardGenerationSet r.commit.approvedBoundarySet
    r.commit.energyBaselineSet r.prepared.drainSequenceRangeSet r.pause.evidenced
  simp only [← hflags] at hknown hhash hcard hboundary hbaseline hrange hevidenced
  simp only [encodeBody, numericFields, stringFields, hp.storedHash, hp.storedCardGeneration, hp.categories,
    List.headD_cons, List.flatMap_cons, List.flatMap_nil, List.append_assoc, List.cons_append, List.nil_append]
  unfold readRecord
  -- the header
  refine Reads.bind undoes_readUInt32 trivial (Reads.bind undoes_readUInt16 trivial
    (Reads.bind undoes_readUInt16 trivial (Reads.bind undoes_readUInt32 trivial ?_)))
  refine Reads.bind undoes_readUInt8 trivial (Reads.bind undoes_readUInt8 trivial
    (Reads.bind undoes_readUInt8 trivial (Reads.bind undoes_readUInt8 trivial ?_)))
  rw [if_neg (by simp [hknown])]
  -- the numbers
  iterate 33 refine Reads.bind undoes_readUInt64 trivial ?_
  -- the texts
  refine Reads.bind (undoes_readText (by omega)) hprotocol ?_
  refine Reads.bind (undoes_readText (by omega)) (Nat.le_of_eq hp.operationId) ?_
  refine Reads.bind (undoes_readText (by omega)) (Nat.le_of_eq hp.deviceId) ?_
  refine Reads.bind (undoes_readText (by omega)) hp.resetTimestamp ?_
  refine Reads.bind (undoes_readText (by omega)) (Nat.le_of_eq hp.planDigest) ?_
  refine Reads.bind (undoes_readText (by omega)) hcategory ?_
  refine Reads.bind (undoes_readText (by omega)) hp.expectedFirmwareVersion ?_
  refine Reads.bind (undoes_readText (by omega)) hp.expectedBuildHash ?_
  refine Reads.bind (undoes_readText (by omega)) he.firmwareVersion ?_
  refine Reads.bind (undoes_readText (by omega)) he.buildHash ?_
  refine Reads.bind (undoes_readText (by omega)) he.bootId ?_
  refine Reads.bind (undoes_readText (by omega)) he.sdStatus ?_
  refine Reads.bind (undoes_readText (by omega)) he.configurationDigestBefore ?_
  refine Reads.bind (undoes_readText (by omega)) he.receipt ?_
  refine Reads.bind (undoes_readText (by omega)) he.receiptDigest ?_
  refine Reads.bind (undoes_readText (by omega)) hdigest ?_
  refine Reads.bind (undoes_readText (by omega)) htimestamp ?_
  refine Reads.bind (undoes_readText (by omega)) hreceipt ?_
  refine Reads.bind (undoes_readText (by omega)) hfailure ?_
  -- what no flag announces is empty
  rw [if_neg (by
    rw [hhash, hcard, not_or]
    constructor
    · cases hset : r.prepare.expectedBuildHashSet with
      | true => simp
      | false => simp [hp.noBuildHash hset]
    · cases hset : r.prepare.expectedCardGenerationSet with
      | true => simp
      | false => simp [hp.noCardGeneration hset])]
  refine Reads.lift (ofValue_state r.state) (Reads.lift (ofValue_checkpoint r.checkpoint) ?_)
  rw [hhash, hcard, hboundary, hbaseline, hrange, hevidenced, ← hp.categories]
  exact Reads.pure _

/-! ### Writing what was read -/

/-- **Only what was written of a record is read.** -/
theorem consumes_readRecord : Consumes readRecord fun r bytes => encodeBody r = bytes := by
  unfold readRecord
  -- the header
  refine .bind undoes_readUInt32 fun magicRead _ => .bind undoes_readUInt16 fun version _ =>
    .bind undoes_readUInt16 fun reserved _ => .bind undoes_readUInt32 fun schemaVersion _ => ?_
  refine .bind undoes_readUInt8 fun state _ => .bind undoes_readUInt8 fun checkpoint _ =>
    .bind undoes_readUInt8 fun flags _ => .bind undoes_readUInt8 fun byteReserved _ => ?_
  refine .ite (fun _ => .failure) fun hheader => ?_
  simp only [ne_eq, not_or, not_not] at hheader
  obtain ⟨rfl, rfl, rfl, rfl, hknown⟩ := hheader
  -- the numbers and the texts
  iterate 5 refine .bind undoes_readUInt64 fun _ _ => ?_
  refine .bind undoes_readUInt64 fun expectedCardGeneration _ => ?_
  iterate 27 refine .bind undoes_readUInt64 fun _ _ => ?_
  iterate 7 refine .bind (undoes_readText (by omega)) fun _ _ => ?_
  refine .bind (undoes_readText (by omega)) fun expectedBuildHash _ => ?_
  iterate 11 refine .bind (undoes_readText (by omega)) fun _ _ => ?_
  refine .ite (fun _ => .failure) fun habsent => ?_
  refine .lift fun state' hstate => .lift fun checkpoint' hcheckpoint => .pure ?_
  -- what no flag announces is empty
  have hhash : (if hasFlag flags expectedBuildHashFlag then expectedBuildHash else []) = expectedBuildHash := by
    split_ifs with hset
    · rfl
    · by_contra hne
      exact habsent (Or.inl (by simp [hset, Ne.symm hne]))
  have hcard : (if hasFlag flags expectedCardGenerationFlag then expectedCardGeneration else 0) =
      expectedCardGeneration := by
    split_ifs with hset
    · rfl
    · by_contra hne
      exact habsent (Or.inr (by simp [hset, Ne.symm hne]))
  have hflags := flagsOf_hasFlag flags hknown
  rw [flagsOf] at hflags
  simp only [encodeBody, numericFields, stringFields, recordFlags, hhash, hcard, hflags, value_of_state hstate,
    value_of_checkpoint hcheckpoint, List.headD_cons, List.flatMap_cons, List.flatMap_nil, List.append_assoc,
    List.cons_append, List.nil_append]

/-! ### Encoding and decoding -/

/-- What is stored of a valid record reads back as the record. -/
theorem decode_encode (h : validRecord r = true) : encodeDataResetRecord r ≠ [] ∧
    decodeDataResetRecord (encodeDataResetRecord r) = some r := by
  have hlength := length_encode h
  have htexts := (storable_of_valid h).textBytes_le
  have hmaximum : maximumEncodedSize = 16384 := rfl
  have hne : encodeDataResetRecord r ≠ [] := by
    intro hnil
    rw [hnil, List.length_nil] at hlength
    omega
  refine ⟨hne, ?_⟩
  have hcrc : (putUInt32 (crc32 (encodeBody r))).length = 4 := length_leBytes 4 _
  have hbody : (encodeDataResetRecord r).length - 4 = (encodeBody r).length := by
    rw [encode_eq h, List.length_append, hcrc]
    omega
  have hread := reads_encodeBody (storable_of_valid h) []
  rw [List.append_nil] at hread
  unfold decodeDataResetRecord
  rw [if_neg (by omega), hbody]
  simp only [encode_eq h, List.take_left, List.drop_left]
  rw [if_neg (by rw [putUInt32, leNat_leBytes_of_lt (crc32 (encodeBody r)).toNat_lt]; simp), hread]
  simp [h]

/-- **The codec is a bijection onto what it accepts.** -/
theorem codec_bijective :
    (∀ r, validRecord r = true → encodeDataResetRecord r ≠ [] ∧
      decodeDataResetRecord (encodeDataResetRecord r) = some r) ∧
    ∀ encoded r, decodeDataResetRecord encoded = some r → encodeDataResetRecord r = encoded := by
  constructor
  · exact fun r h => decode_encode h
  · intro encoded r h
    unfold decodeDataResetRecord at h
    split_ifs at h with hsize
    simp only at h
    split_ifs at h with hcrc
    split at h
    · cases h
    · next record rest hread =>
      split_ifs at h with hrest hvalid
      cases h
      simp only [not_not] at hrest hcrc
      subst hrest
      obtain ⟨bytes, hbytes, hencode⟩ := consumes_readRecord _ _ _ hread
      rw [List.append_nil] at hbytes
      have htail : (encoded.drop (encoded.length - 4)).length = 4 := by
        rw [List.length_drop]
        omega
      have hchecksum : putUInt32 (crc32 (encodeBody r)) = encoded.drop (encoded.length - 4) := by
        have hbytes4 := leBytes_leNat (encoded.drop (encoded.length - 4))
        rw [htail] at hbytes4
        rw [hencode, ← hbytes, putUInt32, hcrc, hbytes4]
      rw [encode_eq hvalid, hchecksum, hencode, ← hbytes, List.take_append_drop]

end PowerMonitor.Reset.RoundTrip
