import PowerMonitor.Lib.Repeated
import PowerMonitor.Reset.EventJournal

/-! # The stored form of the event journal

A fixed header, the checksums of all places, the events of a journal that is not completed, and a CRC-32 over all of
them.

* `encode_eq`, `length_encode`: what is stored of a valid journal fits in what is reserved for it.
* `decode_encode`, `encode_decode`: it is read back, and nothing else is.
* `eq_nil_of_encode_append`: no stored form begins another one. -/

namespace PowerMonitor.Reset.EventCodec

open PowerMonitor.Lib.Binary PowerMonitor.Lib.Reader PowerMonitor.Lib.Canonical PowerMonitor.Lib.Repeated
open PowerMonitor.Reset.EventJournal

def kEventJournalMagic : UInt32 := 0x454A4D50
def kEventJournalFormatVersion : UInt32 := 1
def kEventJournalMaximumBytes : ℕ := 11600
def kCompletedEventJournalMaximumBytes : ℕ := 208
def kMinimumEncodedBytes : ℕ := 188

/-- The stored number of a state. -/
def EventJournalState.value : EventJournalState → UInt32
  | .staged => 1
  | .completed => 2

def EventJournalState.ofValue : UInt32 → Option EventJournalState
  | 1 => some .staged
  | 2 => some .completed
  | _ => none

/-! ### Writing -/

def putEvent (event : PreservedEvent) : Bytes :=
  lengthText event.code ++ (lengthText event.severity ++ (lengthText event.detail ++ (lengthText event.bootId ++
    (putUInt64 event.utcMs ++ (putUInt64 event.sourceEventId ++ putUInt64 event.requiredOccurrences)))))

/-- The events that are stored: none of a completed journal. -/
def storedEvents (record : EventJournalRecord) : List PreservedEvent :=
  if record.state ≠ .completed then record.events.toList.take record.eventCount.toNat else []

def encodeBody (record : EventJournalRecord) : Bytes :=
  putUInt32 kEventJournalMagic ++ (putUInt32 kEventJournalFormatVersion ++ (putUInt32 record.schemaVersion ++
    (putUInt32 (EventJournalState.value record.state) ++ (lengthText record.operationId ++ (lengthText record.deviceId ++
      (putUInt64 record.sourceGeneration ++ (putUInt64 record.targetGeneration ++ (putUInt64 record.cardGeneration ++
        (putUInt64 record.eventCount ++ (record.eventCrc32.toList.flatMap putUInt32 ++
          (storedEvents record).flatMap putEvent))))))))))

/-- The stored form; empty if the journal is not valid or does not fit. -/
def encodeDataResetEventJournal (record : EventJournalRecord) : Bytes :=
  if !validEventJournalRecord record then []
  else
    let output := encodeBody record
    if output.length + 4 > kEventJournalMaximumBytes then []
    else output ++ putUInt32 (crc32 output)

/-! ### Reading -/

/-- A text with its length in eight bytes, of at most `maximum` bytes. -/
def readText (maximum : ℕ) : ByteReader Bytes := do
  let length ← readUInt64
  if length.toNat > maximum then failure
  else readBytes length.toNat

def readEvent : ByteReader PreservedEvent := do
  let code ← readText 64
  let severity ← readText 16
  let detail ← readText 512
  let bootId ← readText 64
  let utcMs ← readUInt64
  let sourceEventId ← readUInt64
  let requiredOccurrences ← readUInt64
  return { code, severity, detail, bootId, utcMs, sourceEventId, requiredOccurrences }

def readRecord : ByteReader EventJournalRecord := do
  let magicRead ← readUInt32
  let format ← readUInt32
  let schemaVersion ← readUInt32
  let state ← readUInt32
  if magicRead ≠ kEventJournalMagic ∨ format ≠ kEventJournalFormatVersion ∨ state > 255 then failure
  else
    let operationId ← readText 36
    let deviceId ← readText 36
    let sourceGeneration ← readUInt64
    let targetGeneration ← readUInt64
    let cardGeneration ← readUInt64
    let eventCount ← readUInt64
    if eventCount.toNat > kMaximumPreservedResetEvents then failure
    else
      -- a number of no state is refused at the end of the source's reader
      let state ← StateT.lift (EventJournalState.ofValue state)
      let checksums ← readMany readUInt32 kMaximumPreservedResetEvents
      let events ← readMany readEvent (if state ≠ .completed then eventCount.toNat else 0)
      return {
        schemaVersion, state, operationId, deviceId, sourceGeneration, targetGeneration, cardGeneration, eventCount
        eventCrc32 := slots _ 0 checksums
        events := slots _ {} events }

def decodeDataResetEventJournal (encoded : Bytes) : Option EventJournalRecord :=
  if encoded.length < kMinimumEncodedBytes ∨ encoded.length > kEventJournalMaximumBytes then none
  else
    let body := encoded.take (encoded.length - 4)
    let checksum := encoded.drop (encoded.length - 4)
    if (crc32 body).toNat ≠ leNat checksum then none
    else
      match readRecord.run body with
      | none => none
      | some (record, rest) =>
        if rest ≠ [] then none else if validEventJournalRecord record then some record else none

/-! ### Texts and events -/

theorem undoes_readText {maximum : ℕ} (h : maximum < 2 ^ 64) :
    Undoes (readText maximum) lengthText fun text => text.length ≤ maximum where
  reads text rest htext := by
    have hlength : (UInt64.ofNat text.length).toNat = text.length := UInt64.toNat_ofNat_of_lt' (Nat.lt_of_le_of_lt htext h)
    have hput : lengthText text ++ rest = putUInt64 (UInt64.ofNat text.length) ++ (text ++ rest) := by
      rw [lengthText, putUInt64, hlength, List.append_assoc]
    rw [readText, hput, undoes_readUInt64.run_bind _ trivial, hlength, if_neg (by omega)]
    exact (undoes_readBytes text.length).reads text rest rfl
  written {input text rest} hread := by
    obtain ⟨length, middle, hlength, hrest⟩ := run_bind_eq_some.mp hread
    obtain ⟨-, rfl⟩ := undoes_readUInt64.written hlength
    split_ifs at hrest with hlong
    · cases hrest
    · obtain ⟨htext, rfl⟩ := (undoes_readBytes length.toNat).written hrest
      refine ⟨by omega, ?_⟩
      rw [lengthText, putUInt64, htext, List.append_assoc]
      rfl

theorem length_lengthText (value : Bytes) : (lengthText value).length = value.length + 8 := by
  rw [lengthText, List.length_append, length_leBytes]
  omega

/-- The texts of an event fit. -/
structure StorableEvent (event : PreservedEvent) : Prop where
  code : event.code.length ≤ 64
  severity : event.severity.length ≤ 16
  detail : event.detail.length ≤ 512
  bootId : event.bootId.length ≤ 64

theorem undoes_readEvent : Undoes readEvent putEvent StorableEvent := by
  refine undoes_of_reads (fun event h => ?_) ?_
  · unfold readEvent putEvent
    refine Reads.bind (undoes_readText (by omega)) h.code (Reads.bind (undoes_readText (by omega)) h.severity
      (Reads.bind (undoes_readText (by omega)) h.detail (Reads.bind (undoes_readText (by omega)) h.bootId ?_)))
    refine Reads.bind undoes_readUInt64 trivial (Reads.bind undoes_readUInt64 trivial ?_)
    rw [← List.append_nil (putUInt64 event.requiredOccurrences)]
    exact Reads.bind undoes_readUInt64 trivial (Reads.pure _)
  · unfold readEvent
    refine .bind (undoes_readText (by omega)) fun code hcode => .bind (undoes_readText (by omega)) fun severity hseverity =>
      .bind (undoes_readText (by omega)) fun detail hdetail => .bind (undoes_readText (by omega)) fun bootId hbootId => ?_
    refine .bind undoes_readUInt64 fun utcMs _ => .bind undoes_readUInt64 fun sourceEventId _ =>
      .bind undoes_readUInt64 fun requiredOccurrences _ => .pure ⟨⟨hcode, hseverity, hdetail, hbootId⟩, ?_⟩
    simp only [putEvent, List.append_nil]

/-- The four texts, their lengths and the three numbers. -/
theorem length_putEvent_le {event : PreservedEvent} (h : StorableEvent event) : (putEvent event).length ≤ 712 := by
  obtain ⟨hcode, hseverity, hdetail, hbootId⟩ := h
  simp only [putEvent, List.length_append, length_lengthText, putUInt64, length_leBytes]
  omega

/-! ### Valid journals -/

/-- What of a journal must fit to be stored. -/
structure Storable (record : EventJournalRecord) : Prop where
  operationId : record.operationId.length = 36
  deviceId : record.deviceId.length = 36
  eventCount : record.eventCount.toNat ≤ kMaximumPreservedResetEvents
  /-- places that are not stored are empty -/
  empty : ∀ index : Fin kMaximumPreservedResetEvents,
    (if record.state ≠ .completed then record.eventCount.toNat else 0) ≤ index.val → record.events.get index = {}
  events : ∀ event ∈ storedEvents record, StorableEvent event

theorem storable_of_event {event : PreservedEvent} (h : validEvent event = true) : StorableEvent event := by
  simp only [validEvent, Bool.and_eq_true, decide_eq_true_eq] at h
  obtain ⟨⟨⟨⟨⟨⟨⟨⟨-, hcode⟩, -⟩, hseverity⟩, hdetail⟩, hbootId⟩, -⟩, -⟩, -⟩ := h
  exact ⟨hcode, hseverity, hdetail, hbootId⟩

/-- What a place of a valid journal holds. -/
theorem validPlace_cases {record : EventJournalRecord} {index : Fin kMaximumPreservedResetEvents}
    (h : validPlace record index = true) :
    (record.state = .staged ∧ index.val < record.eventCount.toNat ∧ validEvent (record.events.get index) = true) ∨
      (¬ (record.state = .staged ∧ index.val < record.eventCount.toNat) ∧ record.events.get index = {}) := by
  unfold validPlace at h
  dsimp only at h
  split at h
  · next hused =>
    simp only [Bool.and_eq_true, decide_eq_true_eq] at hused h
    exact Or.inl ⟨hused.1, hused.2, h.1.1⟩
  · next hused =>
    simp only [Bool.and_eq_true, decide_eq_true_eq, eventEqual] at hused h
    exact Or.inr ⟨hused, h.1⟩

theorem storable_of_valid {record : EventJournalRecord} (h : validEventJournalRecord record = true) : Storable record := by
  simp only [validEventJournalRecord, Bool.and_eq_true, decide_eq_true_eq, List.all_eq_true] at h
  obtain ⟨⟨⟨⟨⟨⟨⟨-, hoperation⟩, hdevice⟩, -⟩, -⟩, -⟩, hcount⟩, hplaces⟩ := h
  have huuid {value : Bytes} (h : DrainJournal.uuid value = true) : value.length = 36 := by
    simp only [DrainJournal.uuid, Policy.lowercaseUuid, Bool.and_eq_true, decide_eq_true_eq] at h
    exact h.1
  refine ⟨huuid hoperation, huuid hdevice, hcount, fun index hindex => ?_, fun event hevent => ?_⟩
  · rcases validPlace_cases (hplaces index (List.mem_finRange _)) with ⟨hstaged, hused, -⟩ | ⟨-, hempty⟩
    · simp only [hstaged, ne_eq, reduceCtorEq, not_false_eq_true, if_true] at hindex
      omega
    · exact hempty
  · unfold storedEvents at hevent
    split at hevent
    · next hstate =>
      obtain ⟨i, hi, rfl⟩ := List.getElem_of_mem hevent
      rw [List.length_take, Vector.length_toList] at hi
      have hplace := validPlace_cases (hplaces ⟨i, by omega⟩ (List.mem_finRange _))
      have hstaged : record.state = .staged := by
        cases hcase : record.state with
        | staged => rfl
        | completed => exact absurd hcase hstate
      rcases hplace with ⟨-, -, hvalid⟩ | ⟨hunused, -⟩
      · rw [List.getElem_take, Vector.getElem_toList]
        exact storable_of_event hvalid
      · exact absurd ⟨hstaged, by simp; omega⟩ hunused
    · cases hevent

theorem length_storedEvents {record : EventJournalRecord} (h : Storable record) :
    (storedEvents record).length = if record.state ≠ .completed then record.eventCount.toNat else 0 := by
  have hcount := h.eventCount
  unfold storedEvents
  split
  · rw [List.length_take, Vector.length_toList]
    omega
  · rfl

/-- The array of the events is given by those that are stored. -/
theorem slots_storedEvents {record : EventJournalRecord} (h : Storable record) :
    slots kMaximumPreservedResetEvents {} (storedEvents record) = record.events := by
  have htake : storedEvents record =
      record.events.toList.take (if record.state ≠ .completed then record.eventCount.toNat else 0) := by
    unfold storedEvents
    split <;> simp
  rw [htake]
  exact slots_take record.events h.empty

theorem slots_checksums (checksums : Vector UInt32 kMaximumPreservedResetEvents) :
    slots kMaximumPreservedResetEvents 0 checksums.toList = checksums := by
  have hall := @slots_take UInt32 kMaximumPreservedResetEvents 0 kMaximumPreservedResetEvents checksums fun i hi =>
    absurd i.isLt (Nat.not_lt.mpr hi)
  rwa [List.take_of_length_le (by simp)] at hall

/-! ### Size -/

/-- What is stored besides the events. -/
def kHeaderBytes : ℕ := 200

theorem length_encodeBody {record : EventJournalRecord} (h : Storable record) :
    (encodeBody record).length = kHeaderBytes + ((storedEvents record).flatMap putEvent).length := by
  have hchecksums : (record.eventCrc32.toList.flatMap putUInt32).length = 64 := by
    have hsum : (record.eventCrc32.toList.flatMap putUInt32).length = record.eventCrc32.toList.length * 4 := by
      simp [putUInt32, length_leBytes]
    rw [hsum, Vector.length_toList]
    rfl
  simp only [encodeBody, List.length_append, length_lengthText, h.operationId, h.deviceId, hchecksums, putUInt32, putUInt64,
    length_leBytes, kHeaderBytes]
  omega

theorem length_events_le {record : EventJournalRecord} (h : Storable record) :
    ((storedEvents record).flatMap putEvent).length ≤ 712 * 16 := by
  have hle : ((storedEvents record).flatMap putEvent).length ≤ 712 * (storedEvents record).length :=
    length_flatMap_le fun event hevent => length_putEvent_le (h.events event hevent)
  have hcount : (storedEvents record).length ≤ 16 := by
    have hcapacity : record.eventCount.toNat ≤ 16 := h.eventCount
    rw [length_storedEvents h]
    split <;> omega
  exact Nat.le_trans hle (Nat.mul_le_mul_left 712 hcount)

/-- **A valid journal is never too long to be stored.** -/
theorem encode_eq {record : EventJournalRecord} (h : validEventJournalRecord record = true) :
    encodeDataResetEventJournal record = encodeBody record ++ putUInt32 (crc32 (encodeBody record)) := by
  have hlength := length_encodeBody (storable_of_valid h)
  have hevents := length_events_le (storable_of_valid h)
  unfold kHeaderBytes at hlength
  unfold encodeDataResetEventJournal
  rw [if_neg (by simp [h])]
  exact if_neg (by unfold kEventJournalMaximumBytes; omega)

theorem length_encode {record : EventJournalRecord} (h : validEventJournalRecord record = true) :
    (encodeDataResetEventJournal record).length = 204 + ((storedEvents record).flatMap putEvent).length := by
  rw [encode_eq h, List.length_append, length_encodeBody (storable_of_valid h), putUInt32, length_leBytes, kHeaderBytes]
  omega

/-! ### Reading what was written, and writing what was read -/

theorem ofValue_value (state : EventJournalState) : EventJournalState.ofValue (EventJournalState.value state) = some state := by
  cases state <;> rfl

theorem value_of_ofValue {number : UInt32} {state : EventJournalState} (h : EventJournalState.ofValue number = some state) :
    EventJournalState.value state = number := by
  unfold EventJournalState.ofValue at h
  split at h <;> cases h <;> rfl

/-- **What was written of a storable journal is read back.** -/
theorem reads_encodeBody {record : EventJournalRecord} (h : Storable record) : Reads readRecord (encodeBody record) record := by
  have hstate : ¬ EventJournalState.value record.state > 255 := by
    cases record.state <;> decide
  have hevents := length_storedEvents h
  unfold readRecord encodeBody
  refine Reads.bind undoes_readUInt32 trivial (Reads.bind undoes_readUInt32 trivial
    (Reads.bind undoes_readUInt32 trivial (Reads.bind undoes_readUInt32 trivial ?_)))
  rw [if_neg (by simp [hstate])]
  refine Reads.bind (undoes_readText (by omega)) (Nat.le_of_eq h.operationId)
    (Reads.bind (undoes_readText (by omega)) (Nat.le_of_eq h.deviceId) ?_)
  refine Reads.bind undoes_readUInt64 trivial (Reads.bind undoes_readUInt64 trivial
    (Reads.bind undoes_readUInt64 trivial (Reads.bind undoes_readUInt64 trivial ?_)))
  rw [if_neg (Nat.not_lt.mpr h.eventCount)]
  refine Reads.lift (ofValue_value record.state) (Reads.bind (undoes_readMany undoes_readUInt32 _) ⟨by simp, by simp⟩ ?_)
  rw [← List.append_nil ((storedEvents record).flatMap putEvent)]
  refine Reads.bind (undoes_readMany undoes_readEvent _) ⟨hevents, h.events⟩ ?_
  rw [slots_checksums, slots_storedEvents h]
  exact Reads.pure record

/-- **Only what was written of a journal is read.** -/
theorem consumes_readRecord : Consumes readRecord fun record bytes => encodeBody record = bytes := by
  unfold readRecord
  refine .bind undoes_readUInt32 fun magicRead _ => .bind undoes_readUInt32 fun format _ =>
    .bind undoes_readUInt32 fun schemaVersion _ => .bind undoes_readUInt32 fun number _ => ?_
  refine .ite (fun _ => .failure) fun hheader => ?_
  simp only [ne_eq, not_or, not_not] at hheader
  obtain ⟨rfl, rfl, -⟩ := hheader
  refine .bind (undoes_readText (by omega)) fun operationId _ => .bind (undoes_readText (by omega)) fun deviceId _ => ?_
  refine .bind undoes_readUInt64 fun _ _ => .bind undoes_readUInt64 fun _ _ => .bind undoes_readUInt64 fun _ _ =>
    .bind undoes_readUInt64 fun eventCount _ => ?_
  refine .ite (fun _ => .failure) fun hcount => .lift fun state hstate => ?_
  refine .bind (undoes_readMany undoes_readUInt32 _) fun checksums hchecksums =>
    .bind (undoes_readMany undoes_readEvent _) fun events hevents => .pure ?_
  -- the arrays give back what was read into them
  have hstored : (if state ≠ .completed then (slots kMaximumPreservedResetEvents {} events).toList.take eventCount.toNat
      else []) = events := by
    have hlength := hevents.1
    split at hlength
    · next hopen =>
      rw [if_pos hopen, ← hlength]
      exact toList_slots_take (by omega)
    · next hdone =>
      rw [if_neg hdone, List.length_eq_zero_iff.mp hlength]
  have hsums : (slots kMaximumPreservedResetEvents 0 checksums).toList = checksums := by
    have htake := @toList_slots_take _ _ (0 : UInt32) _ (Nat.le_of_eq hchecksums.1)
    rwa [List.take_of_length_le (by simp [hchecksums.1])] at htake
  simp only [encodeBody, storedEvents, hstored, hsums, value_of_ofValue hstate, List.append_nil]

/-! ### Encoding and decoding -/

theorem decode_encode {record : EventJournalRecord} (h : validEventJournalRecord record = true) :
    decodeDataResetEventJournal (encodeDataResetEventJournal record) = some record := by
  have hlength := length_encode h
  have hevents := length_events_le (storable_of_valid h)
  have hcrc : (putUInt32 (crc32 (encodeBody record))).length = 4 := length_leBytes 4 _
  have hbody : (encodeDataResetEventJournal record).length - 4 = (encodeBody record).length := by
    rw [encode_eq h, List.length_append, hcrc]
    omega
  have hread := reads_encodeBody (storable_of_valid h) []
  rw [List.append_nil] at hread
  unfold decodeDataResetEventJournal
  rw [if_neg (by unfold kMinimumEncodedBytes kEventJournalMaximumBytes; omega), hbody]
  simp only [encode_eq h, List.take_left, List.drop_left]
  rw [if_neg (by rw [putUInt32, leNat_leBytes_of_lt (crc32 (encodeBody record)).toNat_lt]; simp), hread]
  simp [h]

/-- **Only the stored form of a valid journal is decoded.** -/
theorem encode_decode {encoded : Bytes} {record : EventJournalRecord} (h : decodeDataResetEventJournal encoded = some record) :
    validEventJournalRecord record = true ∧ encodeDataResetEventJournal record = encoded := by
  unfold decodeDataResetEventJournal at h
  split_ifs at h with hsize
  simp only at h
  split_ifs at h with hcrc
  split at h
  · cases h
  · next read rest hread =>
    split_ifs at h with hrest hvalid
    cases h
    simp only [not_not] at hrest hcrc
    subst hrest
    obtain ⟨bytes, hbytes, hencode⟩ := consumes_readRecord _ _ _ hread
    rw [List.append_nil] at hbytes
    have htail : (encoded.drop (encoded.length - 4)).length = 4 := by
      unfold kMinimumEncodedBytes at hsize
      rw [List.length_drop]
      omega
    have hchecksum : putUInt32 (crc32 (encodeBody record)) = encoded.drop (encoded.length - 4) := by
      have hbytes4 := leBytes_leNat (encoded.drop (encoded.length - 4))
      rw [htail] at hbytes4
      rw [hencode, ← hbytes, putUInt32, hcrc, hbytes4]
    refine ⟨hvalid, ?_⟩
    rw [encode_eq hvalid, hchecksum, hencode, ← hbytes, List.take_append_drop]

/-- **No stored form begins another one**: what is read from the front of a text does not depend on what follows. -/
theorem eq_nil_of_encode_append {record record' : EventJournalRecord} (h : validEventJournalRecord record = true)
    (h' : validEventJournalRecord record' = true) {rest : Bytes}
    (he : encodeDataResetEventJournal record' = encodeDataResetEventJournal record ++ rest) : rest = [] := by
  rw [encode_eq h, encode_eq h', List.append_assoc] at he
  have hread := reads_encodeBody (storable_of_valid h) (putUInt32 (crc32 (encodeBody record)) ++ rest)
  rw [← he, reads_encodeBody (storable_of_valid h') _] at hread
  obtain ⟨rfl, htail⟩ := Prod.mk.inj (Option.some.inj hread)
  exact List.self_eq_append_right.mp htail

/-- **The codec of the event journal.** -/
theorem eventJournal_codec :
    (∀ record, validEventJournalRecord record = true →
      encodeDataResetEventJournal record ≠ [] ∧
        (encodeDataResetEventJournal record).length ≤ kEventJournalMaximumBytes ∧
        (record.state = .completed → (encodeDataResetEventJournal record).length ≤ kCompletedEventJournalMaximumBytes) ∧
        decodeDataResetEventJournal (encodeDataResetEventJournal record) = some record) ∧
    (∀ encoded record, decodeDataResetEventJournal encoded = some record →
      validEventJournalRecord record = true ∧ encodeDataResetEventJournal record = encoded) ∧
    ∀ encoded record rest, decodeDataResetEventJournal encoded = some record → rest ≠ [] →
      decodeDataResetEventJournal (encoded ++ rest) = none ∧
        ∀ start, encoded = start ++ rest → decodeDataResetEventJournal start = none := by
  refine ⟨fun record h => ?_, fun encoded record h => encode_decode h, fun encoded record rest h hne => ⟨?_, ?_⟩⟩
  · have hlength := length_encode h
    have hevents := length_events_le (storable_of_valid h)
    refine ⟨fun hnil => ?_, by unfold kEventJournalMaximumBytes; omega, fun hcompleted => ?_, decode_encode h⟩
    · rw [hnil, List.length_nil] at hlength
      omega
    · rw [hlength, storedEvents, if_neg (not_not.mpr hcompleted)]
      decide
  · obtain ⟨hvalid, rfl⟩ := encode_decode h
    refine Option.eq_none_iff_forall_ne_some.mpr fun record' h' => ?_
    obtain ⟨hvalid', he⟩ := encode_decode h'
    exact hne (eq_nil_of_encode_append hvalid hvalid' he)
  · rintro start rfl
    obtain ⟨hvalid, he⟩ := encode_decode h
    refine Option.eq_none_iff_forall_ne_some.mpr fun record' h' => ?_
    obtain ⟨hvalid', rfl⟩ := encode_decode h'
    exact hne (eq_nil_of_encode_append hvalid' hvalid he)

/-- A journal with one event. -/
def noted : EventJournalRecord :=
  let event : PreservedEvent := {
    code := ascii "RESET_PREPARED"
    severity := ascii "info"
    bootId := ascii "boot"
    sourceEventId := 1
    requiredOccurrences := 1 }
  { operationId := ascii "00000000-0000-0000-0000-000000000001"
    deviceId := ascii "00000000-0000-0000-0000-000000000002"
    targetGeneration := 1
    cardGeneration := 1
    eventCount := 1
    eventCrc32 := slots _ 0 [preservedEventCrc32 event]
    events := slots _ {} [event] }

theorem eventJournal_codec_noted :
    decodeDataResetEventJournal (encodeDataResetEventJournal noted) = some noted ∧
      decodeDataResetEventJournal (encodeDataResetEventJournal noted ++ [0]) = none := by
  have hvalid : validEventJournalRecord noted = true := by decide +kernel
  obtain ⟨-, -, -, hread⟩ := eventJournal_codec.1 noted hvalid
  exact ⟨hread, (eventJournal_codec.2.2 _ noted [0] hread (by decide)).1⟩

end PowerMonitor.Reset.EventCodec
