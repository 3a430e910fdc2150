import PowerMonitor.Reset.DrainJournal
import PowerMonitor.Storage.Segment

/-! # The cleanup journal

A data reset that removes the readings of a card first stores what it is about to remove, and marks this as
completed when it is done. `validCleanupRecordUpdate` says which record may replace which: within one
operation only the state changes. -/

namespace PowerMonitor.Reset.CleanupJournal

open PowerMonitor.Lib.Binary PowerMonitor.Lib.Json
open PowerMonitor.Reset.DrainJournal (uuid)
open PowerMonitor.Reset.RecordStore PowerMonitor.Storage.Reading PowerMonitor.Storage.Segment

/-! ### Records -/

inductive CleanupState
  | planned | completed
  deriving DecidableEq, Repr

/-- The stored number of a state. -/
def CleanupState.value : CleanupState → UInt64
  | .planned => 1
  | .completed => 2

def CleanupState.ofValue (n : UInt64) : Option CleanupState :=
  if n = 1 then some .planned else if n = 2 then some .completed else none

/-- How many files of each kind are removed, and their bytes. -/
structure Inventory where
  readingFiles : UInt64 := 0
  indexFiles : UInt64 := 0
  exportFiles : UInt64 := 0
  metadataFiles : UInt64 := 0
  bytes : UInt64 := 0
  deriving DecidableEq, Repr

structure CleanupRecord where
  schemaVersion : UInt32 := 1
  state : CleanupState := .planned
  operationId : Bytes := []
  deviceId : Bytes := []
  sourceGeneration : UInt64 := 0
  targetGeneration : UInt64 := 0
  cardGeneration : UInt64 := 0
  inventory : Inventory := {}
  deriving DecidableEq

def validCleanupRecord (record : CleanupRecord) : Bool :=
  record.schemaVersion = 1 && uuid record.operationId && uuid record.deviceId &&
    decide (record.sourceGeneration.toNat < 2 ^ 64 - 1) && record.targetGeneration = record.sourceGeneration + 1 &&
    decide (record.cardGeneration > 0)

def cleanupRecordsEqual (left right : CleanupRecord) : Bool := left = right

def validCleanupRecordUpdate (current proposed : CleanupRecord) : Bool :=
  if !validCleanupRecord current || !validCleanupRecord proposed then false
  else if current.operationId ≠ proposed.operationId then
    current.state = .completed && proposed.state = .planned &&
      (current.deviceId ≠ proposed.deviceId || decide (proposed.targetGeneration > current.targetGeneration))
  else current.state = .planned && cleanupRecordsEqual { current with state := .completed } proposed

/-! ### Stored form -/

def kCleanupJournalMaximumBytes : ℕ := 448

def cleanupRecordDocument (record : CleanupRecord) : Document :=
  [(ascii "schema_version", unsigned record.schemaVersion.toUInt64),
    (ascii "state", unsigned record.state.value),
    (ascii "operation_id", text record.operationId),
    (ascii "device_id", text record.deviceId),
    (ascii "source_generation", unsigned record.sourceGeneration),
    (ascii "target_generation", unsigned record.targetGeneration),
    (ascii "card_generation", unsigned record.cardGeneration),
    (ascii "reading_files", unsigned record.inventory.readingFiles),
    (ascii "index_files", unsigned record.inventory.indexFiles),
    (ascii "export_files", unsigned record.inventory.exportFiles),
    (ascii "metadata_files", unsigned record.inventory.metadataFiles),
    (ascii "bytes", unsigned record.inventory.bytes)]

/-- The stored form of a record; nothing if there is none. -/
def encodeDataResetCleanupRecord (j : JsonLibrary) (record : CleanupRecord) : Bytes :=
  let payload := j.serialize (cleanupRecordDocument record)
  if !validCleanupRecord record || payload.length > kCleanupJournalMaximumBytes then [] else payload

def decodeDataResetCleanupRecord (j : JsonLibrary) (encoded : Bytes) : Option CleanupRecord :=
  if encoded = [] ∨ encoded.length > kCleanupJournalMaximumBytes then none
  else do
    let document ← j.deserialize encoded
    let operationId ← (document (ascii "operation_id")).text
    let deviceId ← (document (ascii "device_id")).text
    let number (name : String) : UInt64 := (document (ascii name)).asUnsigned
    let numbers := ["schema_version", "state", "source_generation", "target_generation", "card_generation",
      "reading_files", "index_files", "export_files", "metadata_files", "bytes"]
    if !(numbers.all fun name => (document (ascii name)).isUnsigned) ∨ 2 ^ 32 ≤ (number "schema_version").toNat ∨
        2 ^ 8 ≤ (number "state").toNat then none
    else do
      let state ← CleanupState.ofValue (number "state")
      let record : CleanupRecord := {
        schemaVersion := (number "schema_version").toUInt32
        state := state
        operationId := cString operationId
        deviceId := cString deviceId
        sourceGeneration := number "source_generation"
        targetGeneration := number "target_generation"
        cardGeneration := number "card_generation"
        inventory := {
          readingFiles := number "reading_files"
          indexFiles := number "index_files"
          exportFiles := number "export_files"
          metadataFiles := number "metadata_files"
          bytes := number "bytes" } }
      if validCleanupRecord record then some record else none

/-! ### The store -/

/-- The two slots of the journal, with what they decode to. -/
structure Slots where
  active : Option CleanupRecord := none
  previous : Option CleanupRecord := none
  deriving DecidableEq

def Slots.commit (slots : Slots) (record : CleanupRecord) : Slots := ⟨some record, slots.active⟩

/-- What the store does to a commit: it succeeds; it fails before anything changes; it is done, but cannot be
read back. -/
inductive Outcome
  | done | failed | unread
  deriving DecidableEq, Repr

def Outcome.commit (outcome : Outcome) (record : CleanupRecord) (slots : Slots) : DataResetStoreResult × Slots :=
  match outcome with
  | .done => (.savedAndVerified, slots.commit record)
  | .failed => (.commitFailed, slots)
  | .unread => (.readbackFailed, slots.commit record)

/-- Reads the record in force. -/
def loadFrom (outcome : Outcome) (slots : Slots) : DataResetStoreResult × Option CleanupRecord :=
  match slots.active with
  | none => (.notFound, none)
  | some record => if outcome = .done then (.loaded, some record) else (.loadFailed, none)

/-- A record is saved in its order. -/
def saveTo (j : JsonLibrary) (outcome : Outcome) (record : CleanupRecord) (slots : Slots) :
    DataResetStoreResult × Slots :=
  if !validCleanupRecord record then (.invalidRecord, slots)
  else if (encodeDataResetCleanupRecord j record) = [] then (.serializeFailed, slots)
  else if decodeDataResetCleanupRecord j (encodeDataResetCleanupRecord j record) ≠ some record then
    (.serializeFailed, slots)
  else
    match slots.active with
    | some current =>
      if cleanupRecordsEqual current record then (.savedAndVerified, slots)
      else if !validCleanupRecordUpdate current record then (.invalidTransition, slots)
      else outcome.commit record slots
    | none => if record.state ≠ .planned then (.invalidTransition, slots) else outcome.commit record slots

/-- The other slot gets the completed record too. -/
def scrubCompletedCopies (outcome : Outcome) (completed : CleanupRecord) (slots : Slots) :
    DataResetStoreResult × Slots :=
  if completed.state ≠ .completed || !validCleanupRecord completed then (.invalidRecord, slots)
  else if !slots.active.any (cleanupRecordsEqual · completed) then (.identityMismatch, slots)
  else if slots.previous.any (cleanupRecordsEqual · completed) then (.savedAndVerified, slots)
  else outcome.commit completed slots

end PowerMonitor.Reset.CleanupJournal
