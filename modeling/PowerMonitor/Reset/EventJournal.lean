import PowerMonitor.Reset.DrainJournal

/-! # The event journal

A data reset keeps the events that are not yet on the card: it stores them before it removes the readings,
writes them to the card afterwards, and then marks the journal as completed. `validEventJournalRecordUpdate`
says which record may replace which: within one operation events are added, or all are done with. -/

namespace PowerMonitor.Reset.EventJournal

open PowerMonitor.Lib.Binary
open PowerMonitor.Reset.DrainJournal (uuid)

def kMaximumPreservedResetEvents : ℕ := 16

inductive EventJournalState
  | staged | completed
  deriving DecidableEq, Repr

structure PreservedEvent where
  code : Bytes := []
  severity : Bytes := []
  detail : Bytes := []
  bootId : Bytes := []
  utcMs : UInt64 := 0
  sourceEventId : UInt64 := 0
  requiredOccurrences : UInt64 := 0
  deriving DecidableEq

structure EventJournalRecord where
  schemaVersion : UInt32 := 1
  state : EventJournalState := .staged
  operationId : Bytes := []
  deviceId : Bytes := []
  sourceGeneration : UInt64 := 0
  targetGeneration : UInt64 := 0
  cardGeneration : UInt64 := 0
  eventCount : UInt64 := 0
  eventCrc32 : Vector UInt32 kMaximumPreservedResetEvents := Vector.replicate _ 0
  events : Vector PreservedEvent kMaximumPreservedResetEvents := Vector.replicate _ {}
  deriving DecidableEq

/-! ### Events -/

def validEvent (event : PreservedEvent) : Bool :=
  event.code ≠ [] && decide (event.code.length ≤ 64) && event.severity ≠ [] && decide (event.severity.length ≤ 16) &&
    decide (event.detail.length ≤ 512) && decide (event.bootId.length ≤ 64) && event.bootId ≠ [] &&
    decide (event.sourceEventId > 0) && event.requiredOccurrences = 1

def eventEqual (left right : PreservedEvent) : Bool := left = right

/-- A text with its length before it. -/
def lengthText (value : Bytes) : Bytes := leBytes 8 value.length ++ value

def preservedEventCrc32 (event : PreservedEvent) : UInt32 :=
  crc32 (lengthText event.code ++ lengthText event.severity ++ lengthText event.detail ++ lengthText event.bootId ++
    leBytes 8 event.utcMs.toNat ++ leBytes 8 event.sourceEventId.toNat ++ leBytes 8 event.requiredOccurrences.toNat)

/-! ### Records -/

/-- The place of one event: it holds an event that is staged, or nothing. -/
def validPlace (record : EventJournalRecord) (index : Fin kMaximumPreservedResetEvents) : Bool :=
  let used := decide (index.val < record.eventCount.toNat)
  let event := record.events.get index
  let crc := record.eventCrc32.get index
  if record.state = .staged && used then validEvent event && crc ≠ 0 && preservedEventCrc32 event = crc
  else eventEqual event {} && (if used then crc ≠ 0 else crc = 0)

def validEventJournalRecord (record : EventJournalRecord) : Bool :=
  record.schemaVersion = 1 && uuid record.operationId && uuid record.deviceId &&
    decide (record.sourceGeneration.toNat < 2 ^ 64 - 1) && record.targetGeneration = record.sourceGeneration + 1 &&
    decide (record.cardGeneration > 0) && decide (record.eventCount.toNat ≤ kMaximumPreservedResetEvents) &&
    (List.finRange kMaximumPreservedResetEvents).all (validPlace record)

def eventJournalRecordsEqual (left right : EventJournalRecord) : Bool := left = right

/-- Both records are bound to one device, one card and the same generations. -/
def sameBinding (left right : EventJournalRecord) : Bool :=
  left.deviceId = right.deviceId && left.sourceGeneration = right.sourceGeneration &&
    left.targetGeneration = right.targetGeneration && left.cardGeneration = right.cardGeneration

/-- The events of the one are the first events of the other. -/
def extendsEvents (current proposed : EventJournalRecord) : Bool :=
  (List.finRange kMaximumPreservedResetEvents).all fun index => !decide (index.val < current.eventCount.toNat) ||
    (current.eventCrc32.get index = proposed.eventCrc32.get index &&
      eventEqual (current.events.get index) (proposed.events.get index))

def validEventJournalRecordUpdate (current proposed : EventJournalRecord) : Bool :=
  if !validEventJournalRecord current || !validEventJournalRecord proposed then false
  else if current.operationId ≠ proposed.operationId then
    current.state = .completed && proposed.state = .staged &&
      (current.deviceId ≠ proposed.deviceId || decide (proposed.targetGeneration > current.targetGeneration))
  else if current.state = .staged && proposed.state = .staged && sameBinding current proposed &&
      decide (proposed.eventCount ≥ current.eventCount) then
    extendsEvents current proposed
  else if current.state ≠ .staged || proposed.state ≠ .completed || !sameBinding current proposed ||
      current.eventCount ≠ proposed.eventCount || current.eventCrc32 ≠ proposed.eventCrc32 then false
  else (List.finRange kMaximumPreservedResetEvents).all fun index => eventEqual (proposed.events.get index) {}

end PowerMonitor.Reset.EventJournal
