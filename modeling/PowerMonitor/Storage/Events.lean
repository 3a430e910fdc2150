import PowerMonitor.Config.Cursors
import PowerMonitor.Storage.Cleanup

/-! # Events

Events are stored as readings are, in a file of their day, with sequences of their own. The next sequence
is found again from the card alone: from the lines of the files of events, up to the first bad one of
each, and from a journal (`recoverEvents`). The server acknowledges events by a sequence that the device
keeps in its preferences (`acknowledgeEvents`). -/

namespace PowerMonitor.Storage.Events

open PowerMonitor.Lib.Binary PowerMonitor.Lib.Lines PowerMonitor.Lib.Scan PowerMonitor.Lib.Json
open PowerMonitor.Lib.Program PowerMonitor.Config.Cursors
open PowerMonitor.Storage.RecordFormat PowerMonitor.Storage.Reading PowerMonitor.Storage.Media
open PowerMonitor.Storage.Segment PowerMonitor.Storage.ReadPage PowerMonitor.Storage.SdStorage
open PowerMonitor.Storage.Cleanup

/-! ### Storing an event -/

/-- What is noted of an event. -/
structure DeviceEvent where
  code : Bytes := []
  severity : Bytes := []
  detail : Bytes := []
  utcMs : UInt64 := 0
  bootId : Bytes := []
  sourceEventId : UInt64 := 0
  deriving DecidableEq

/-- The variables of the storage that concern events. -/
structure EventRam where
  mounted : Bool := false
  writable : Bool := false
  nextEventSequence : ℕ := 1
  oldestEventSequence : ℕ := 0
  newestEventSequence : ℕ := 0
  deriving DecidableEq, Repr

def eventDocument (event : DeviceEvent) (sequence : ℕ) : Document :=
  [(ascii "schema_version", unsigned 1),
    (ascii "event_sequence", unsigned (UInt64.ofNat sequence)),
    (ascii "timestamp_utc", text (isoUtc event.utcMs)),
    (ascii "timestamp_utc_ms", unsigned event.utcMs),
    (ascii "boot_id", text event.bootId),
    (ascii "code", text event.code),
    (ascii "severity", text event.severity),
    (ascii "detail", text event.detail)] ++
  if event.sourceEventId = 0 then [] else [(ascii "source_event_id", unsigned event.sourceEventId)]

def eventEnvelope (j : JsonLibrary) (event : DeviceEvent) (sequence : ℕ) : Bytes :=
  encodeEnvelope (j.serialize (eventDocument event sequence))

def eventPath (event : DeviceEvent) : Bytes :=
  datedPath (ascii "events") (ascii ".events") event.utcMs event.bootId

def eventJournalTemporary : Bytes := eventJournalPath ++ ascii ".tmp"

def persistEventSequence (committedSequence : ℕ) : CardProg Bool := do
  let value := decimal committedSequence ++ [10]
  let _ ← removeFile eventJournalTemporary
  let written ← writeFile eventJournalTemporary value
  if written ≠ some value.length then do
    let _ ← removeFile eventJournalTemporary
    return false
  else do
    let _ ← removeFile eventJournalPath
    renameFile eventJournalTemporary eventJournalPath

/-- The variables after an event is stored. -/
def EventRam.appended (ram : EventRam) : EventRam :=
  { ram with
    nextEventSequence := (ram.nextEventSequence + 1) % 2 ^ 64
    oldestEventSequence := oldest ram.oldestEventSequence ram.nextEventSequence
    newestEventSequence := ram.nextEventSequence }

/-- Writes the envelope; the event is stored even if the journal is not. -/
def storeEvent (j : JsonLibrary) (event : DeviceEvent) (ram : EventRam) : CardProg (EventRam × Bool) := do
  let envelope := eventEnvelope j event ram.nextEventSequence
  let directory ← ensureDirectory (directoryOf (eventPath event))
  if !directory then return (ram, false)
  else
    let written ← appendFile (eventPath event) envelope
    if written.map Prod.snd ≠ some envelope.length then return (ram, false)
    else do
      let _ ← persistEventSequence ram.nextEventSequence
      return (EventRam.appended ram, true)

def appendEvent (j : JsonLibrary) (fingerprint : Bytes) (event : DeviceEvent) (binding : CardBinding)
    (ram : EventRam) : CardProg (EventRam × Bool) := do
  if !ram.mounted || !ram.writable || decide (64 < event.code.length) || decide (16 < event.severity.length) ||
      decide (512 < event.detail.length) then return (ram, false)
  else
    let bound ← bindingHolds j fingerprint binding
    if !bound then return (ram, false)
    else
      let free ← freeBytes
      if free < conservativeWriteReserveBytes (eventEnvelope j event ram.nextEventSequence).length then
        return (ram, false)
      else storeEvent j event ram

/-! ### Recovering -/

/-- What a recovery counts of the events. -/
structure EventTally where
  maximumSequence : ℕ := 0
  minimumSequence : ℕ := 0
  deriving DecidableEq, Repr

def EventTally.add (t : EventTally) (first last : ℕ) : EventTally where
  maximumSequence := max t.maximumSequence last
  minimumSequence := oldest t.minimumSequence first

/-- The sequence of a line that is a good event. -/
def eventLine (j : JsonLibrary) (line : Bytes) : Option ℕ :=
  if 8193 < line.length then none
  else do
    let (payload, _) ← decodeEnvelope line
    let document ← j.deserialize payload
    if (document (ascii "event_sequence")).isUnsigned then
      return (document (ascii "event_sequence")).asUnsigned.toNat
    else none

/-- The lines of a file, up to the first bad one. -/
def recoverEventLines (j : JsonLibrary) : List Bytes → EventTally → EventTally
  | [], t => t
  | line :: ls, t =>
    match eventLine j line with
    | none => t
    | some sequence => recoverEventLines j ls (t.add sequence sequence)

def recoverEventFile (j : JsonLibrary) (path : Bytes) (t : EventTally) : CardProg EventTally := do
  let content ← readFile path
  return recoverEventLines j (lines (content.getD [])) t

def recoverEventSegment (j : JsonLibrary) (t : EventTally) (path : Bytes) : CardProg EventTally := do
  let sidecar ← readFile (metadataPath path)
  let record ← readFile path
  match acceptMetadata j .events path sidecar (record.map List.length) none with
  | none => recoverEventFile j path t
  | some metadata =>
    if metadata.allTimesTrusted then return t.add metadata.firstSequence metadata.lastSequence
    else recoverEventFile j path t

def recoverEventSegments (j : JsonLibrary) : List Bytes → EventTally → CardProg EventTally
  | [], t => return t
  | path :: paths, t => do
    let t ← recoverEventSegment j t path
    recoverEventSegments j paths t

/-- The number at the start of the journal's first line, or zero. -/
def parseEventJournal (content : Bytes) : ℕ :=
  ((scanUnsigned (cString (content.takeWhile (· ≠ 10)))).map Prod.fst).getD 0

/-- The part of a recovery that concerns events. -/
def recoverEvents (j : JsonLibrary) (ram : EventRam) : CardProg EventRam := do
  let files ← listFiles (ascii "/POWERMON/events/") (ascii ".events")
  let t ← recoverEventSegments j files {}
  let journal ← readFile eventJournalPath
  let journalSequence := (journal.map parseEventJournal).getD 0
  return { ram with
    nextEventSequence := (max t.maximumSequence journalSequence + 1) % 2 ^ 64
    oldestEventSequence := t.minimumSequence
    newestEventSequence := t.maximumSequence }

/-- A mount whose other parts succeed. -/
def mountEvents (j : JsonLibrary) (ram : EventRam) : CardProg EventRam := do
  let ram ← recoverEvents j { ram with mounted := true, writable := false }
  return { ram with writable := true }

/-! ### Synchronising -/

def eventFiles (card : Card) : List Bytes :=
  (collectFiles (ascii "/POWERMON/events/") (ascii ".events") card).insertionSort fun a b => decide (a ≤ b)

def readEvents (j : JsonLibrary) (card : Card) (faults : ReadFaults) (q : HistoryQuery) : HistoryPage :=
  readEnvelopeFiles j card faults {} (eventFiles card) q .events

def kEventBatchRecordLimit : UInt16 := 24
def kEventBatchPayloadBytes : UInt32 := 16 * 1024

/-- The query of a synchronisation of events. -/
def eventQuery (after : UInt64) : HistoryQuery where
  afterSequence := after
  limit := kEventBatchRecordLimit
  maximumPayloadBytes := kEventBatchPayloadBytes

/-- The persisted acknowledgement after the server acknowledged `acknowledged` for a page. -/
def acknowledgeEvents (current : ℕ) (page : HistoryPage) (acknowledged : ℕ) (written : Bool) : ℕ :=
  if acknowledged < page.lastSequence then current
  else (setServerEventAckSequence current acknowledged written).1

end PowerMonitor.Storage.Events
