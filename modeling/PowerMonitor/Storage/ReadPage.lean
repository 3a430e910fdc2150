import PowerMonitor.Storage.Segment
import PowerMonitor.Storage.SyncCoverage

/-! # Reading a page

`readPage` walks the files of readings in the order of their paths and keeps the records with the
smallest sequences after a cursor. A file is left out when its sidecar or its index rows place it
outside the wanted sequences, or when it does not open; it is read from where its index rows say. A
line that is too long, that does not decode, or a file that does not end with a line ends the walk with
an error. -/

namespace PowerMonitor.Storage.ReadPage

open PowerMonitor.Lib.Binary PowerMonitor.Lib.Lines PowerMonitor.Lib.Json
open PowerMonitor.Storage.RecordFormat PowerMonitor.Storage.Reading PowerMonitor.Storage.Media
open PowerMonitor.Storage.Segment PowerMonitor.Storage.SyncCoverage

def kSyncCoverageWindow : ℕ := 500
def maxHistoryPage : ℕ := 500
def maximumLine : ℕ := 8192

/-! ### Queries and pages -/

structure HistoryQuery where
  afterSequence : UInt64 := 0
  fromUtcMs : UInt64 := 0
  toUtcMs : UInt64 := 0
  limit : UInt16 := 100
  maximumPayloadBytes : UInt32 := 48 * 1024
  requireSyncable : Bool := false
  deriving DecidableEq

structure HistoryPage where
  ok : Bool := false
  gone : Bool := false
  firstSequence : ℕ := 0
  lastSequence : ℕ := 0
  hasMore : Bool := false
  nextAfterSequence : ℕ := 0
  records : List Bytes := []
  errorCode : Bytes := []
  unavailableSequenceRanges : List SequenceRange := []
  deriving DecidableEq

inductive HistoryError
  | recordCorrupt
  | recordJsonInvalid
  | recordExceedsPageLimit
  | recordExceedsLineLimit
  | storageIndexSeekFailed
  | storageReadFailed
  | storageReadIncomplete
  deriving DecidableEq, Repr

def HistoryError.code : HistoryError → Bytes
  | .recordCorrupt => ascii "record_corrupt"
  | .recordJsonInvalid => ascii "record_json_invalid"
  | .recordExceedsPageLimit => ascii "record_exceeds_page_limit"
  | .recordExceedsLineLimit => ascii "record_exceeds_line_limit"
  | .storageIndexSeekFailed => ascii "storage_index_seek_failed"
  | .storageReadFailed => ascii "storage_read_failed"
  | .storageReadIncomplete => ascii "storage_read_incomplete"

/-- How many records a page may hold. -/
def HistoryQuery.pageLimit (q : HistoryQuery) : ℕ := min q.limit.toNat maxHistoryPage

/-- The last sequence a query looks at. -/
def HistoryQuery.scanCeiling (q : HistoryQuery) : ℕ :=
  if q.requireSyncable ∧ q.afterSequence.toNat ≤ 2 ^ 64 - 1 - kSyncCoverageWindow then
    q.afterSequence.toNat + kSyncCoverageWindow
  else 2 ^ 64 - 1

/-! ### Lines -/

/-- A record as a reader sees it. -/
structure Entry where
  sequence : ℕ
  start : UInt64
  syncable : Bool
  payload : Bytes
  deriving DecidableEq

def decodeLine (j : JsonLibrary) (kind : SegmentKind) (line : Bytes) : Except HistoryError Entry :=
  match decodeEnvelope line with
  | none => .error .recordCorrupt
  | some (payload, _) =>
    match j.deserialize payload with
    | none => .error .recordJsonInvalid
    | some document => .ok {
        sequence := (document kind.sequenceField).asUnsigned.toNat
        start :=
          if (document (ascii "start_utc_ms")).isUnsigned then (document (ascii "start_utc_ms")).asUnsigned
          else (document (ascii "timestamp_utc_ms")).unsignedOr 0
        syncable := syncableDocument document
        payload := payload }

/-- The query asks for the record. -/
def HistoryQuery.wants (q : HistoryQuery) (e : Entry) : Bool :=
  !(e.sequence ≤ q.afterSequence.toNat || (q.fromUtcMs ≠ 0 && e.start < q.fromUtcMs) ||
    (q.toUtcMs ≠ 0 && e.start > q.toUtcMs) || e.sequence > q.scanCeiling) &&
  !(q.requireSyncable && !e.syncable)

/-- The variables of the walk. -/
structure Scan where
  candidates : List Entry := []
  observed : List ℕ := []
  eligible : ℕ := 0
  deriving DecidableEq

def payloadBytes (candidates : List Entry) : ℕ := (candidates.map fun e => e.payload.length).sum

/-- Candidates, the last one first, until they fit on a page. -/
def dropExcess (limit maximumBytes : ℕ) : List Entry → List Entry
  | [] => []
  | e :: rest =>
    if limit < (e :: rest).length ∨ maximumBytes < payloadBytes (e :: rest) then
      dropExcess limit maximumBytes rest
    else e :: rest

/-- Put a record among the candidates, before those of its sequence, and drop the last ones until they
fit on a page. -/
def insertCandidate (limit maximumBytes : ℕ) (e : Entry) (candidates : List Entry) : List Entry :=
  let below := candidates.takeWhile fun c => decide (c.sequence < e.sequence)
  let rest := candidates.dropWhile fun c => decide (c.sequence < e.sequence)
  if limit ≤ candidates.length ∧ rest = [] then candidates
  else (dropExcess limit maximumBytes (below ++ e :: rest).reverse).reverse

/-- A wanted record. -/
def observe (q : HistoryQuery) (scan : Scan) (e : Entry) : Scan where
  observed := if q.requireSyncable then scan.observed ++ [e.sequence] else scan.observed
  eligible := scan.eligible + 1
  candidates := insertCandidate q.pageLimit q.maximumPayloadBytes.toNat e scan.candidates

def processEntry (q : HistoryQuery) (scan : Scan) (e : Entry) : Except HistoryError Scan :=
  if !q.wants e then .ok scan
  else if q.maximumPayloadBytes.toNat < e.payload.length then .error .recordExceedsPageLimit
  else .ok (observe q scan e)

def processLine (j : JsonLibrary) (kind : SegmentKind) (q : HistoryQuery) (scan : Scan) (line : Bytes) :
    Except HistoryError Scan := do
  let e ← decodeLine j kind line
  processEntry q scan e

/-! ### Files -/

/-- What a file is opened for. -/
inductive Purpose
  | metadata
  | recordSize
  | indexSize
  | index
  | scan
  deriving DecidableEq, Repr

/-- What fails while a page is read: opening a file, moving to an offset, or a read after some bytes. -/
structure ReadFaults where
  opens : Purpose → Bytes → Bool := fun _ _ => true
  seeks : Bytes → Bool := fun _ => true
  readFails : Bytes → Option ℕ := fun _ => none

/-- The content of a file that opens. -/
def openFile (card : Card) (faults : ReadFaults) (purpose : Purpose) (path : Bytes) : Option Bytes :=
  if faults.opens purpose path then card.lookup path else none

def loadSegmentMetadata (j : JsonLibrary) (card : Card) (faults : ReadFaults) (kind : SegmentKind)
    (path : Bytes) : Option SegmentMetadata :=
  acceptMetadata j kind path (openFile card faults .metadata (metadataPath path))
    ((openFile card faults .recordSize path).map List.length)
    ((openFile card faults .indexSize (pairedIndexPath path)).map List.length)

/-- What the walk does with a file. -/
inductive Visit
  | skip
  | seekFailed
  | read (content : Bytes)
  deriving DecidableEq

/-- A closed segment without a wanted sequence. -/
def outsideBounds (q : HistoryQuery) (metadata : SegmentMetadata) : Bool :=
  metadata.lastSequence ≤ q.afterSequence.toNat || q.scanCeiling < metadata.firstSequence

def segmentIndex (card : Card) (faults : ReadFaults) (kind : SegmentKind) (q : HistoryQuery)
    (path : Bytes) : IndexAnswer :=
  match kind with
  | .events => .unusable
  | .readings =>
    if pairedIndexPath path = [] then .unusable
    else searchIndex q.afterSequence.toNat q.scanCeiling
      (openFile card faults .index (pairedIndexPath path))

def visitSegment (j : JsonLibrary) (card : Card) (faults : ReadFaults) (kind : SegmentKind)
    (q : HistoryQuery) (path : Bytes) : Visit :=
  if (loadSegmentMetadata j card faults kind path).any (outsideBounds q) then .skip
  else
    match segmentIndex card faults kind q path, openFile card faults .scan path with
    | .outside, _ => .skip
    | _, none => .skip
    | .unusable, some content => .read content
    | .start offset, some content =>
      if faults.seeks path then .read (content.drop (offset % 2 ^ 32)) else .seekFailed

def scanLine (j : JsonLibrary) (kind : SegmentKind) (q : HistoryQuery) (scan : Scan) (line : Bytes) :
    Except HistoryError Scan :=
  if maximumLine < line.length then .error .recordExceedsLineLimit else processLine j kind q scan line

/-- What is left after the last complete line. -/
def scanRest (readFails : Option ℕ) (rest : Bytes) : Except HistoryError Unit :=
  if maximumLine < rest.length then .error .recordExceedsLineLimit
  else if readFails.isSome then .error .storageReadFailed
  else if rest ≠ [] then .error .storageReadIncomplete
  else .ok ()

/-- Read a file from where it is read; the read after `readFails` bytes fails. -/
def scanContent (j : JsonLibrary) (kind : SegmentKind) (q : HistoryQuery) (content : Bytes)
    (readFails : Option ℕ) (scan : Scan) : Except HistoryError Scan := do
  let read := match readFails with
    | none => content
    | some k => content.take k
  let scan ← (lines read).foldlM (scanLine j kind q) scan
  scanRest readFails (unterminated read)
  return scan

def scanSegment (j : JsonLibrary) (card : Card) (faults : ReadFaults) (kind : SegmentKind)
    (q : HistoryQuery) (scan : Scan) (path : Bytes) : Except HistoryError Scan :=
  match visitSegment j card faults kind q path with
  | .skip => .ok scan
  | .seekFailed => .error .storageIndexSeekFailed
  | .read content => scanContent j kind q content (faults.readFails path) scan

/-! ### Pages -/

/-- The records of a page and what it declares unavailable. -/
def coverage (health : Health) (q : HistoryQuery) (scan : Scan) : List Entry × List SequenceRange :=
  if q.requireSyncable then
    let plan := deriveSyncCoverage q.afterSequence.toNat (min health.newestSequence q.scanCeiling)
      (scan.candidates.map Entry.sequence) scan.observed 500
    (scan.candidates.filter fun e => decide (e.sequence ≤ plan.endSequence),
      plan.unavailableSequenceRanges)
  else (scan.candidates, [])

def pageFirst (selected : List Entry) (ranges : List SequenceRange) : ℕ :=
  let first := (selected.head?.map Entry.sequence).getD 0
  if first = 0 then (ranges.head?.map SequenceRange.startSequence).getD 0 else first

def pageLast (selected : List Entry) (ranges : List SequenceRange) : ℕ :=
  max ((selected.getLast?.map Entry.sequence).getD 0) ((ranges.getLast?.map SequenceRange.endSequence).getD 0)

def finishPage (health : Health) (q : HistoryQuery) (scan : Scan) : HistoryPage :=
  let (selected, ranges) := coverage health q scan
  { ok := true
    firstSequence := pageFirst selected ranges
    lastSequence := pageLast selected ranges
    hasMore := if q.requireSyncable then decide (pageLast selected ranges < health.newestSequence)
      else decide (selected.length < scan.eligible)
    nextAfterSequence := pageLast selected ranges
    records := selected.map Entry.payload
    unavailableSequenceRanges := ranges }

def readEnvelopeFiles (j : JsonLibrary) (card : Card) (faults : ReadFaults) (health : Health)
    (paths : List Bytes) (q : HistoryQuery) (kind : SegmentKind) : HistoryPage :=
  match paths.foldlM (scanSegment j card faults kind q) {} with
  | .error e => { errorCode := e.code }
  | .ok scan => finishPage health q scan

/-- The history before the oldest record is expired. -/
def historyExpired (health : Health) (q : HistoryQuery) : Bool :=
  q.afterSequence ≠ 0 && health.oldestSequence ≠ 0 &&
    (q.afterSequence.toNat + 1) % 2 ^ 64 < health.oldestSequence

def readPage (j : JsonLibrary) (card : Card) (faults : ReadFaults) (health : Health) (q : HistoryQuery) :
    HistoryPage :=
  if historyExpired health q then
    { gone := true
      errorCode := ascii "history_expired"
      firstSequence := health.oldestSequence
      lastSequence := health.newestSequence }
  else readEnvelopeFiles j card faults health (recordFiles card) q .readings

/-- The query of a synchronisation. -/
def syncQuery (after : UInt64) : HistoryQuery where
  afterSequence := after
  limit := 8
  maximumPayloadBytes := 8 * 1024
  requireSyncable := true

end PowerMonitor.Storage.ReadPage
