import PowerMonitor.Storage.SdStorage

/-! # Removing a segment

A segment is removed in a transaction: a journal is written, the record file and its index are moved to a
directory for trash and removed there, and the journal is cleared. The journal states how far the
transaction is (`Stage`). When a card is mounted, a transaction that is only planned is taken back, and
one whose files were moved is finished (`cleanupRecoveryAction`). -/

namespace PowerMonitor.Storage.Cleanup

open PowerMonitor.Lib.Binary PowerMonitor.Lib.Lines PowerMonitor.Lib.Json PowerMonitor.Lib.Program
open PowerMonitor.Storage.RecordFormat PowerMonitor.Storage.Reading PowerMonitor.Storage.Media
open PowerMonitor.Storage.Segment PowerMonitor.Storage.SdStorage

/-! ### The journal -/

def cleanupJournalPath : Bytes := ascii "/POWERMON/state/retention.journal"
def cleanupTrashDirectory : Bytes := ascii "/POWERMON/recovery/retention-trash"
def cleanupTemporary : Bytes := cleanupJournalPath ++ ascii ".tmp"

/-- What a transaction uses of a segment; events have no index. -/
structure CleanupSegment where
  recordPath : Bytes
  indexPath : Bytes := []
  firstSequence : UInt64 := 0
  lastSequence : UInt64 := 0
  deriving DecidableEq

def CleanupSegment.hasIndex (segment : CleanupSegment) : Bool := segment.indexPath ≠ []

/-- Why and when a segment is removed. -/
structure CleanupRequest where
  serverAckSequence : UInt64 := 0
  nowUtcMs : UInt64 := 0
  reason : Bytes := []

/-- How far a transaction is. -/
inductive Stage
  | planned
  | filesMoved
  | recordDeleted
  | complete
  deriving DecidableEq, Repr

def Stage.text : Stage → Bytes
  | .planned => ascii "planned"
  | .filesMoved => ascii "files_moved"
  | .recordDeleted => ascii "record_deleted"
  | .complete => ascii "complete"

def recordTrash (segment : CleanupSegment) : Bytes :=
  cleanupTrashDirectory ++ (47 :: (pathToken segment.recordPath ++ ascii ".pmr.trash"))

def indexTrash (segment : CleanupSegment) : Bytes :=
  if segment.indexPath = [] then []
  else cleanupTrashDirectory ++ (47 :: (pathToken segment.recordPath ++ ascii ".idx.trash"))

def cleanupDocument (segment : CleanupSegment) (request : CleanupRequest) (stage : Stage) : Document :=
  [(ascii "schema_version", unsigned 1),
    (ascii "stage", text stage.text),
    (ascii "record_path", text segment.recordPath),
    (ascii "index_path", text segment.indexPath),
    (ascii "record_trash", text (recordTrash segment)),
    (ascii "index_trash", text (indexTrash segment)),
    (ascii "first_sequence", unsigned segment.firstSequence),
    (ascii "last_sequence", unsigned segment.lastSequence),
    (ascii "server_ack_sequence", unsigned request.serverAckSequence),
    (ascii "started_utc_ms", unsigned request.nowUtcMs),
    (ascii "reason", text request.reason)]

/-- The line of the journal. -/
def journalLine (j : JsonLibrary) (segment : CleanupSegment) (request : CleanupRequest) (stage : Stage) :
    Bytes := encodeEnvelope (j.serialize (cleanupDocument segment request stage))

def persistCleanupJournal (j : JsonLibrary) (segment : CleanupSegment) (request : CleanupRequest)
    (stage : Stage) : CardProg Bool := do
  let envelope := journalLine j segment request stage
  let _ ← removeFile cleanupTemporary
  let written ← writeFile cleanupTemporary envelope
  if written ≠ some envelope.length then do
    let _ ← removeFile cleanupTemporary
    return false
  else do
    let _ ← removeFile cleanupJournalPath
    renameFile cleanupTemporary cleanupJournalPath

def clearCleanupJournal : CardProg Bool := do
  let target ← removeIfPresent cleanupJournalPath
  let temporary ← removeIfPresent cleanupTemporary
  return target && temporary

/-! ### Recovering -/

/-- What is found of a transaction. -/
structure CleanupRecoverySnapshot where
  stage : Bytes
  hasIndex : Bool
  recordOriginalExists : Bool
  recordTrashExists : Bool
  indexOriginalExists : Bool
  indexTrashExists : Bool

inductive CleanupRecoveryAction
  | block
  | clearJournal
  | reverseMoves
  | forwardDelete
  deriving DecidableEq, Repr

def cleanupRecoveryAction (s : CleanupRecoverySnapshot) : CleanupRecoveryAction :=
  let recordCollision := s.recordOriginalExists && s.recordTrashExists
  let recordMissing := !s.recordOriginalExists && !s.recordTrashExists
  let indexCollision := s.hasIndex && s.indexOriginalExists && s.indexTrashExists
  let indexMissing := s.hasIndex && !s.indexOriginalExists && !s.indexTrashExists
  let inTrash := s.recordTrashExists || (s.hasIndex && s.indexTrashExists)
  if recordCollision || indexCollision then .block
  else if s.stage = Stage.planned.text then
    if recordMissing || indexMissing then .block
    else if inTrash then .reverseMoves
    else .clearJournal
  else if s.stage = Stage.filesMoved.text ∨ s.stage = Stage.recordDeleted.text ∨
      s.stage = Stage.complete.text then
    if s.recordOriginalExists || (s.hasIndex && s.indexOriginalExists) then .block
    else if inTrash then .forwardDelete
    else .clearJournal
  else .block

/-- A temporary file takes the place of its target, unless the target is there. -/
def restoreArtifact (suffix temporary : Bytes) : CardProg Bool := do
  let target := temporary.take (temporary.length - suffix.length)
  let present ← fileExists target
  if present then removeFile temporary else renameFile temporary target

/-- All temporary files of a kind. -/
def restoreArtifacts (suffix : Bytes) : List Bytes → CardProg Bool
  | [] => return true
  | temporary :: rest => do
    let done ← restoreArtifact suffix temporary
    let others ← restoreArtifacts suffix rest
    return done && others

def removeAll : List Bytes → CardProg Bool
  | [] => return true
  | path :: rest => do
    let done ← removeFile path
    let others ← removeAll rest
    return done && others

def recoverAtomicTemp (target : Bytes) : CardProg Bool := do
  let present ← fileExists (target ++ ascii ".tmp")
  if !present then return true else restoreArtifact (ascii ".tmp") (target ++ ascii ".tmp")

def eventJournalPath : Bytes := ascii "/POWERMON/state/event-sequence.journal"

/-- The temporary files that any operation may have left. -/
def recoverTemporaries : CardProg Bool := do
  let events ← recoverAtomicTemp eventJournalPath
  let journal ← runIf events (recoverAtomicTemp cleanupJournalPath) false
  let metadata ← listFiles (ascii "/POWERMON/state/segments/") (ascii ".tmp")
  let metadataDone ← restoreArtifacts (ascii ".tmp") metadata
  let repairs ← listFiles (ascii "/POWERMON/records/") (ascii ".repair")
  let repairsDone ← restoreArtifacts (ascii ".repair") repairs
  let backups ← listFiles (ascii "/POWERMON/indexes/") (ascii ".previous")
  let backupsDone ← restoreArtifacts (ascii ".previous") backups
  let staged ← listFiles (ascii "/POWERMON/indexes/") (ascii ".rebuild")
  let stagedDone ← removeAll staged
  return journal && metadataDone && repairsDone && backupsDone && stagedDone

/-- What the journal says. -/
structure CleanupJournal where
  stage : Bytes
  recordPath : Bytes
  indexPath : Bytes
  recordTrash : Bytes
  indexTrash : Bytes
  deriving DecidableEq

def parseCleanupJournal (j : JsonLibrary) (content : Option Bytes) : Option CleanupJournal := do
  let line ← content.bind readEnvelopeLine
  let (payload, _) ← decodeEnvelope line
  let document ← j.deserialize payload
  let textAt (name : String) : Bytes := cString ((document (ascii name)).text.getD [])
  return { stage := textAt "stage", recordPath := textAt "record_path", indexPath := textAt "index_path",
           recordTrash := textAt "record_trash", indexTrash := textAt "index_trash" }

/-- The journal names only files it may change. -/
def pathsSafe (journal : CleanupJournal) : Bool :=
  let eventSegment := (ascii "/POWERMON/events/").isPrefixOf journal.recordPath
  ((ascii "/POWERMON/records/").isPrefixOf journal.recordPath || eventSegment) &&
    ((eventSegment && journal.indexPath = [] && journal.indexTrash = []) ||
      ((ascii "/POWERMON/indexes/").isPrefixOf journal.indexPath &&
        cleanupTrashDirectory.isPrefixOf journal.indexTrash)) &&
    cleanupTrashDirectory.isPrefixOf journal.recordTrash && journal.recordTrash ≠ []

/-- Takes the moves back. -/
def reverseMoves (journal : CleanupJournal) (snapshot : CleanupRecoverySnapshot) : CardProg Bool := do
  let record ← runIf snapshot.recordTrashExists (renameFile journal.recordTrash journal.recordPath) true
  let index ← runIf (snapshot.hasIndex && snapshot.indexTrashExists)
    (renameFile journal.indexTrash journal.indexPath) true
  return record && index

/-- Removes what was moved. -/
def forwardDelete (journal : CleanupJournal) (snapshot : CleanupRecoverySnapshot) : CardProg Bool := do
  let record ← runIf snapshot.recordTrashExists (removeFile journal.recordTrash) true
  let index ← runIf (snapshot.hasIndex && snapshot.indexTrashExists) (removeFile journal.indexTrash) true
  return record && index

def takeSnapshot (journal : CleanupJournal) : CardProg CleanupRecoverySnapshot := do
  let recordOriginal ← fileExists journal.recordPath
  let recordTrash ← fileExists journal.recordTrash
  let indexOriginal ← runIf (journal.indexPath ≠ []) (fileExists journal.indexPath) false
  let indexTrash ← runIf (journal.indexTrash ≠ []) (fileExists journal.indexTrash) false
  return {
    stage := journal.stage
    hasIndex := journal.indexPath ≠ []
    recordOriginalExists := recordOriginal
    recordTrashExists := recordTrash
    indexOriginalExists := indexOriginal
    indexTrashExists := indexTrash }

/-- What the recovery does with the files. -/
def performRecovery (journal : CleanupJournal) (snapshot : CleanupRecoverySnapshot) : CardProg Bool :=
  match cleanupRecoveryAction snapshot with
  | .block => return false
  | .clearJournal => return true
  | .reverseMoves => reverseMoves journal snapshot
  | .forwardDelete => forwardDelete journal snapshot

/-- Takes back or finishes the transaction of a journal. -/
def resumeCleanup (journal : CleanupJournal) : CardProg Bool := do
  let snapshot ← takeSnapshot journal
  let moved ← performRecovery journal snapshot
  runIf moved clearCleanupJournal false

def recoverCleanupJournal (j : JsonLibrary) : CardProg Bool := do
  let temporaries ← recoverTemporaries
  if !temporaries then return false
  else
    let present ← fileExists cleanupJournalPath
    if !present then return true
    else
      let content ← readFile cleanupJournalPath
      match parseCleanupJournal j content with
      | none => return false
      | some journal => if !pathsSafe journal then return false else resumeCleanup journal

/-! ### The transaction -/

/-- The segment is there, and nothing of it is in the trash. -/
def removable (segment : CleanupSegment) : CardProg Bool := do
  let record ← fileExists segment.recordPath
  if !record then return false
  else
    let index ← runIf segment.hasIndex (fileExists segment.indexPath) true
    if !index then return false
    else
      let inTrash ← fileExists (recordTrash segment)
      if inTrash then return false
      else
        let indexInTrash ← runIf segment.hasIndex (fileExists (indexTrash segment)) false
        return !indexInTrash

/-- Once the files are in the trash: they are removed. -/
def deleteMoved (j : JsonLibrary) (segment : CleanupSegment) (request : CleanupRequest) : CardProg Bool := do
  let recordRemoved ← removeFile (recordTrash segment)
  if !recordRemoved then return false
  else
    let noted ← persistCleanupJournal j segment request .recordDeleted
    if !noted then return false
    else
      let indexRemoved ← runIf segment.hasIndex (removeFile (indexTrash segment)) true
      if !indexRemoved then return false
      else
        let _ ← removeFile (metadataPath segment.recordPath)
        let completed ← persistCleanupJournal j segment request .complete
        if !completed then return false else clearCleanupJournal

/-- The record, then its index, go to the trash. -/
def moveToTrash (segment : CleanupSegment) : CardProg Bool := do
  let recordMoved ← renameFile segment.recordPath (recordTrash segment)
  runIf (recordMoved && segment.hasIndex) (renameFile segment.indexPath (indexTrash segment)) recordMoved

/-- Once the transaction is planned. -/
def executePlan (j : JsonLibrary) (segment : CleanupSegment) (request : CleanupRequest) : CardProg Bool := do
  let moved ← moveToTrash segment
  if !moved then do
    let _ ← recoverCleanupJournal j
    return false
  else
    let noted ← persistCleanupJournal j segment request .filesMoved
    if !noted then do
      let _ ← recoverCleanupJournal j
      return false
    else deleteMoved j segment request

def removeSegmentTransactionally (j : JsonLibrary) (segment : CleanupSegment) (request : CleanupRequest) :
    CardProg Bool := do
  let ready ← removable segment
  if !ready then return false
  else
    let planned ← persistCleanupJournal j segment request .planned
    if !planned then return false else executePlan j segment request

end PowerMonitor.Storage.Cleanup
