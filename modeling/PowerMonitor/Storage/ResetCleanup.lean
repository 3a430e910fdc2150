import PowerMonitor.Lib.Checked
import PowerMonitor.Lib.Component
import PowerMonitor.Reset.CleanupJournal
import PowerMonitor.Storage.Cleanup
import PowerMonitor.Storage.Events
import PowerMonitor.Storage.Manifest

/-! # Removing the readings of a card

A data reset removes the files of readings, their indexes, the exports and the sidecars of readings
(`clearReadingDataForReset`). It first resolves an interrupted transaction of retention, then lists and
classifies the files, and stores the inventory in the cleanup journal; only then it removes them, one after
another, and proves that they are gone. An enrollment classifies the files the same way, with its own error
codes. -/

namespace PowerMonitor.Storage.ResetCleanup

open PowerMonitor.Lib.Binary PowerMonitor.Lib.Json PowerMonitor.Lib.Program PowerMonitor.Lib.Component
open PowerMonitor.Lib.Checked
open PowerMonitor.Reset.CleanupJournal (Slots Outcome CleanupRecord CleanupState Inventory)
open PowerMonitor.Reset.RecordStore (DataResetStoreResult)
open PowerMonitor.Storage.RecordFormat PowerMonitor.Storage.Reading PowerMonitor.Storage.Media
open PowerMonitor.Storage.Segment PowerMonitor.Storage.SdStorage PowerMonitor.Storage.Cleanup
open PowerMonitor.Storage.Manifest (CardIdentity IdentityStatus)

/-! ### The card and the journal -/

structure Machine where
  card : Card := ∅
  slots : Slots := {}

/-- The operations: those of the card, a listing that tells when it fails, and those of the journal. -/
inductive Call
  | card (o : Op)
  | collectStrict (directory : Bytes)
  | load
  | save (record : CleanupRecord)
  | scrub (completed : CleanupRecord)

abbrev Answer : Call → Type
  | .card o => Ans o
  | .collectStrict _ => Option (List Bytes)
  | .load => DataResetStoreResult × Option CleanupRecord
  | .save _ => DataResetStoreResult
  | .scrub _ => DataResetStoreResult

/-- What the environment does to an operation. -/
inductive Turn
  | card (e : Event)
  | journal (outcome : Outcome)
  deriving DecidableEq

def Turn.event : Turn → Event
  | .card e => e
  | .journal _ => .done

def Turn.outcome : Turn → Outcome
  | .card _ => .done
  | .journal outcome => outcome

/-- The card and the journal as a device. -/
def machine (j : JsonLibrary) : Device Call Answer Turn Machine where
  act
    | .card o, e, m => ({ m with card := (device.act o e.event m.card).1 }, (device.act o e.event m.card).2)
    | .collectStrict directory, e, m =>
      (m, if e.event = .failed then none else some (collectFiles (directory ++ [47]) [] m.card))
    | .load, e, m => (m, Reset.CleanupJournal.loadFrom e.outcome m.slots)
    | .save record, e, m =>
      let (result, slots) := Reset.CleanupJournal.saveTo j e.outcome record m.slots
      ({ m with slots := slots }, result)
    | .scrub completed, e, m =>
      let (result, slots) := Reset.CleanupJournal.scrubCompletedCopies e.outcome completed m.slots
      ({ m with slots := slots }, result)

abbrev MachineProg := Prog Call Answer

/-- A program that may stop with an error code. -/
abbrev Checked := CheckedProg Call Answer Bytes

/-- The card's operations. -/
def cardCalls : Inclusion Op Call Ans Answer where
  op := .card
  answer := fun _ r => r

def onCard {α : Type} (p : CardProg α) : MachineProg α := component cardCalls p

/-- An operation of the card in a program that may stop. -/
def fromCard {α : Type} (p : CardProg α) : Checked α := liftM (onCard p)

def collectFilesStrict (directory : Bytes) : MachineProg (Option (List Bytes)) := Prog.op (Call.collectStrict directory)
def loadJournal : MachineProg (DataResetStoreResult × Option CleanupRecord) := Prog.op Call.load
def saveJournal (record : CleanupRecord) : MachineProg DataResetStoreResult := Prog.op (Call.save record)
def scrubJournal (completed : CleanupRecord) : MachineProg DataResetStoreResult := Prog.op (Call.scrub completed)

/-! ### Classifying -/

inductive Kind
  | reading | index | exported | metadata
  deriving DecidableEq, Repr

structure PlannedRemoval where
  path : Bytes
  kind : Kind
  bytes : ℕ
  deriving DecidableEq

def recordsDirectory : Bytes := ascii "/POWERMON/records"
def indexesDirectory : Bytes := ascii "/POWERMON/indexes"
def exportsDirectory : Bytes := ascii "/POWERMON/exports"
def segmentsDirectory : Bytes := ascii "/POWERMON/state/segments"

/-- The path ends with one of the texts. -/
def endsWith (suffixes : List Bytes) (path : Bytes) : Bool := suffixes.any fun suffix => suffix.isSuffixOf path

def readingFile : Bytes → Bool := endsWith [ascii ".pmr", ascii ".repair"]
def indexFile : Bytes → Bool := endsWith [ascii ".idx", ascii ".rebuild", ascii ".previous", ascii ".tmp"]
def exportFile : Bytes → Bool := endsWith [ascii ".csv", ascii ".json", ascii ".ndjson", ascii ".tmp"]

/-- The error codes of a classification. -/
structure Codes where
  inventoryFailed : Bytes
  unknownArtifact : Bytes
  inventoryChanged : Bytes
  metadataInvalid : Bytes
  metadataUnclassified : Bytes
  trashUnlisted : Bytes
  unknownTrash : Bytes

def resetCodes : Codes where
  inventoryFailed := ascii "data_reset_storage_inventory_failed"
  unknownArtifact := ascii "data_reset_unknown_storage_artifact"
  inventoryChanged := ascii "data_reset_storage_inventory_changed"
  metadataInvalid := ascii "data_reset_segment_metadata_invalid"
  metadataUnclassified := ascii "data_reset_segment_metadata_unclassified"
  trashUnlisted := ascii "data_reset_storage_inventory_failed"
  unknownTrash := ascii "data_reset_unknown_retention_trash"

def enrollmentCodes : Codes where
  inventoryFailed := ascii "enrollment_storage_inventory_failed"
  unknownArtifact := ascii "enrollment_unknown_storage_artifact"
  inventoryChanged := ascii "enrollment_storage_inventory_changed"
  metadataInvalid := ascii "enrollment_segment_metadata_invalid"
  metadataUnclassified := ascii "enrollment_segment_metadata_unclassified"
  trashUnlisted := ascii "enrollment_unknown_retention_trash"
  unknownTrash := ascii "enrollment_unknown_retention_trash"

/-- Files of one kind, each of which must be recognized and open. -/
def inventory (codes : Codes) (kind : Kind) (recognized : Bytes → Bool) : List Bytes → Checked (List PlannedRemoval)
  | [] => return []
  | path :: rest => do
    require (recognized path) codes.unknownArtifact
    let file ← fromCard (readFile path)
    match file with
    | none => throw codes.inventoryChanged
    | some content => do
      let others ← inventory codes kind recognized rest
      return ⟨path, kind, content.length⟩ :: others

def planFiles (codes : Codes) (root : Bytes) (kind : Kind) (recognized : Bytes → Bool) :
    Checked (List PlannedRemoval) := do
  let files ← collectFilesStrict root
  match files with
  | none => throw codes.inventoryFailed
  | some files => inventory codes kind recognized files

/-- The segment that a sidecar's content names, and the size of the sidecar. -/
def bindingOf (j : JsonLibrary) (input : Option Bytes) : Option (Bytes × ℕ) := do
  let content ← input
  let line ← readEnvelopeLine content
  let (payload, _) ← decodeEnvelope line
  let document ← j.deserialize payload
  let recordPath ← (document (ascii "record_path")).text
  return (cString recordPath, content.length)

def readSegmentBinding (j : JsonLibrary) (path : Bytes) : MachineProg (Option (Bytes × ℕ)) :=
  if !(ascii ".json").isSuffixOf path then return none
  else do
    let input ← onCard (readFile path)
    return bindingOf j input

/-- The sidecars of readings; those of events are kept. -/
def planMetadata (j : JsonLibrary) (codes : Codes) : List Bytes → Checked (List PlannedRemoval)
  | [] => return []
  | path :: rest => do
    let binding ← readSegmentBinding j path
    match binding with
    | none => throw codes.metadataInvalid
    | some (recordPath, bytes) =>
      if (ascii "/POWERMON/records/").isPrefixOf recordPath then do
        let others ← planMetadata j codes rest
        return ⟨path, .metadata, bytes⟩ :: others
      else if (ascii "/POWERMON/events/").isPrefixOf recordPath then planMetadata j codes rest
      else throw codes.metadataUnclassified

/-- The trash of retention is empty. -/
def requireNoTrash (unlisted unknown : Bytes) : Checked Unit := do
  let trash ← collectFilesStrict cleanupTrashDirectory
  match trash with
  | none => throw unlisted
  | some trash => require trash.isEmpty unknown

/-- **The classification**: every file that is to be removed, if every file is known. -/
def classify (j : JsonLibrary) (codes : Codes) : Checked (List PlannedRemoval) := do
  let readings ← planFiles codes recordsDirectory .reading readingFile
  let indexes ← planFiles codes indexesDirectory .index indexFile
  let exports ← planFiles codes exportsDirectory .exported exportFile
  let files ← collectFilesStrict segmentsDirectory
  match files with
  | none => throw codes.inventoryFailed
  | some files => do
    let metadata ← planMetadata j codes files
    requireNoTrash codes.trashUnlisted codes.unknownTrash
    return readings ++ indexes ++ exports ++ metadata

/-! ### The inventory -/

/-- The operation that resets, and the card it is bound to. -/
structure Request where
  operationId : Bytes
  sourceGeneration : UInt64
  targetGeneration : UInt64
  binding : CardBinding

def planCount (kind : Kind) (plan : List PlannedRemoval) : UInt64 :=
  UInt64.ofNat (plan.countP fun item => item.kind = kind)

def plannedBytes (plan : List PlannedRemoval) : ℕ := (plan.map PlannedRemoval.bytes).sum

def inventoryOf (plan : List PlannedRemoval) : Inventory where
  readingFiles := planCount .reading plan
  indexFiles := planCount .index plan
  exportFiles := planCount .exported plan
  metadataFiles := planCount .metadata plan
  bytes := UInt64.ofNat (plannedBytes plan)

def currentPlan (request : Request) (plan : List PlannedRemoval) : CleanupRecord where
  operationId := request.operationId
  deviceId := request.binding.deviceId
  sourceGeneration := request.sourceGeneration
  targetGeneration := request.targetGeneration
  cardGeneration := request.binding.generation
  inventory := inventoryOf plan

/-- The journal of the operation: the one that is stored, or the plan, which is stored first. -/
def loadOrStorePlan (current : CleanupRecord) : Checked CleanupRecord := do
  let (result, stored) ← loadJournal
  let journal := stored.getD {}
  if result = .notFound ∨ (result = .loaded ∧ journal.operationId ≠ current.operationId ∧
      journal.state = .completed) then do
    let saved ← saveJournal current
    require (saved = .savedAndVerified) (ascii "data_reset_cleanup_plan_persistence_failed")
    return current
  else if result ≠ .loaded then throw (ascii "data_reset_cleanup_journal_load_failed")
  else if journal.operationId ≠ current.operationId then throw (ascii "data_reset_cleanup_journal_conflict")
  else return journal

def sameBinding (journal current : CleanupRecord) : Bool :=
  journal.deviceId = current.deviceId && journal.sourceGeneration = current.sourceGeneration &&
    journal.targetGeneration = current.targetGeneration && journal.cardGeneration = current.cardGeneration

/-- Nothing is there that the journal does not count. -/
def withinInventory (journal current : CleanupRecord) (plan : List PlannedRemoval) : Bool :=
  decide (current.inventory.readingFiles ≤ journal.inventory.readingFiles) &&
    decide (current.inventory.indexFiles ≤ journal.inventory.indexFiles) &&
    decide (current.inventory.exportFiles ≤ journal.inventory.exportFiles) &&
    decide (current.inventory.metadataFiles ≤ journal.inventory.metadataFiles) &&
    decide (current.inventory.bytes ≤ journal.inventory.bytes) &&
    !(journal.state = .completed && !plan.isEmpty)

def agreeOnPlan (request : Request) (plan : List PlannedRemoval) : Checked CleanupRecord := do
  require (plannedBytes plan < 2 ^ 64) (ascii "data_reset_cleanup_count_overflow")
  let current := currentPlan request plan
  let journal ← loadOrStorePlan current
  require (sameBinding journal current) (ascii "data_reset_cleanup_journal_binding_changed")
  require (withinInventory journal current plan) (ascii "data_reset_cleanup_inventory_changed")
  return journal

/-! ### Removing -/

/-- The card in the slot is the one the operation is bound to. -/
def requireIdentity (j : JsonLibrary) (fingerprint : Bytes) (binding : CardBinding) : Checked Unit := do
  let bound ← fromCard (currentCardManifestMatchesReset j fingerprint binding)
  require bound (ascii "data_reset_storage_identity_changed")

def removePlanned (j : JsonLibrary) (fingerprint : Bytes) (binding : CardBinding) : List PlannedRemoval → Checked Unit
  | [] => return ()
  | item :: rest => do
    requireIdentity j fingerprint binding
    let present ← fromCard (fileExists item.path)
    let removed ← fromCard (runIf present (removeFile item.path) false)
    require removed (ascii "data_reset_storage_delete_failed")
    removePlanned j fingerprint binding rest

def requireEmptyTree (root : Bytes) : Checked Unit := do
  let remaining ← collectFilesStrict root
  match remaining with
  | none => throw (ascii "data_reset_storage_verification_failed")
  | some remaining => require remaining.isEmpty (ascii "data_reset_reading_inventory_not_empty")

/-- No sidecar of readings is left. -/
def requireNoReadingMetadata (j : JsonLibrary) : List Bytes → Checked Unit
  | [] => return ()
  | path :: rest => do
    let binding ← readSegmentBinding j path
    match binding with
    | none => throw (ascii "data_reset_segment_metadata_invalid")
    | some (recordPath, _) =>
      if (ascii "/POWERMON/records/").isPrefixOf recordPath then
        throw (ascii "data_reset_reading_inventory_not_empty")
      else if !(ascii "/POWERMON/events/").isPrefixOf recordPath then
        throw (ascii "data_reset_segment_metadata_unclassified")
      else requireNoReadingMetadata j rest

/-- Proves that nothing is left. -/
def verifyRemoved (j : JsonLibrary) : Checked Unit := do
  requireEmptyTree recordsDirectory
  requireEmptyTree indexesDirectory
  requireEmptyTree exportsDirectory
  requireNoTrash (ascii "data_reset_storage_verification_failed") (ascii "data_reset_unknown_retention_trash")
  let files ← collectFilesStrict segmentsDirectory
  match files with
  | none => throw (ascii "data_reset_storage_verification_failed")
  | some files => requireNoReadingMetadata j files

/-- The journal is completed, and both of its slots hold that. -/
def completeJournal (journal : CleanupRecord) : Checked Unit := do
  let completed := { journal with state := .completed }
  if journal.state ≠ .completed then do
    let saved ← saveJournal completed
    require (saved = .savedAndVerified) (ascii "data_reset_cleanup_completion_persistence_failed")
  let scrubbed ← scrubJournal completed
  require (scrubbed = .savedAndVerified) (ascii "data_reset_cleanup_payload_scrub_failed")

/-- The recovery that follows; it finds no readings. -/
def rescan (j : JsonLibrary) (fingerprint : Bytes) (binding : CardBinding) (ram : Ram) : Checked Unit := do
  let (ram, recovered) ← fromCard (recover j ram)
  require recovered (ascii "data_reset_storage_rescan_failed")
  requireIdentity j fingerprint binding
  let _ ← fromCard freeBytes
  require (ram.health.localRecordCount = 0 && ram.health.oldestSequence = 0 &&
    ram.health.newestSyncableSequence = 0) (ascii "data_reset_reading_inventory_not_empty")

/-! ### The operation -/

structure CleanupResult where
  ok : Bool := false
  errorCode : Bytes := []
  removed : Inventory := {}
  deriving DecidableEq

/-- Before the classification: the card is the right one, and no transaction of retention is open. -/
def settle (j : JsonLibrary) (fingerprint : Bytes) (binding : CardBinding) (identity : CardIdentity) (ram : Ram) :
    Checked Unit := do
  require (ram.health.mounted && ram.health.writable && identity.status = .verified)
    (ascii "data_reset_storage_unavailable")
  let bound ← fromCard (currentCardManifestMatchesReset j fingerprint binding)
  require (bound && resetCardBindingMatches identity.generation identity.deviceId binding)
    (ascii "data_reset_storage_identity_changed")
  let recovered ← fromCard (recoverCleanupJournal j)
  require recovered (ascii "data_reset_retention_recovery_failed")

/-- Up to the stored inventory. -/
def prepare (j : JsonLibrary) (fingerprint : Bytes) (request : Request) (identity : CardIdentity) (ram : Ram) :
    Checked (CleanupRecord × List PlannedRemoval) := do
  settle j fingerprint request.binding identity ram
  let plan ← classify j resetCodes
  let journal ← agreeOnPlan request plan
  return (journal, plan)

/-- Once the inventory is stored. -/
def execute (j : JsonLibrary) (fingerprint : Bytes) (request : Request) (ram : Ram) (journal : CleanupRecord)
    (plan : List PlannedRemoval) : Checked Unit := do
  requireIdentity j fingerprint request.binding
  removePlanned j fingerprint request.binding plan
  verifyRemoved j
  requireIdentity j fingerprint request.binding
  completeJournal journal
  rescan j fingerprint request.binding ram

def clearReadingDataForReset (j : JsonLibrary) (fingerprint : Bytes) (request : Request) (identity : CardIdentity)
    (ram : Ram) : MachineProg CleanupResult := do
  let prepared ← (prepare j fingerprint request identity ram).run
  match prepared with
  | .error code => return { errorCode := code }
  | .ok (journal, plan) =>
    let executed ← (execute j fingerprint request ram journal plan).run
    match executed with
    | .error code => return { errorCode := code, removed := journal.inventory }
    | .ok _ => return { ok := true, removed := journal.inventory }

end PowerMonitor.Storage.ResetCleanup
