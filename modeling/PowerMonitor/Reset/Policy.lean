import PowerMonitor.Lib.Binary

/-! # The record of a data reset

One record follows a data reset through its states and checkpoints. `validRecord` says which records
may be stored, `validRecordUpdate` which record may replace which. The fields that the source compares
together are grouped: what was measured when the reset was prepared (`PreparedEvidence`), what the
commit fixed (`CommitEvidence`), the counts of deleted files and the measurement pause. -/

namespace PowerMonitor.Reset.Policy

open PowerMonitor.Lib.Binary

/-! ### The data -/

def recordSchemaVersion : UInt32 := 1
def protocolVersion : Bytes := ascii "data-reset/1.0.0"
def measurementHistoryCategory : Bytes := ascii "measurement_history"

/-- Two below the largest signed 64-bit number. -/
def maximumResetBoundary : UInt64 := 9223372036854775805

inductive State
  | idle | preparing | prepared | committing | completed | cancelled | attentionRequired
  deriving DecidableEq, Repr

inductive Checkpoint
  | none | commitAuthorized | sequenceAdvanced | cursorsAdvanced | readingsCleared | baselineInstalled
  | verified | completed
  deriving DecidableEq, Repr

/-- The stored number of a state. -/
def State.value : State → UInt8
  | .idle => 0
  | .preparing => 1
  | .prepared => 2
  | .committing => 3
  | .completed => 4
  | .cancelled => 5
  | .attentionRequired => 6

/-- The stored number of a checkpoint. -/
def Checkpoint.value : Checkpoint → UInt8
  | .none => 0
  | .commitAuthorized => 10
  | .sequenceAdvanced => 20
  | .cursorsAdvanced => 30
  | .readingsCleared => 40
  | .baselineInstalled => 50
  | .verified => 60
  | .completed => 70

/-- The place of a checkpoint in the order of the reset. -/
def checkpointIndex : Checkpoint → ℕ
  | .none => 0
  | .commitAuthorized => 1
  | .sequenceAdvanced => 2
  | .cursorsAdvanced => 3
  | .readingsCleared => 4
  | .baselineInstalled => 5
  | .verified => 6
  | .completed => 7

structure PrepareRequest where
  protocol : Bytes := []
  operationId : Bytes := []
  deviceId : Bytes := []
  targetGeneration : UInt64 := 0
  resetTimestamp : Bytes := []
  planRevision : UInt64 := 0
  planDigest : Bytes := []
  categories : List Bytes := []
  expectedBoundary : UInt64 := 0
  serverHighestContiguous : UInt64 := 0
  serverMaximumSeen : UInt64 := 0
  expectedFirmwareVersion : Bytes := []
  expectedBuildHashSet : Bool := false
  expectedBuildHash : Bytes := []
  expectedCardGenerationSet : Bool := false
  expectedCardGeneration : UInt64 := 0
  deriving DecidableEq

structure BoundaryInputs where
  expectedBoundary : UInt64
  serverHighestContiguous : UInt64
  serverMaximumSeen : UInt64
  localSequenceFloor : UInt64
  nextSequence : UInt64
  newestStoredSequence : UInt64
  newestSyncableSequence : UInt64
  sensorServerAcknowledgement : UInt64
  sensorMaximumSeen : UInt64
  preparedRemovalFloor : UInt64

/-- What was measured when the reset was prepared. -/
structure PreparedEvidence where
  firmwareVersion : Bytes := []
  buildHash : Bytes := []
  bootId : Bytes := []
  newestStoredSequence : UInt64 := 0
  newestSyncableSequence : UInt64 := 0
  sensorServerAcknowledgement : UInt64 := 0
  sensorMaximumSeen : UInt64 := 0
  removalFloor : UInt64 := 0
  localSequenceFloor : UInt64 := 0
  nextSequence : UInt64 := 0
  localRecordCount : UInt64 := 0
  drainRecordsAdded : UInt64 := 0
  drainSequenceRangeSet : Bool := false
  drainFirstSequence : UInt64 := 0
  drainLastSequence : UInt64 := 0
  drainSyncableRecordsAdded : UInt64 := 0
  cardGeneration : UInt64 := 0
  sdStatus : Bytes := []
  pzemEnergyWh : UInt64 := 0
  softwareEnergyBaselineBeforeWh : UInt64 := 0
  configurationDigestBefore : Bytes := []
  receipt : Bytes := []
  receiptDigest : Bytes := []
  deriving DecidableEq

/-- What the commit fixes. -/
structure CommitEvidence where
  approvedBoundarySet : Bool := false
  approvedBoundary : UInt64 := 0
  newSequenceFloor : UInt64 := 0
  newNextSequence : UInt64 := 0
  energyBaselineSet : Bool := false
  pzemEnergyWh : UInt64 := 0
  applicationEnergyBaselineWh : UInt64 := 0
  deriving DecidableEq

/-- How many files were deleted. -/
structure DeletionCounts where
  readings : UInt64 := 0
  indexes : UInt64 := 0
  exports : UInt64 := 0
  backlogEntries : UInt64 := 0
  deriving DecidableEq

structure MeasurementPause where
  startedUtcMs : UInt64 := 0
  endedUtcMs : UInt64 := 0
  evidenced : Bool := false
  deriving DecidableEq

structure Record where
  schemaVersion : UInt32 := recordSchemaVersion
  state : State := .idle
  checkpoint : Checkpoint := .none
  prepare : PrepareRequest := {}
  prepared : PreparedEvidence := {}
  pause : MeasurementPause := {}
  commit : CommitEvidence := {}
  verifiedPzemEnergyWh : UInt64 := 0
  deleted : DeletionCounts := {}
  configurationDigestAfter : Bytes := []
  completionTimestamp : Bytes := []
  completionReceipt : Bytes := []
  failureCode : Bytes := []
  deriving DecidableEq

/-! ### Texts -/

def boundedPrintable (value : Bytes) (maximum : ℕ) : Bool :=
  decide (value.length ≤ maximum) && value ≠ [] && value.all fun b => 0x20 ≤ b && b ≤ 0x7E

def lowercaseAlphanumeric (b : UInt8) : Bool := (97 ≤ b && b ≤ 122) || (48 ≤ b && b ≤ 57)

def safeFailureCode : Bytes → Bool
  | [] => true
  | first :: rest =>
    decide (rest.length + 1 ≤ 80) && lowercaseAlphanumeric first &&
      rest.all fun b => lowercaseAlphanumeric b || b = 95

def hexDigit (b : UInt8) : Bool := (48 ≤ b && b ≤ 57) || (97 ≤ b && b ≤ 102)

def lowercaseHex (value : Bytes) (length : ℕ) : Bool :=
  decide (value.length = length) && value.all hexDigit

def lowercaseUuid (value : Bytes) : Bool :=
  decide (value.length = 36) &&
    value.zipIdx.all fun (b, index) =>
      if index = 8 ∨ index = 13 ∨ index = 18 ∨ index = 23 then b = 45 else hexDigit b

def validResetTimestamp (value : Bytes) : Bool :=
  decide (20 ≤ value.length) && decide (value.length ≤ 40) && value.getD 4 0 = 45 &&
    value.getD 7 0 = 45 && value.getD 10 0 = 84 && value.getLast? = some 90 && boundedPrintable value 40

/-! ### Requests -/

def categoriesSupported (categories : List Bytes) : Bool := categories = [measurementHistoryCategory]

def validPrepareRequest (request : PrepareRequest) : Bool :=
  request.protocol = protocolVersion && lowercaseUuid request.operationId &&
    lowercaseUuid request.deviceId && request.targetGeneration ≠ 0 &&
    validResetTimestamp request.resetTimestamp && request.planRevision ≠ 0 &&
    lowercaseHex request.planDigest 64 && categoriesSupported request.categories &&
    request.expectedBoundary ≤ maximumResetBoundary &&
    request.serverHighestContiguous ≤ maximumResetBoundary &&
    request.serverMaximumSeen ≤ maximumResetBoundary &&
    request.serverHighestContiguous ≤ request.serverMaximumSeen &&
    boundedPrintable request.expectedFirmwareVersion 32 &&
    (if request.expectedBuildHashSet then lowercaseHex request.expectedBuildHash 64
      else request.expectedBuildHash = []) &&
    (if request.expectedCardGenerationSet then request.expectedCardGeneration ≠ 0
      else request.expectedCardGeneration = 0)

/-- The boundary below which every sequence is spent, if it leaves room for the next one. -/
def highestTrustedBoundary (inputs : BoundaryInputs) : Option UInt64 :=
  let boundary := max inputs.expectedBoundary inputs.serverHighestContiguous
  let boundary := max boundary inputs.serverMaximumSeen
  let boundary := max boundary inputs.localSequenceFloor
  let boundary := if inputs.nextSequence ≠ 0 then max boundary (inputs.nextSequence - 1) else boundary
  let boundary := max boundary inputs.newestStoredSequence
  let boundary := max boundary inputs.newestSyncableSequence
  let boundary := max boundary inputs.sensorServerAcknowledgement
  let boundary := max boundary inputs.sensorMaximumSeen
  let boundary := max boundary inputs.preparedRemovalFloor
  if boundary > maximumResetBoundary then none else some boundary

def boundaryInputs (record : Record) : BoundaryInputs where
  expectedBoundary := record.prepare.expectedBoundary
  serverHighestContiguous := record.prepare.serverHighestContiguous
  serverMaximumSeen := record.prepare.serverMaximumSeen
  localSequenceFloor := record.prepared.localSequenceFloor
  nextSequence := record.prepared.nextSequence
  newestStoredSequence := record.prepared.newestStoredSequence
  newestSyncableSequence := record.prepared.newestSyncableSequence
  sensorServerAcknowledgement := record.prepared.sensorServerAcknowledgement
  sensorMaximumSeen := record.prepared.sensorMaximumSeen
  preparedRemovalFloor := record.prepared.removalFloor

/-! ### Evidence -/

def preparedEvidencePresent (record : Record) : Bool := record.prepared.receipt ≠ []

/-- The range of sequences the prepare drain added. -/
def validDrainRange (p : PreparedEvidence) : Bool :=
  p.drainRecordsAdded ≤ 2 && p.drainSyncableRecordsAdded ≤ p.drainRecordsAdded &&
    p.drainSequenceRangeSet = decide (p.drainRecordsAdded > 0) &&
    (if p.drainSequenceRangeSet then
      p.drainFirstSequence ≠ 0 && p.drainFirstSequence ≤ p.drainLastSequence &&
        p.drainLastSequence - p.drainFirstSequence + 1 = p.drainRecordsAdded &&
        p.drainLastSequence = p.newestStoredSequence && p.nextSequence = p.drainLastSequence + 1 &&
        p.drainRecordsAdded ≤ p.localRecordCount &&
        (p.drainSyncableRecordsAdded = 0 ||
          (p.drainFirstSequence ≤ p.newestSyncableSequence &&
            (p.drainSyncableRecordsAdded ≠ p.drainRecordsAdded ||
              p.newestSyncableSequence = p.drainLastSequence)))
    else
      p.drainFirstSequence = 0 && p.drainLastSequence = 0 && p.drainSyncableRecordsAdded = 0)

def validPreparedEvidence (record : Record) : Bool :=
  let p := record.prepared
  boundedPrintable p.firmwareVersion 32 && lowercaseHex p.buildHash 64 && lowercaseUuid p.bootId &&
    p.nextSequence ≠ 0 && p.localSequenceFloor < p.nextSequence && p.cardGeneration ≠ 0 &&
    boundedPrintable p.sdStatus 32 && lowercaseHex p.configurationDigestBefore 64 &&
    boundedPrintable p.receipt 4096 && lowercaseHex p.receiptDigest 64 &&
    p.firmwareVersion = record.prepare.expectedFirmwareVersion &&
    (!record.prepare.expectedBuildHashSet || p.buildHash = record.prepare.expectedBuildHash) &&
    (!record.prepare.expectedCardGenerationSet ||
      p.cardGeneration = record.prepare.expectedCardGeneration) &&
    validDrainRange p && p.newestSyncableSequence ≤ p.newestStoredSequence &&
    p.sensorServerAcknowledgement ≤ p.sensorMaximumSeen

def noPreparedEvidence (record : Record) : Bool := record.prepared = {}

/-- Nothing of what follows the authorisation is there yet. -/
def noProgress (record : Record) : Bool :=
  record.verifiedPzemEnergyWh = 0 && record.deleted = {} && record.configurationDigestAfter = [] &&
    record.completionTimestamp = [] && record.completionReceipt = []

def noCommitEvidence (record : Record) : Bool := record.commit = {} && noProgress record

def validCommitEvidence (record : Record) : Bool :=
  let c := record.commit
  c.approvedBoundarySet && c.energyBaselineSet && c.approvedBoundary ≤ maximumResetBoundary &&
    c.newSequenceFloor = c.approvedBoundary && c.newNextSequence = c.approvedBoundary + 1 &&
    (match highestTrustedBoundary (boundaryInputs record) with
      | none => false
      | some required => required ≤ c.approvedBoundary && record.prepared.pzemEnergyWh ≤ c.pzemEnergyWh) &&
    (if record.checkpoint.value ≥ Checkpoint.verified.value then
      c.pzemEnergyWh ≤ record.verifiedPzemEnergyWh
    else record.verifiedPzemEnergyWh = 0)

/-- Before the commit point, the boundary may be latched and nothing else. -/
def validPreauthorizationEvidence (record : Record) : Bool :=
  let c := record.commit
  if !c.approvedBoundarySet then noCommitEvidence record
  else
    (record.state = .prepared || record.state = .attentionRequired) && record.checkpoint = .none &&
      (match highestTrustedBoundary (boundaryInputs record) with
        | none => false
        | some required => required ≤ c.approvedBoundary) &&
      c.approvedBoundary ≤ maximumResetBoundary && c.newSequenceFloor = c.approvedBoundary &&
      c.newNextSequence = c.approvedBoundary + 1 && !c.energyBaselineSet && c.pzemEnergyWh = 0 &&
      c.applicationEnergyBaselineWh = 0 && noProgress record

/-! ### States and checkpoints -/

def terminalState (state : State) : Bool := state = .completed || state = .cancelled

def commitPointReached (checkpoint : Checkpoint) : Bool :=
  checkpointIndex checkpoint ≥ checkpointIndex .commitAuthorized

def resumeStateForCheckpoint : Checkpoint → State
  | .none => .prepared
  | .completed => .completed
  | _ => .committing

def validStateCheckpoint (state : State) (checkpoint : Checkpoint) : Bool :=
  match state with
  | .idle | .preparing | .prepared | .cancelled => checkpoint = .none
  | .committing =>
    Checkpoint.commitAuthorized.value ≤ checkpoint.value && checkpoint.value ≤ Checkpoint.verified.value
  | .completed => checkpoint = .completed
  | .attentionRequired =>
    Checkpoint.none.value ≤ checkpoint.value && checkpoint.value ≤ Checkpoint.verified.value

def canTransition (source target : State) (checkpoint : Checkpoint) : Bool :=
  if !validStateCheckpoint target checkpoint then false
  else if source = target then !terminalState source
  else
    match source with
    | .idle => target = .preparing
    | .preparing => target = .prepared || target = .cancelled
    | .prepared =>
      (target = .committing && checkpoint = .commitAuthorized) || target = .cancelled ||
        (target = .attentionRequired && checkpoint = .none)
    | .committing =>
      (target = .completed && checkpoint = .completed) || target = .attentionRequired
    | .attentionRequired =>
      target = resumeStateForCheckpoint checkpoint || (target = .cancelled && checkpoint = .none)
    | .completed | .cancelled => false

def canAdvanceCheckpoint (current proposed : Checkpoint) : Bool :=
  checkpointIndex proposed = checkpointIndex current ||
    checkpointIndex proposed = checkpointIndex current + 1

/-! ### Records -/

/-- The pause of the measurement: open until the reset is verified or cancelled. -/
def validPause (record : Record) : Bool :=
  record.pause.startedUtcMs ≠ 0 &&
    (if record.state = .cancelled ∨ record.checkpoint.value ≥ Checkpoint.verified.value then
      record.pause.evidenced && record.pause.startedUtcMs ≤ record.pause.endedUtcMs
    else !record.pause.evidenced && record.pause.endedUtcMs = 0)

def validRecord (record : Record) : Bool :=
  record.schemaVersion = recordSchemaVersion && record.state ≠ .idle &&
    validPrepareRequest record.prepare && validStateCheckpoint record.state record.checkpoint &&
    safeFailureCode record.failureCode &&
    (if preparedEvidencePresent record then validPreparedEvidence record
      else noPreparedEvidence record) &&
    (!(record.state = .prepared || record.state = .committing || record.state = .completed ||
        record.state = .attentionRequired) || preparedEvidencePresent record) &&
    !(record.state = .preparing && preparedEvidencePresent record) &&
    (if commitPointReached record.checkpoint then validCommitEvidence record
      else validPreauthorizationEvidence record) &&
    validPause record && !(record.state = .attentionRequired && record.failureCode = []) &&
    (if record.checkpoint.value ≥ Checkpoint.verified.value then
      lowercaseHex record.configurationDigestAfter 64 &&
        record.configurationDigestAfter = record.prepared.configurationDigestBefore
    else record.configurationDigestAfter = [] || lowercaseHex record.configurationDigestAfter 64) &&
    (if record.state = .completed then
      boundedPrintable record.completionTimestamp 40 && boundedPrintable record.completionReceipt 4096
    else record.completionTimestamp = [] && record.completionReceipt = [])

def prepareRequestsEqual (left right : PrepareRequest) : Bool := left = right
def preparedEvidenceEqual (left right : Record) : Bool := left.prepared = right.prepared
def commitEvidenceEqual (left right : Record) : Bool := left.commit = right.commit
def recordsEqual (left right : Record) : Bool := left = right

/-- The first record of the next operation. -/
def validSuccessor (current proposed : Record) : Bool :=
  terminalState current.state && proposed.state = .preparing && proposed.checkpoint = .none &&
    (if current.state = .completed then
      proposed.prepare.targetGeneration > current.prepare.targetGeneration
    else proposed.prepare.targetGeneration ≥ current.prepare.targetGeneration)

/-- The next record of the same operation. -/
def validContinuation (current proposed : Record) : Bool :=
  prepareRequestsEqual current.prepare proposed.prepare &&
    canTransition current.state proposed.state proposed.checkpoint &&
    canAdvanceCheckpoint current.checkpoint proposed.checkpoint &&
    (!preparedEvidencePresent current || preparedEvidenceEqual current proposed) &&
    (!commitPointReached current.checkpoint || commitEvidenceEqual current proposed) &&
    (!current.commit.approvedBoundarySet ||
      (current.commit.approvedBoundary = proposed.commit.approvedBoundary &&
        current.commit.newSequenceFloor = proposed.commit.newSequenceFloor &&
        current.commit.newNextSequence = proposed.commit.newNextSequence &&
        proposed.commit.approvedBoundarySet)) &&
    (!(current.checkpoint.value ≥ Checkpoint.verified.value) ||
      current.verifiedPzemEnergyWh = proposed.verifiedPzemEnergyWh) &&
    current.deleted.readings ≤ proposed.deleted.readings &&
    current.deleted.indexes ≤ proposed.deleted.indexes &&
    current.deleted.exports ≤ proposed.deleted.exports &&
    current.deleted.backlogEntries ≤ proposed.deleted.backlogEntries &&
    (current.configurationDigestAfter = [] ||
      current.configurationDigestAfter = proposed.configurationDigestAfter) &&
    (current.completionReceipt = [] ||
      (current.completionReceipt = proposed.completionReceipt &&
        current.completionTimestamp = proposed.completionTimestamp)) &&
    current.pause.startedUtcMs = proposed.pause.startedUtcMs &&
    (!current.pause.evidenced ||
      (current.pause.endedUtcMs = proposed.pause.endedUtcMs && proposed.pause.evidenced))

def validRecordUpdate (current proposed : Record) : Bool :=
  validRecord current && validRecord proposed &&
    (if current.prepare.operationId ≠ proposed.prepare.operationId then validSuccessor current proposed
      else validContinuation current proposed)

end PowerMonitor.Reset.Policy
