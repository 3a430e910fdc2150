import PowerMonitor.Lib.Reader
import PowerMonitor.Reset.Policy

/-! # The stored form of a reset record

A fixed header, the numbers, the texts, and a CRC-32 over all of them. Only the first category is
stored; a record that is not valid is neither written nor read. -/

namespace PowerMonitor.Reset.Codec

open PowerMonitor.Lib.Binary PowerMonitor.Lib.Reader PowerMonitor.Reset.Policy

def magic : UInt32 := 0x52444D50
def formatVersion : UInt16 := 2
def maximumEncodedSize : ℕ := 16 * 1024
def expectedBuildHashFlag : UInt8 := 1
def expectedCardGenerationFlag : UInt8 := 2
def approvedBoundaryFlag : UInt8 := 4
def commitEnergyBaselineFlag : UInt8 := 8
def prepareDrainSequenceRangeFlag : UInt8 := 16
def measurementPauseEvidencedFlag : UInt8 := 64
def knownFlags : UInt8 :=
  expectedBuildHashFlag ||| expectedCardGenerationFlag ||| approvedBoundaryFlag |||
    commitEnergyBaselineFlag ||| prepareDrainSequenceRangeFlag ||| measurementPauseEvidencedFlag

/-! ### Writing -/

def flagIf (condition : Bool) (flag : UInt8) : UInt8 := if condition then flag else 0

def recordFlags (record : Record) : UInt8 :=
  flagIf record.prepare.expectedBuildHashSet expectedBuildHashFlag |||
    flagIf record.prepare.expectedCardGenerationSet expectedCardGenerationFlag |||
    flagIf record.commit.approvedBoundarySet approvedBoundaryFlag |||
    flagIf record.commit.energyBaselineSet commitEnergyBaselineFlag |||
    flagIf record.prepared.drainSequenceRangeSet prepareDrainSequenceRangeFlag |||
    flagIf record.pause.evidenced measurementPauseEvidencedFlag

/-- The numbers of a record, in the order they are stored. -/
def numericFields (record : Record) : List UInt64 :=
  [record.prepare.targetGeneration, record.prepare.planRevision, record.prepare.expectedBoundary,
    record.prepare.serverHighestContiguous, record.prepare.serverMaximumSeen,
    if record.prepare.expectedCardGenerationSet then record.prepare.expectedCardGeneration else 0,
    record.prepared.newestStoredSequence, record.prepared.newestSyncableSequence,
    record.prepared.sensorServerAcknowledgement, record.prepared.sensorMaximumSeen,
    record.prepared.removalFloor, record.prepared.localSequenceFloor, record.prepared.nextSequence,
    record.prepared.localRecordCount, record.prepared.drainRecordsAdded,
    record.prepared.drainFirstSequence, record.prepared.drainLastSequence,
    record.prepared.drainSyncableRecordsAdded, record.prepared.cardGeneration,
    record.prepared.pzemEnergyWh, record.prepared.softwareEnergyBaselineBeforeWh,
    record.commit.approvedBoundary, record.commit.newSequenceFloor, record.commit.newNextSequence,
    record.commit.pzemEnergyWh, record.commit.applicationEnergyBaselineWh, record.verifiedPzemEnergyWh,
    record.deleted.readings, record.deleted.indexes, record.deleted.exports,
    record.deleted.backlogEntries, record.pause.startedUtcMs, record.pause.endedUtcMs]

/-- The texts of a record, in the order they are stored. -/
def stringFields (record : Record) : List Bytes :=
  [record.prepare.protocol, record.prepare.operationId, record.prepare.deviceId,
    record.prepare.resetTimestamp, record.prepare.planDigest, record.prepare.categories.headD [],
    record.prepare.expectedFirmwareVersion,
    if record.prepare.expectedBuildHashSet then record.prepare.expectedBuildHash else [],
    record.prepared.firmwareVersion, record.prepared.buildHash, record.prepared.bootId,
    record.prepared.sdStatus, record.prepared.configurationDigestBefore, record.prepared.receipt,
    record.prepared.receiptDigest, record.configurationDigestAfter, record.completionTimestamp,
    record.completionReceipt, record.failureCode]

def encodeBody (record : Record) : Bytes :=
  putUInt32 magic ++ (putUInt16 formatVersion ++ (putUInt16 0 ++ (putUInt32 record.schemaVersion ++
    ([record.state.value, record.checkpoint.value, recordFlags record, 0] ++
      ((numericFields record).flatMap putUInt64 ++ (stringFields record).flatMap putText)))))

/-- The stored form; empty if the record is not valid or does not fit. -/
def encodeDataResetRecord (record : Record) : Bytes :=
  if !validRecord record then []
  else
    let output := encodeBody record
    if output.length + 4 > maximumEncodedSize then []
    else output ++ putUInt32 (crc32 output)

/-! ### Reading -/

def State.ofValue : UInt8 → Option State
  | 0 => some .idle
  | 1 => some .preparing
  | 2 => some .prepared
  | 3 => some .committing
  | 4 => some .completed
  | 5 => some .cancelled
  | 6 => some .attentionRequired
  | _ => none

def Checkpoint.ofValue : UInt8 → Option Checkpoint
  | 0 => some .none
  | 10 => some .commitAuthorized
  | 20 => some .sequenceAdvanced
  | 30 => some .cursorsAdvanced
  | 40 => some .readingsCleared
  | 50 => some .baselineInstalled
  | 60 => some .verified
  | 70 => some .completed
  | _ => none

def hasFlag (flags flag : UInt8) : Bool := flags &&& flag ≠ 0

def readRecord : ByteReader Record := do
  let magicRead ← readUInt32
  let version ← readUInt16
  let reserved ← readUInt16
  let schemaVersion ← readUInt32
  let state ← readUInt8
  let checkpoint ← readUInt8
  let flags ← readUInt8
  let byteReserved ← readUInt8
  if magicRead ≠ magic ∨ version ≠ formatVersion ∨ reserved ≠ 0 ∨ byteReserved ≠ 0 ∨
      flags &&& ~~~knownFlags ≠ 0 then failure
  else
    let targetGeneration ← readUInt64
    let planRevision ← readUInt64
    let expectedBoundary ← readUInt64
    let serverHighestContiguous ← readUInt64
    let serverMaximumSeen ← readUInt64
    let expectedCardGeneration ← readUInt64
    let newestStoredSequence ← readUInt64
    let newestSyncableSequence ← readUInt64
    let sensorServerAcknowledgement ← readUInt64
    let sensorMaximumSeen ← readUInt64
    let removalFloor ← readUInt64
    let localSequenceFloor ← readUInt64
    let nextSequence ← readUInt64
    let localRecordCount ← readUInt64
    let drainRecordsAdded ← readUInt64
    let drainFirstSequence ← readUInt64
    let drainLastSequence ← readUInt64
    let drainSyncableRecordsAdded ← readUInt64
    let cardGeneration ← readUInt64
    let preparedPzemEnergyWh ← readUInt64
    let softwareEnergyBaselineBeforeWh ← readUInt64
    let approvedBoundary ← readUInt64
    let newSequenceFloor ← readUInt64
    let newNextSequence ← readUInt64
    let commitPzemEnergyWh ← readUInt64
    let applicationEnergyBaselineWh ← readUInt64
    let verifiedPzemEnergyWh ← readUInt64
    let readings ← readUInt64
    let indexes ← readUInt64
    let exports ← readUInt64
    let backlogEntries ← readUInt64
    let startedUtcMs ← readUInt64
    let endedUtcMs ← readUInt64
    let protocol ← readText 32
    let operationId ← readText 36
    let deviceId ← readText 36
    let resetTimestamp ← readText 40
    let planDigest ← readText 64
    let category ← readText 32
    let expectedFirmwareVersion ← readText 32
    let expectedBuildHash ← readText 64
    let firmwareVersion ← readText 32
    let buildHash ← readText 64
    let bootId ← readText 36
    let sdStatus ← readText 32
    let configurationDigestBefore ← readText 64
    let receipt ← readText 4096
    let receiptDigest ← readText 64
    let configurationDigestAfter ← readText 64
    let completionTimestamp ← readText 40
    let completionReceipt ← readText 4096
    let failureCode ← readText 80
    -- what is not announced by a flag is not stored
    if (!hasFlag flags expectedBuildHashFlag && expectedBuildHash ≠ []) ∨
        (!hasFlag flags expectedCardGenerationFlag && expectedCardGeneration ≠ 0) then failure
    else
      let state ← StateT.lift (State.ofValue state)
      let checkpoint ← StateT.lift (Checkpoint.ofValue checkpoint)
      return {
        schemaVersion, state, checkpoint, verifiedPzemEnergyWh, configurationDigestAfter,
        completionTimestamp, completionReceipt, failureCode
        prepare := {
          protocol, operationId, deviceId, targetGeneration, resetTimestamp, planRevision, planDigest,
          expectedBoundary, serverHighestContiguous, serverMaximumSeen, expectedFirmwareVersion,
          expectedBuildHash, expectedCardGeneration
          categories := [category]
          expectedBuildHashSet := hasFlag flags expectedBuildHashFlag
          expectedCardGenerationSet := hasFlag flags expectedCardGenerationFlag }
        prepared := {
          firmwareVersion, buildHash, bootId, newestStoredSequence, newestSyncableSequence,
          sensorServerAcknowledgement, sensorMaximumSeen, removalFloor, localSequenceFloor,
          nextSequence, localRecordCount, drainRecordsAdded, drainFirstSequence, drainLastSequence,
          drainSyncableRecordsAdded, cardGeneration, sdStatus, softwareEnergyBaselineBeforeWh,
          configurationDigestBefore, receipt, receiptDigest
          pzemEnergyWh := preparedPzemEnergyWh
          drainSequenceRangeSet := hasFlag flags prepareDrainSequenceRangeFlag }
        pause := { startedUtcMs, endedUtcMs, evidenced := hasFlag flags measurementPauseEvidencedFlag }
        commit := {
          approvedBoundary, newSequenceFloor, newNextSequence, applicationEnergyBaselineWh
          pzemEnergyWh := commitPzemEnergyWh
          approvedBoundarySet := hasFlag flags approvedBoundaryFlag
          energyBaselineSet := hasFlag flags commitEnergyBaselineFlag }
        deleted := { readings, indexes, exports, backlogEntries } }

def decodeDataResetRecord (encoded : Bytes) : Option Record :=
  if encoded.length < 16 + 33 * 8 + 19 * 2 + 4 ∨ encoded.length > maximumEncodedSize then none
  else
    let body := encoded.take (encoded.length - 4)
    let checksum := encoded.drop (encoded.length - 4)
    if (crc32 body).toNat ≠ leNat checksum then none
    else
      match readRecord.run body with
      | none => none
      | some (record, rest) =>
        if rest ≠ [] then none else if validRecord record then some record else none

end PowerMonitor.Reset.Codec
