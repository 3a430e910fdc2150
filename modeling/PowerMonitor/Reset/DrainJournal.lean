import PowerMonitor.Lib.Ieee
import PowerMonitor.Reset.Policy
import PowerMonitor.Reset.RecordStore
import PowerMonitor.Storage.Reading

/-! # The drain journal

A data reset that cuts an interval short stages it in a journal, until it is on the card. The journal keeps
one `DrainRecord`: it is staged with its intervals, then gets sequences, and is completed without them.
`validDrainRecord` says which records may be stored, `validDrainRecordUpdate` which record may replace which. -/

namespace PowerMonitor.Reset.DrainJournal

open PowerMonitor.Lib PowerMonitor.Lib.Binary PowerMonitor.Lib.Json
open PowerMonitor.Reset.Policy PowerMonitor.Reset.RecordStore PowerMonitor.Storage.Reading

/-! ### Intervals -/

/-- A text of at most so many printable characters. -/
def bounded (value : Bytes) (maximum : ℕ) : Bool := boundedPrintable value maximum

def uuid (value : Bytes) : Bool := lowercaseUuid value

def localHardwareIdentity (value : Bytes) : Bool :=
  decide (value.length = 28) && (ascii "esp32s3-").isPrefixOf value && (value.drop 8).all hexDigit

def authoritativeLocalIdentity (value : Bytes) : Bool := uuid value || localHardwareIdentity value

def finite32 (bits : UInt32) : Bool := Ieee.isFinite Ieee.single bits.toNat
def finite64 (bits : UInt64) : Bool := Ieee.isFinite Ieee.double bits.toNat
def equal32 (left right : UInt32) : Bool := Ieee.equal Ieee.single left.toNat right.toNat
def equal64 (left right : UInt64) : Bool := Ieee.equal Ieee.double left.toNat right.toNat

/-- The real numbers of an interval in single precision. -/
def singles (r : IntervalRecord) : List UInt32 :=
  [r.avgVoltageV, r.minVoltageV, r.maxVoltageV, r.avgCurrentA, r.minCurrentA, r.maxCurrentA,
    r.avgActivePowerW, r.minActivePowerW, r.maxActivePowerW, r.avgPowerFactor, r.avgFrequencyHz, r.ctRatingA]

def intervalEqual (left right : IntervalRecord) : Bool :=
  left.schemaVersion = right.schemaVersion && left.dataGeneration = right.dataGeneration &&
    left.deviceId = right.deviceId && left.friendlyName = right.friendlyName && left.sequence = right.sequence &&
    left.bootId = right.bootId && left.startUtcMs = right.startUtcMs && left.endUtcMs = right.endUtcMs &&
    left.startMonotonicMs = right.startMonotonicMs && left.endMonotonicMs = right.endMonotonicMs &&
    left.timeTrusted = right.timeTrusted && left.sampleCount = right.sampleCount &&
    left.validSampleCount = right.validSampleCount &&
    (((singles left).zip (singles right)).all fun (a, b) => equal32 a b) &&
    left.rawEnergyStartWh = right.rawEnergyStartWh && left.rawEnergyEndWh = right.rawEnergyEndWh &&
    left.deviceLifetimeEnergyWh = right.deviceLifetimeEnergyWh && equal64 left.intervalEnergyWh right.intervalEnergyWh &&
    left.energyMethod = right.energyMethod && left.qualityFlags = right.qualityFlags &&
    left.firmwareVersion = right.firmwareVersion

/-- The document of an interval; the real numbers are written as the integers of their bits. -/
def intervalDocument (r : IntervalRecord) : Document :=
  [(ascii "schema_version", unsigned r.schemaVersion.toUInt64),
    (ascii "data_generation", unsigned r.dataGeneration),
    (ascii "device_id", text r.deviceId),
    (ascii "friendly_name", text r.friendlyName),
    (ascii "sequence", unsigned r.sequence),
    (ascii "boot_id", text r.bootId),
    (ascii "start_utc_ms", unsigned r.startUtcMs),
    (ascii "end_utc_ms", unsigned r.endUtcMs),
    (ascii "start_monotonic_ms", unsigned r.startMonotonicMs),
    (ascii "end_monotonic_ms", unsigned r.endMonotonicMs),
    (ascii "time_trusted", .scalar (.boolean r.timeTrusted)),
    (ascii "sample_count", unsigned r.sampleCount.toUInt64),
    (ascii "valid_sample_count", unsigned r.validSampleCount.toUInt64),
    (ascii "avg_voltage_v", unsigned r.avgVoltageV.toUInt64),
    (ascii "min_voltage_v", unsigned r.minVoltageV.toUInt64),
    (ascii "max_voltage_v", unsigned r.maxVoltageV.toUInt64),
    (ascii "avg_current_a", unsigned r.avgCurrentA.toUInt64),
    (ascii "min_current_a", unsigned r.minCurrentA.toUInt64),
    (ascii "max_current_a", unsigned r.maxCurrentA.toUInt64),
    (ascii "avg_active_power_w", unsigned r.avgActivePowerW.toUInt64),
    (ascii "min_active_power_w", unsigned r.minActivePowerW.toUInt64),
    (ascii "max_active_power_w", unsigned r.maxActivePowerW.toUInt64),
    (ascii "avg_power_factor", unsigned r.avgPowerFactor.toUInt64),
    (ascii "avg_frequency_hz", unsigned r.avgFrequencyHz.toUInt64),
    (ascii "raw_energy_start_wh", unsigned r.rawEnergyStartWh),
    (ascii "raw_energy_end_wh", unsigned r.rawEnergyEndWh),
    (ascii "device_lifetime_energy_wh", unsigned r.deviceLifetimeEnergyWh),
    (ascii "interval_energy_wh", unsigned r.intervalEnergyWh),
    (ascii "energy_method", text r.energyMethod),
    (ascii "ct_rating_a", unsigned r.ctRatingA.toUInt64),
    (ascii "quality_flags", unsigned r.qualityFlags.toUInt64),
    (ascii "firmware_version", text r.firmwareVersion)]

/-- The checksum of an interval. -/
def intervalCrc32 (j : JsonLibrary) (r : IntervalRecord) : UInt32 :=
  let payload := j.serialize (intervalDocument r)
  if payload = [] then 0 else crc32 payload

/-! ### Records -/

inductive DrainState
  | staged | assigned | completed
  deriving DecidableEq, Repr

/-- The stored number of a state. -/
def DrainState.value : DrainState → UInt8
  | .staged => 1
  | .assigned => 2
  | .completed => 3

structure DrainRecord where
  schemaVersion : UInt32 := 1
  state : DrainState := .staged
  operationId : Bytes := []
  deviceId : Bytes := []
  sourceGeneration : UInt64 := 0
  targetGeneration : UInt64 := 0
  cardGeneration : UInt64 := 0
  proposedEnergyOffsetWh : UInt64 := 0
  assignedFirstSequence : UInt64 := 0
  syncableRecordsAdded : UInt64 := 0
  intervalCount : UInt64 := 0
  intervalCrc32 : Vector UInt32 2 := Vector.replicate 2 0
  intervals : Vector IntervalRecord 2 := Vector.replicate 2 {}
  deriving DecidableEq

def immutableDrainEvidenceEqual (left right : DrainRecord) : Bool :=
  left.operationId = right.operationId && left.deviceId = right.deviceId &&
    left.sourceGeneration = right.sourceGeneration && left.targetGeneration = right.targetGeneration &&
    left.cardGeneration = right.cardGeneration && left.proposedEnergyOffsetWh = right.proposedEnergyOffsetWh &&
    left.intervalCount = right.intervalCount && left.intervalCrc32 = right.intervalCrc32

/-- An interval that is staged. -/
def validStagedInterval (j : JsonLibrary) (record : DrainRecord) (interval : IntervalRecord) (crc : UInt32) : Bool :=
  interval.schemaVersion = 1 && interval.dataGeneration = record.sourceGeneration &&
    interval.deviceId = record.deviceId && bounded interval.friendlyName 64 && uuid interval.bootId &&
    interval.sequence = 0 && decide (interval.sampleCount > 0) &&
    decide (interval.validSampleCount ≤ interval.sampleCount) &&
    decide (interval.endMonotonicMs ≥ interval.startMonotonicMs) && bounded interval.energyMethod 32 &&
    bounded interval.firmwareVersion 32 && finite64 interval.intervalEnergyWh && finite32 interval.avgVoltageV &&
    finite32 interval.avgCurrentA && finite32 interval.avgActivePowerW && crc ≠ 0 &&
    intervalCrc32 j interval = crc

/-- The place of one interval: it holds an interval that is staged, or nothing. -/
def validInterval (j : JsonLibrary) (record : DrainRecord) (index : Fin 2) : Bool :=
  let used := decide (index.val < record.intervalCount.toNat)
  let interval := record.intervals.get index
  let crc := record.intervalCrc32.get index
  if used && record.state ≠ .completed then validStagedInterval j record interval crc
  else intervalEqual interval {} && (!used || crc ≠ 0) && (used || crc = 0)

def validDrainRecord (j : JsonLibrary) (record : DrainRecord) : Bool :=
  let payloadValid := decide (record.intervalCount ≥ 1) && decide (record.intervalCount ≤ 2) &&
    validInterval j record 0 && validInterval j record 1
  record.schemaVersion = 1 && uuid record.operationId && uuid record.deviceId &&
    decide (record.sourceGeneration.toNat < 2 ^ 64 - 1) && record.targetGeneration = record.sourceGeneration + 1 &&
    decide (record.cardGeneration > 0) && payloadValid &&
    (if record.state = .staged then record.assignedFirstSequence = 0 else decide (record.assignedFirstSequence > 0)) &&
    (if record.state = .completed then decide (record.syncableRecordsAdded ≤ record.intervalCount)
      else record.syncableRecordsAdded = 0)

def drainRecordsEqual (left right : DrainRecord) : Bool :=
  left.schemaVersion = right.schemaVersion && left.state = right.state && immutableDrainEvidenceEqual left right &&
    left.assignedFirstSequence = right.assignedFirstSequence &&
    left.syncableRecordsAdded = right.syncableRecordsAdded &&
    intervalEqual (left.intervals.get 0) (right.intervals.get 0) &&
    intervalEqual (left.intervals.get 1) (right.intervals.get 1)

def validDrainRecordUpdate (j : JsonLibrary) (current proposed : DrainRecord) : Bool :=
  if !validDrainRecord j current || !validDrainRecord j proposed then false
  else if current.operationId ≠ proposed.operationId then
    current.state = .completed && proposed.state = .staged &&
      (current.deviceId ≠ proposed.deviceId || decide (proposed.targetGeneration ≥ current.targetGeneration))
  else if !immutableDrainEvidenceEqual current proposed then false
  else if proposed.state.value ≠ current.state.value + 1 then false
  else if current.state = .staged then
    intervalEqual (current.intervals.get 0) (proposed.intervals.get 0) &&
      intervalEqual (current.intervals.get 1) (proposed.intervals.get 1) &&
      decide (proposed.assignedFirstSequence > 0) && proposed.syncableRecordsAdded = 0
  else
    current.state = .assigned && proposed.assignedFirstSequence = current.assignedFirstSequence &&
      intervalEqual (proposed.intervals.get 0) {} && intervalEqual (proposed.intervals.get 1) {}

def completedDrainFromDifferentDevice (j : JsonLibrary) (record : DrainRecord) (currentDeviceId : Bytes) : Bool :=
  authoritativeLocalIdentity currentDeviceId && validDrainRecord j record && record.state = .completed &&
    record.deviceId ≠ currentDeviceId

def completedDrainMatchesCurrentGeneration (j : JsonLibrary) (record : DrainRecord) (currentDeviceId : Bytes)
    (currentGeneration : UInt64) : Bool :=
  uuid currentDeviceId && validDrainRecord j record && record.state = .completed &&
    record.deviceId = currentDeviceId && record.targetGeneration = currentGeneration

/-! ### The store -/

/-- The two slots of the journal, with what they decode to; the store works. -/
structure Slots where
  active : Option DrainRecord := none
  previous : Option DrainRecord := none
  deriving DecidableEq

def Slots.commit (slots : Slots) (record : DrainRecord) : Slots := ⟨some record, slots.active⟩

/-- A record is saved in its order; `serializes` says whether its stored form reads back as it is. -/
def saveTo (j : JsonLibrary) (serializes : DrainRecord → Bool) (record : DrainRecord) (slots : Slots) :
    DataResetStoreResult × Slots :=
  if !validDrainRecord j record then (.invalidRecord, slots)
  else if !serializes record then (.serializeFailed, slots)
  else
    match slots.active with
    | some current =>
      if drainRecordsEqual current record then (.savedAndVerified, slots)
      else if !validDrainRecordUpdate j current record then (.invalidTransition, slots)
      else (.savedAndVerified, slots.commit record)
    | none =>
      if record.state ≠ .staged then (.invalidTransition, slots) else (.savedAndVerified, slots.commit record)

/-- The other slot gets the completed record too, and so keeps no interval. -/
def scrubCompletedCopies (j : JsonLibrary) (completed : DrainRecord) (slots : Slots) : DataResetStoreResult × Slots :=
  if completed.state ≠ .completed || !validDrainRecord j completed then (.invalidRecord, slots)
  else if !slots.active.any (drainRecordsEqual · completed) then (.identityMismatch, slots)
  else if slots.previous.any (drainRecordsEqual · completed) then (.savedAndVerified, slots)
  else (.savedAndVerified, slots.commit completed)

end PowerMonitor.Reset.DrainJournal
