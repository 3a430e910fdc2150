import PowerMonitor.Lib.Json
import PowerMonitor.Storage.RecordFormat

/-! # Interval records and their files

A reading is stored as a JSON document in an envelope, in a file of its day; a reading without a
trusted start is stored in a file of its boot. Beside each file of records there is a file of index
rows. -/

namespace PowerMonitor.Storage.Reading

open PowerMonitor.Lib.Binary PowerMonitor.Lib.Scan PowerMonitor.Lib.Json
open PowerMonitor.Storage.RecordFormat

/-! ### Dates -/

/-- The number with at least `width` digits. -/
def padded (width n : ℕ) : Bytes := List.replicate (width - (decimal n).length) 48 ++ decimal n

/-- Year, month and day of a day of the epoch. -/
def civilFromDays (days : ℕ) : ℕ × ℕ × ℕ :=
  let z := days + 719468
  let era := z / 146097
  let dayOfEra := z % 146097
  let yearOfEra := (dayOfEra - dayOfEra / 1460 + dayOfEra / 36524 - dayOfEra / 146096) / 365
  let dayOfYear := dayOfEra - (365 * yearOfEra + yearOfEra / 4 - yearOfEra / 100)
  let monthIndex := (5 * dayOfYear + 2) / 153
  let day := dayOfYear - (153 * monthIndex + 2) / 5 + 1
  let month := if monthIndex < 10 then monthIndex + 3 else monthIndex - 9
  (yearOfEra + era * 400 + if month ≤ 2 then 1 else 0, month, day)

example : civilFromDays 19782 = (2024, 2, 29) := by decide

def dateText (year month day : ℕ) : Bytes :=
  padded 4 year ++ (45 :: (padded 2 month ++ 45 :: padded 2 day))

def isoUtc (utcMs : UInt64) : Bytes :=
  if utcMs = 0 then ascii "1970-01-01T00:00:00Z"
  else
    let seconds := utcMs.toNat / 1000
    let (year, month, day) := civilFromDays (seconds / 86400)
    dateText year month day ++ (84 :: (padded 2 (seconds / 3600 % 24) ++ (58 ::
      (padded 2 (seconds / 60 % 60) ++ (58 :: (padded 2 (seconds % 60) ++ [90]))))))

/-- The file of a day, or of a boot when the time is not known. -/
def datedPath (category extension : Bytes) (utcMs : UInt64) (fallback : Bytes) : Bytes :=
  if utcMs = 0 then
    ascii "/POWERMON/" ++ (category ++ (ascii "/untrusted/" ++ (fallback ++ extension)))
  else
    let (year, month, day) := civilFromDays (utcMs.toNat / 1000 / 86400)
    ascii "/POWERMON/" ++ (category ++ (47 :: (padded 4 year ++ (47 :: (padded 2 month ++
      (47 :: (dateText year month day ++ extension)))))))

/-! ### Records -/

/-- A reading; the real numbers are given by their bits. -/
structure IntervalRecord where
  schemaVersion : UInt32 := 1
  dataGeneration : UInt64 := 0
  deviceId : Bytes := []
  friendlyName : Bytes := []
  sequence : UInt64 := 0
  bootId : Bytes := []
  startUtcMs : UInt64 := 0
  endUtcMs : UInt64 := 0
  startMonotonicMs : UInt64 := 0
  endMonotonicMs : UInt64 := 0
  timeTrusted : Bool := false
  sampleCount : UInt32 := 0
  validSampleCount : UInt32 := 0
  avgVoltageV : UInt32 := 0
  minVoltageV : UInt32 := 0
  maxVoltageV : UInt32 := 0
  avgCurrentA : UInt32 := 0
  minCurrentA : UInt32 := 0
  maxCurrentA : UInt32 := 0
  avgActivePowerW : UInt32 := 0
  minActivePowerW : UInt32 := 0
  maxActivePowerW : UInt32 := 0
  avgPowerFactor : UInt32 := 0
  avgFrequencyHz : UInt32 := 0
  rawEnergyStartWh : UInt64 := 0
  rawEnergyEndWh : UInt64 := 0
  deviceLifetimeEnergyWh : UInt64 := 0
  intervalEnergyWh : UInt64 := 0
  energyMethod : Bytes := ascii "unavailable"
  ctRatingA : UInt32 := 0x42C80000
  qualityFlags : UInt32 := 0
  firmwareVersion : Bytes := []
  deriving DecidableEq

def protocolVersion : Bytes := ascii "pm-protocol/1.0.0"

def unsigned (n : UInt64) : Value := .scalar (.unsigned n)
def real32 (bits : UInt32) : Scalar := .real bits.toUInt64
def text (s : Bytes) : Value := .scalar (.text s)

/-- The average, the minimum and the maximum of a quantity. -/
def summary (average minimum maximum : UInt32) : Value :=
  .object [(ascii "average", real32 average), (ascii "minimum", real32 minimum),
    (ascii "maximum", real32 maximum)]

def recordDocument (r : IntervalRecord) : Document :=
  [(ascii "schema_version", unsigned r.schemaVersion.toUInt64),
    (ascii "protocol", text protocolVersion),
    (ascii "data_generation", unsigned r.dataGeneration),
    (ascii "device_id", text r.deviceId),
    (ascii "friendly_name", text r.friendlyName),
    (ascii "sequence", unsigned r.sequence),
    (ascii "boot_id", text r.bootId),
    (ascii "start_utc", text (isoUtc r.startUtcMs)),
    (ascii "end_utc", text (isoUtc r.endUtcMs)),
    (ascii "start_utc_ms", unsigned r.startUtcMs),
    (ascii "end_utc_ms", unsigned r.endUtcMs),
    (ascii "start_monotonic_ms", unsigned r.startMonotonicMs),
    (ascii "end_monotonic_ms", unsigned r.endMonotonicMs),
    (ascii "time_trusted", .scalar (.boolean r.timeTrusted)),
    (ascii "sample_count", unsigned r.sampleCount.toUInt64),
    (ascii "valid_sample_count", unsigned r.validSampleCount.toUInt64),
    (ascii "voltage_v", summary r.avgVoltageV r.minVoltageV r.maxVoltageV),
    (ascii "current_a", summary r.avgCurrentA r.minCurrentA r.maxCurrentA),
    (ascii "active_power_w", summary r.avgActivePowerW r.minActivePowerW r.maxActivePowerW),
    (ascii "average_power_factor", .scalar (real32 r.avgPowerFactor)),
    (ascii "average_frequency_hz", .scalar (real32 r.avgFrequencyHz)),
    (ascii "raw_energy_start_wh", unsigned r.rawEnergyStartWh),
    (ascii "raw_energy_end_wh", unsigned r.rawEnergyEndWh),
    (ascii "device_lifetime_energy_wh", unsigned r.deviceLifetimeEnergyWh),
    (ascii "interval_energy_wh", .scalar (.real r.intervalEnergyWh)),
    (ascii "energy_method", text r.energyMethod),
    (ascii "ct_rating_a", .scalar (real32 r.ctRatingA)),
    (ascii "quality_flags", unsigned r.qualityFlags.toUInt64),
    (ascii "firmware_version", text r.firmwareVersion)]

def serializeRecord (j : JsonLibrary) (r : IntervalRecord) : Bytes := j.serialize (recordDocument r)

/-- The line a record is stored as. -/
def recordEnvelope (j : JsonLibrary) (r : IntervalRecord) : Bytes :=
  encodeEnvelope (serializeRecord j r)

def syncableInterval (startUtcMs endUtcMs : UInt64) (timeTrusted : Bool) : Bool :=
  timeTrusted && startUtcMs ≠ 0 && endUtcMs > startUtcMs

def syncableRecord (r : IntervalRecord) : Bool :=
  syncableInterval r.startUtcMs r.endUtcMs r.timeTrusted

def syncableDocument (document : Bytes → View) : Bool :=
  syncableInterval ((document (ascii "start_utc_ms")).unsignedOr 0)
    ((document (ascii "end_utc_ms")).unsignedOr 0) ((document (ascii "time_trusted")).booleanOr false)

theorem nodup_recordDocument (r : IntervalRecord) : ((recordDocument r).map Prod.fst).Nodup := by
  have h : (recordDocument r).map Prod.fst = (recordDocument {}).map Prod.fst := rfl
  rw [h]
  decide

/-- **A stored record reads back** with its sequence, its times and whether it can be synchronised. -/
theorem deserialize_serializeRecord {j : JsonLibrary} (hj : j.Lawful) (r : IntervalRecord) :
    ∃ document, j.deserialize (serializeRecord j r) = some document ∧
      (document (ascii "sequence")).asUnsigned = r.sequence ∧
      (document (ascii "sequence")).isUnsigned = true ∧
      (document (ascii "start_utc_ms")).asUnsigned = r.startUtcMs ∧
      (document (ascii "start_utc_ms")).isUnsigned = true ∧
      syncableDocument document = syncableRecord r := by
  obtain ⟨document, hd, hshows⟩ := hj.readsBack (recordDocument r) (nodup_recordDocument r)
  have hsequence := hshows (ascii "sequence") (unsigned r.sequence) (by simp [recordDocument])
  have hstart := hshows (ascii "start_utc_ms") (unsigned r.startUtcMs) (by simp [recordDocument])
  have hend := hshows (ascii "end_utc_ms") (unsigned r.endUtcMs) (by simp [recordDocument])
  have htrusted := hshows (ascii "time_trusted") (.scalar (.boolean r.timeTrusted))
    (by simp [recordDocument])
  simp only [Shows, unsigned] at hsequence hstart hend htrusted
  refine ⟨document, hd, hsequence.1, hsequence.2, hstart.1, hstart.2, ?_⟩
  simp [syncableDocument, syncableRecord, View.unsignedOr, View.booleanOr, hstart, hend, htrusted]

/-! ### Files -/

def recordPath (r : IntervalRecord) : Bytes :=
  datedPath (ascii "records") (ascii ".pmr") r.startUtcMs r.bootId

def indexPath (r : IntervalRecord) : Bytes :=
  datedPath (ascii "indexes") (ascii ".idx") r.startUtcMs r.bootId

/-- Where `pattern` first occurs. -/
def findText (pattern : Bytes) : Bytes → Option ℕ
  | [] => if pattern = [] then some 0 else none
  | b :: bs => if pattern.isPrefixOf (b :: bs) then some 0 else (findText pattern bs).map (· + 1)

/-- The index file beside a file of records. -/
def pairedIndexPath (path : Bytes) : Bytes :=
  match findText (ascii "/records/") path with
  | none => []
  | some k =>
    if !(ascii ".pmr").isSuffixOf path then []
    else
      let replaced := path.take k ++ (ascii "/indexes/" ++ path.drop (k + 9))
      replaced.take (replaced.length - 4) ++ ascii ".idx"

def pathToken (path : Bytes) : Bytes := hexText 8 (crc32 path).toNat

def metadataPath (path : Bytes) : Bytes :=
  ascii "/POWERMON/state/segments/" ++ (pathToken path ++ ascii ".json")

/-- A file of readings. -/
def isRecordFile (path : Bytes) : Bool :=
  (ascii "/POWERMON/records/").isPrefixOf path && (ascii ".pmr").isSuffixOf path

end PowerMonitor.Storage.Reading
