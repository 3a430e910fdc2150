import PowerMonitor.Storage.Reading

/-! # Intervals

The samples of an interval are gathered in an aggregator and finished as a record. A record is trusted when the time
of every sample was; nothing compares its start and its end, so a trusted interval can be empty or reversed
(`syncable_finish_iff`). An interval that is not trusted is anchored at the best estimate of its end. -/

namespace PowerMonitor.Core.IntervalAggregator

open PowerMonitor.Lib.Binary PowerMonitor.Storage.Reading

def qualityTimeUntrusted : UInt32 := 1
def qualityMeterGap : UInt32 := 2

structure MeasurementSnapshot where
  utcMs : UInt64 := 0
  monotonicMs : UInt64 := 0
  rawEnergyWh : UInt64 := 0
  qualityFlags : UInt32 := 0
  valid : Bool := false
  timeTrusted : Bool := false
  deriving DecidableEq

/-- The variables that are not sums of measured quantities. -/
structure Aggregator where
  startUtcMs : UInt64 := 0
  startMonotonicMs : UInt64 := 0
  samples : UInt32 := 0
  validSamples : UInt32 := 0
  quality : UInt32 := 0
  rawStartWh : UInt64 := 0
  rawEndWh : UInt64 := 0
  rawStartValid : Bool := false
  rawEndValid : Bool := false
  allTimesTrusted : Bool := true
  lastSampleSeen : Bool := false
  lastSampleMonotonicMs : UInt64 := 0
  lastSampleUtcMs : UInt64 := 0
  deriving DecidableEq

def Aggregator.reset (startUtcMs startMonotonicMs : UInt64) : Aggregator where
  startUtcMs := startUtcMs
  startMonotonicMs := startMonotonicMs

def Aggregator.add (a : Aggregator) (sample : MeasurementSnapshot) : Aggregator :=
  if a.lastSampleSeen ∧ sample.monotonicMs ≤ a.lastSampleMonotonicMs then
    if sample.monotonicMs < a.lastSampleMonotonicMs then { a with quality := a.quality ||| qualityMeterGap } else a
  else
    let seen := { a with
      lastSampleSeen := true
      lastSampleMonotonicMs := sample.monotonicMs
      lastSampleUtcMs := sample.utcMs
      samples := a.samples + 1
      quality := a.quality ||| sample.qualityFlags
      allTimesTrusted := a.allTimesTrusted && sample.timeTrusted }
    if !sample.valid then { seen with quality := seen.quality ||| qualityMeterGap }
    else { seen with
      validSamples := seen.validSamples + 1
      rawStartWh := if seen.rawStartValid then seen.rawStartWh else sample.rawEnergyWh
      rawStartValid := true
      rawEndWh := sample.rawEnergyWh
      rawEndValid := true }

def Aggregator.hasSamples (a : Aggregator) : Bool := a.samples ≠ 0

def Aggregator.wouldProduceSyncableRecord (a : Aggregator) : Bool :=
  a.samples ≠ 0 && a.allTimesTrusted && a.startUtcMs ≠ 0 && a.lastSampleUtcMs > a.startUtcMs

def kFallbackEpochMs : UInt64 := 1704067200000
def kMaximumWireIntervalMs : UInt64 := 86400000

/-- The start and the end of an interval that is not trusted. -/
def anchored (a : Aggregator) (endUtcMs endMonotonicMs : UInt64) : UInt64 × UInt64 :=
  let durationMs :=
    if endMonotonicMs ≥ a.startMonotonicMs then min (endMonotonicMs - a.startMonotonicMs) kMaximumWireIntervalMs else 0
  let minimumEnd := kFallbackEpochMs + max endMonotonicMs durationMs
  let anchorEnd := max (max endUtcMs (a.startUtcMs + durationMs)) minimumEnd
  let start := if anchorEnd > durationMs then anchorEnd - durationMs else kFallbackEpochMs
  (start, if anchorEnd ≤ start then start + 1 else anchorEnd)

/-- The record of the interval. The measured quantities, which are sums and quotients of real numbers, and the flags
of the energy counter are given by `measured`. -/
def Aggregator.finish (a : Aggregator) (measured : IntervalRecord) (deviceId friendlyName bootId firmwareVersion : Bytes)
    (endUtcMs endMonotonicMs : UInt64) : IntervalRecord :=
  let timeTrusted := a.allTimesTrusted && a.startUtcMs ≠ 0 && endUtcMs ≠ 0
  let times := if timeTrusted then (a.startUtcMs, endUtcMs) else anchored a endUtcMs endMonotonicMs
  { measured with
    deviceId := deviceId
    friendlyName := friendlyName
    bootId := bootId
    firmwareVersion := firmwareVersion
    startUtcMs := times.1
    endUtcMs := times.2
    startMonotonicMs := a.startMonotonicMs
    endMonotonicMs := endMonotonicMs
    timeTrusted := timeTrusted
    sampleCount := a.samples
    validSampleCount := a.validSamples
    qualityFlags := a.quality ||| (if timeTrusted then 0 else qualityTimeUntrusted) ||| measured.qualityFlags
    rawEnergyStartWh := a.rawStartWh
    rawEnergyEndWh := a.rawEndWh }

variable {a : Aggregator} {measured : IntervalRecord} {deviceId friendlyName bootId firmwareVersion : Bytes}
variable {endUtcMs endMonotonicMs : UInt64}

/-- The times of a trusted record are those that were given. -/
theorem finish_trusted
    (h : (a.finish measured deviceId friendlyName bootId firmwareVersion endUtcMs endMonotonicMs).timeTrusted = true) :
    (a.finish measured deviceId friendlyName bootId firmwareVersion endUtcMs endMonotonicMs).startUtcMs = a.startUtcMs ∧
      (a.finish measured deviceId friendlyName bootId firmwareVersion endUtcMs endMonotonicMs).endUtcMs = endUtcMs ∧
      a.startUtcMs ≠ 0 := by
  have htrusted : (a.allTimesTrusted && a.startUtcMs ≠ 0 && endUtcMs ≠ 0) = true := h
  refine ⟨?_, ?_, ?_⟩
  · simp only [Aggregator.finish, htrusted, if_true]
  · simp only [Aggregator.finish, htrusted, if_true]
  · simp only [Bool.and_eq_true, decide_eq_true_eq] at htrusted
    exact htrusted.1.2

/-- **A record can be synchronised** if it is trusted and ends after its start. -/
theorem syncable_finish_iff :
    syncableRecord (a.finish measured deviceId friendlyName bootId firmwareVersion endUtcMs endMonotonicMs) = true ↔
      (a.finish measured deviceId friendlyName bootId firmwareVersion endUtcMs endMonotonicMs).timeTrusted = true ∧
        a.startUtcMs < endUtcMs := by
  unfold syncableRecord syncableInterval
  rw [Bool.and_eq_true, Bool.and_eq_true, decide_eq_true_eq, decide_eq_true_eq]
  constructor
  · rintro ⟨⟨htrusted, -⟩, hend⟩
    obtain ⟨hstart, hlast, -⟩ := finish_trusted htrusted
    rw [hstart, hlast] at hend
    exact ⟨htrusted, hend⟩
  · rintro ⟨htrusted, hend⟩
    obtain ⟨hstart, hlast, hne⟩ := finish_trusted htrusted
    rw [hstart, hlast]
    exact ⟨⟨htrusted, hne⟩, hend⟩

/-- The aggregator knows: of an interval that is finished with the time of its last sample, it says before whether the
record can be synchronised. -/
theorem wouldProduceSyncableRecord_iff (hsamples : a.hasSamples = true) :
    a.wouldProduceSyncableRecord = true ↔ syncableRecord
      (a.finish measured deviceId friendlyName bootId firmwareVersion a.lastSampleUtcMs endMonotonicMs) = true := by
  rw [syncable_finish_iff]
  simp only [Aggregator.wouldProduceSyncableRecord, Aggregator.hasSamples, Aggregator.finish] at hsamples ⊢
  simp only [hsamples, Bool.true_and, Bool.and_eq_true, decide_eq_true_eq]
  constructor
  · rintro ⟨⟨htrusted, hstart⟩, hlast⟩
    have hend : a.lastSampleUtcMs ≠ 0 := by
      rintro hzero
      rw [hzero] at hlast
      exact absurd hlast (UInt64.not_lt_zero)
    exact ⟨⟨⟨htrusted, hstart⟩, hend⟩, hlast⟩
  · rintro ⟨⟨⟨htrusted, hstart⟩, -⟩, hlast⟩
    exact ⟨⟨htrusted, hstart⟩, hlast⟩

end PowerMonitor.Core.IntervalAggregator
