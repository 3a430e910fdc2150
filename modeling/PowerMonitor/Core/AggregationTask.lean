import PowerMonitor.Core.Aggregation
import PowerMonitor.Lib.Program

/-! # The aggregation task and the gates of a reset

While a reset is prepared the measurement is frozen and the storage takes no records. The task that gathers
samples into records reads these gates again and again, and other tasks open and close them at any moment: each
operation of the task is answered by what the world is like at that moment (`Moment`). One pass of its loop is
`iterate`; what becomes of the records it finishes is noted in a `Ledger`. -/

namespace PowerMonitor.Core.AggregationTask

open PowerMonitor.Lib.Program PowerMonitor.Storage.Reading
open PowerMonitor.Core.IntervalAggregator PowerMonitor.Core.Aggregation

/-! ### The world of the task -/

/-- A sample in the queue, with the generation it was measured for. -/
structure Arrival where
  sample : MeasurementSnapshot
  dataGeneration : UInt64 := 0
  deriving DecidableEq

/-- What an operation finds at its moment: the gates, the stored numbers, the samples that arrive until the queue is
empty, and whether an operation that may fail does not. -/
structure Moment where
  dataResetFrozen : Bool := false
  recordWritesEnabled : Bool := true
  producerBarrierActive : Bool := false
  sampleEnqueuesInFlight : Bool := false
  dataGeneration : UInt64 := 0
  energyOffsetWh : UInt64 := 0
  energyBaselineAbsoluteWh : UInt64 := 0
  queue : List Arrival := []
  setting : Setting := {}
  succeeds : Bool := true
  deriving DecidableEq

/-- What became of the records: those that were finished, and of these the ones in the queue of the storage, in the
drain journal, and counted as dropped. -/
structure Ledger where
  returned : List IntervalRecord := []
  enqueued : List IntervalRecord := []
  staged : List IntervalRecord := []
  dropped : List IntervalRecord := []
  deriving DecidableEq

/-- Where in a pass something is read: at its start, when the freeze is first seen, when held records are given to the
storage or staged, when the task resumes, when a sample is taken, when a record was finished, when it is given to the
storage, and after that. -/
inductive Place
  | top | pausing | flushing | staging | resuming | admitting | closing | offering | settling
  deriving DecidableEq, Repr

inductive Op
  | dataResetFrozen (place : Place)
  | recordWritesEnabled (place : Place)
  | producerBarrierActive
  | sampleEnqueuesInFlight
  | dataGeneration (place : Place)
  | energy
  | setting
  | receive
  | receiveAll
  | setEnergyOffsetWh (place : Place) (offsetWh : UInt64)
  | finish (record : IntervalRecord)
  | acquire (record : IntervalRecord)
  | send (record : IntervalRecord)
  | recordDroppedInterval (record : IntervalRecord)
  | saveStaged (records : List IntervalRecord) (offsetWh : UInt64)
  | markDataResetProducerQuiesced
  deriving DecidableEq

abbrev Ans : Op → Type
  | .dataResetFrozen _ | .recordWritesEnabled _ | .producerBarrierActive | .sampleEnqueuesInFlight => Bool
  | .dataGeneration _ => UInt64
  | .energy => EnergyNormalizer
  | .setting => Setting
  | .receive => Option Arrival
  | .receiveAll => List Arrival
  | .setEnergyOffsetWh _ _ | .acquire _ | .send _ | .saveStaged _ _ => Bool
  | .finish _ | .recordDroppedInterval _ | .markDataResetProducerQuiesced => Unit

/-- The operations at their moments. -/
def world : Device Op Ans Moment Ledger where
  act
    | .dataResetFrozen _, e, l => (l, e.dataResetFrozen)
    | .recordWritesEnabled _, e, l => (l, e.recordWritesEnabled)
    | .producerBarrierActive, e, l => (l, e.producerBarrierActive)
    | .sampleEnqueuesInFlight, e, l => (l, e.sampleEnqueuesInFlight)
    | .dataGeneration _, e, l => (l, e.dataGeneration)
    | .energy, e, l => (l, { offsetWh := e.energyOffsetWh, baselineAbsoluteWh := e.energyBaselineAbsoluteWh })
    | .setting, e, l => (l, e.setting)
    | .receive, e, l => (l, e.queue.head?)
    | .receiveAll, e, l => (l, e.queue)
    | .setEnergyOffsetWh _ _, e, l => (l, e.succeeds)
    | .finish record, _, l => ({ l with returned := l.returned ++ [record] }, ())
    | .acquire _, e, l => (l, e.succeeds)
    | .send record, e, l => (if e.succeeds then { l with enqueued := l.enqueued ++ [record] } else l, e.succeeds)
    | .recordDroppedInterval record, _, l => ({ l with dropped := l.dropped ++ [record] }, ())
    | .saveStaged records _, e, l => (if e.succeeds then { l with staged := l.staged ++ records } else l, e.succeeds)
    | .markDataResetProducerQuiesced, _, l => (l, ())

abbrev TaskProg := Prog Op Ans

def dataResetFrozen (place : Place) : TaskProg Bool := Prog.op (Op.dataResetFrozen place)
def recordWritesEnabled (place : Place) : TaskProg Bool := Prog.op (Op.recordWritesEnabled place)
def producerBarrierActive : TaskProg Bool := Prog.op Op.producerBarrierActive
def sampleEnqueuesInFlight : TaskProg Bool := Prog.op Op.sampleEnqueuesInFlight
def dataGeneration (place : Place) : TaskProg UInt64 := Prog.op (Op.dataGeneration place)
def storedEnergy : TaskProg EnergyNormalizer := Prog.op Op.energy
def currentSetting : TaskProg Setting := Prog.op Op.setting
def receive : TaskProg (Option Arrival) := Prog.op Op.receive
def receiveAll : TaskProg (List Arrival) := Prog.op Op.receiveAll
def setEnergyOffsetWh (place : Place) (offsetWh : UInt64) : TaskProg Bool := Prog.op (Op.setEnergyOffsetWh place offsetWh)
def finish (record : IntervalRecord) : TaskProg Unit := Prog.op (Op.finish record)
def acquire (record : IntervalRecord) : TaskProg Bool := Prog.op (Op.acquire record)
def send (record : IntervalRecord) : TaskProg Bool := Prog.op (Op.send record)
def recordDroppedInterval (record : IntervalRecord) : TaskProg Unit := Prog.op (Op.recordDroppedInterval record)
def saveStaged (records : List IntervalRecord) (offsetWh : UInt64) : TaskProg Bool := Prog.op (Op.saveStaged records offsetWh)
def markDataResetProducerQuiesced : TaskProg Unit := Prog.op Op.markDataResetProducerQuiesced

/-! ### Giving records away -/

def enqueueRecord (place : Place) (record : IntervalRecord) : TaskProg Bool := do
  let enabled ← recordWritesEnabled place
  if !enabled then return false
  else
    let enabled ← recordWritesEnabled place
    if !enabled then return false
    else
      let acquired ← acquire record
      if !acquired then
        recordDroppedInterval record
        return false
      else
        let sent ← send record
        if !sent then
          recordDroppedInterval record
          return false
        else return true

def stageRecordsForDataReset (records : List IntervalRecord) (proposedEnergyOffsetWh : UInt64) : TaskProg Bool := do
  if records = [] ∨ 2 < records.length then return false
  else
    let active ← producerBarrierActive
    let enabled ← if active then recordWritesEnabled .staging else pure true
    if enabled then return false
    else
      let active ← producerBarrierActive
      let enabled ← if active then recordWritesEnabled .staging else pure true
      if enabled then return false
      else saveStaged records proposedEnergyOffsetWh

/-! ### The task -/

/-- The variables of the task; it holds up to two records. -/
structure Task where
  gathering : Gathering := {}
  resetGateObserved : Bool := false
  resetDrainComplete : Bool := false
  resetPausedGeneration : UInt64 := 0
  resetBoundaryOffsetWh : UInt64 := 0
  resetBoundaryRecords : List IntervalRecord := []
  deriving DecidableEq

/-- Nothing is gathered. -/
def Gathering.stop (g : Gathering) : Gathering := { g with started := false, lastIntervalSample := none }

/-- The samples of the paused generation. -/
def gatherPaused (generation : UInt64) (g : Gathering) (arrivals : List Arrival) : Gathering :=
  arrivals.foldl (fun g a => if a.dataGeneration ≠ generation then g else g.gather a.sample) g

/-- What was gathered is finished, and the record is held. -/
def closeAtBoundary (t : Task) (last : MeasurementSnapshot) : TaskProg Task := do
  let setting ← currentSetting
  let closed := t.gathering.close { setting with dataGeneration := t.resetPausedGeneration } last
  finish closed.1
  return { t with
    gathering := Gathering.stop closed.2
    resetBoundaryOffsetWh := closed.2.energy.offsetWh
    resetBoundaryRecords := t.resetBoundaryRecords ++ [closed.1] }

/-- The held records are staged; nothing is left. -/
def drain (t : Task) : TaskProg Task := do
  let staged ← if t.resetBoundaryRecords = [] then pure true
    else stageRecordsForDataReset t.resetBoundaryRecords t.resetBoundaryOffsetWh
  if !staged then return t
  else
    markDataResetProducerQuiesced
    return { t with resetBoundaryRecords := [], resetDrainComplete := true }

/-- The freeze is seen for the first time, or again. -/
def observeGate (t : Task) : TaskProg Task :=
  if t.resetGateObserved then return t
  else do
    let generation ← dataGeneration .pausing
    return { t with resetGateObserved := true, resetDrainComplete := false, resetPausedGeneration := generation }

/-- What was gathered is finished first, and what is held is staged then. -/
def closeOrDrain (t : Task) : TaskProg Task :=
  match t.gathering.lastIntervalSample with
  | some last =>
    if t.gathering.started && t.gathering.aggregator.hasSamples then
      -- a third record is not finished; its samples stay
      if 2 ≤ t.resetBoundaryRecords.length then return t else closeAtBoundary t last
    else drain t
  | none => drain t

/-- A pass that finds the measurement frozen. -/
def frozenPass (t : Task) : TaskProg Task := do
  let t ← observeGate t
  let busy ← sampleEnqueuesInFlight
  if busy then return t
  else
    let arrivals ← receiveAll
    closeOrDrain { t with gathering := gatherPaused t.resetPausedGeneration t.gathering arrivals }

/-- Records are given to the storage, up to one that it does not take; those that are left. -/
def flush : List IntervalRecord → TaskProg (List IntervalRecord)
  | [] => return []
  | record :: records => do
    let queued ← enqueueRecord .flushing record
    if queued then flush records else return record :: records

/-- The held records go the ordinary way, if the generation is still theirs. -/
def flushBoundary (t : Task) : TaskProg Task := do
  let generation ← dataGeneration .flushing
  let queued ← if generation = t.resetPausedGeneration then
      setEnergyOffsetWh .flushing t.resetBoundaryOffsetWh
    else pure false
  if !queued then return t
  else
    let left ← flush t.resetBoundaryRecords
    return { t with resetBoundaryRecords := left }

/-- A task that holds nothing any more goes on: with the stored numbers if it was drained or the generation is new. -/
def goOn (t : Task) : TaskProg (Bool × Task) := do
  if t.resetBoundaryRecords ≠ [] then return (false, t)
  else
    let generation ← dataGeneration .resuming
    if generation ≠ t.resetPausedGeneration ∨ t.resetDrainComplete then
      let energy ← storedEnergy
      return (true, { t with
        gathering := { Gathering.stop t.gathering with energy := energy }
        resetGateObserved := false
        resetDrainComplete := false })
    else return (true, { t with resetGateObserved := false, resetDrainComplete := false })

/-- The freeze is over; whether the task goes on. -/
def resume (t : Task) : TaskProg (Bool × Task) := do
  let t ← if t.resetBoundaryRecords = [] then pure t else flushBoundary t
  goOn t

/-- A record that was finished: held if a gate is closed and there is room, else given to the storage. -/
def settleRecord (t : Task) (record : IntervalRecord) (arrival : Arrival) : TaskProg Task := do
  let frozen ← dataResetFrozen .closing
  let enabled ← if frozen then pure false else recordWritesEnabled .closing
  if !enabled then
    return { t with
      gathering := Gathering.stop t.gathering
      resetBoundaryRecords :=
        if 2 ≤ t.resetBoundaryRecords.length then t.resetBoundaryRecords else t.resetBoundaryRecords ++ [record]
      resetBoundaryOffsetWh := t.gathering.energy.offsetWh
      resetPausedGeneration := arrival.dataGeneration }
  else
    let _ ← enqueueRecord .offering record
    return t

/-- The interval is over with this sample. -/
def closeInterval (t : Task) (setting : Setting) (arrival : Arrival) : TaskProg Task := do
  let generation ← dataGeneration .closing
  let closed := t.gathering.close { setting with dataGeneration := generation } arrival.sample
  finish closed.1
  let t ← settleRecord { t with gathering := closed.2 } closed.1 arrival
  let frozen ← dataResetFrozen .settling
  let _ ← if frozen then pure true else setEnergyOffsetWh .settling t.gathering.energy.offsetWh
  -- the aggregator begins anew, but a task that stopped gathering stays so
  return { t with gathering := { t.gathering.restart arrival.sample with started := t.gathering.started } }

def sampleForGenerationAllowed (dataResetFrozen : Bool) (sampleGeneration activeGeneration : UInt64) : Bool :=
  !dataResetFrozen && sampleGeneration = activeGeneration

/-- A pass that finds the gate open. -/
def ordinaryPass (t : Task) : TaskProg Task := do
  let received ← receive
  match received with
  | none => return t
  | some arrival =>
    let active ← dataGeneration .admitting
    let frozen ← dataResetFrozen .admitting
    if !sampleForGenerationAllowed frozen arrival.dataGeneration active then
      return { t with gathering := Gathering.stop t.gathering }
    else
      let setting ← currentSetting
      let t := { t with gathering := t.gathering.gather arrival.sample }
      if t.gathering.over setting.config arrival.sample then closeInterval t setting arrival else return t

/-- One pass of the task's loop. -/
def iterate (t : Task) : TaskProg Task := do
  let frozen ← dataResetFrozen .top
  if frozen then frozenPass t
  else
    let resumed ← if t.resetGateObserved then resume t else pure (true, t)
    if !resumed.1 then return resumed.2 else ordinaryPass resumed.2

/-- The task after a boot. -/
def Task.boot (offsetWh baselineAbsoluteWh : UInt64) : Task where
  gathering := Gathering.boot offsetWh baselineAbsoluteWh

end PowerMonitor.Core.AggregationTask
