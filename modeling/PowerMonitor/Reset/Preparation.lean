import PowerMonitor.Core.AggregationTask
import PowerMonitor.Reset.DrainJournal
import PowerMonitor.Reset.Gates
import PowerMonitor.Reset.Operation

/-! # The preparation of a reset

A reset is asked for and prepared by the coordinator, while the meter samples, the task that gathers the samples
cuts its interval short and stages it, the storage completes what was staged, and the power may be lost. The
coordinator holds its lock while it works, but the others do not: a `World` goes from one action to the next, and
the task goes on by a single call at a time. -/

namespace PowerMonitor.Reset.Preparation

open PowerMonitor.Lib.Binary PowerMonitor.Lib.Json PowerMonitor.Lib.Program PowerMonitor.Storage.Reading
open PowerMonitor.Core.IntervalAggregator PowerMonitor.Core.Aggregation PowerMonitor.Core.AggregationTask
open PowerMonitor.Reset.Policy PowerMonitor.Reset.Operation PowerMonitor.Reset.DrainJournal
open PowerMonitor.Reset.Gates (readingGateRequired)

/-! ### Requests -/

inductive RequestDisposition
  | accept | replay | conflict | staleGeneration | invalid
  deriving DecidableEq, Repr

def classifyPrepareRequest (existing : Option Record) (activeGeneration : UInt64) (request : PrepareRequest) :
    RequestDisposition :=
  if !validPrepareRequest request then .invalid
  else
    match existing with
    | some existing =>
      if request.operationId = existing.prepare.operationId then
        if prepareRequestsEqual request existing.prepare then .replay else .conflict
      else if !terminalState existing.state then .conflict
      else if request.targetGeneration ≤ activeGeneration ∨
          (existing.state = .completed ∧ request.targetGeneration ≤ existing.prepare.targetGeneration) then
        .staleGeneration
      else .accept
    | none => if request.targetGeneration > activeGeneration then .accept else .staleGeneration

def cancellableState (state : State) : Bool := state = .preparing || state = .prepared || state = .attentionRequired

/-! ### The drain -/

/-- What a record of the drain journal is made with: the operation that was prepared last. -/
structure Barrier where
  operationId : Bytes := []
  deviceId : Bytes := []
  sourceGeneration : UInt64 := 0
  targetGeneration : UInt64 := 0
  cardGeneration : UInt64 := 0
  active : Bool := false
  producerQuiesced : Bool := true
  deriving DecidableEq

/-- What the storage finds when it completes a drain, and which of its saves succeed. -/
structure DrainMoment where
  loads : Bool := true
  verified : Bool := true
  nextSequence : UInt64 := 1
  assigned : Bool := true
  durable : Bool := true
  completed : Bool := true
  scrubbed : Bool := true
  deriving DecidableEq

section Drain

variable (j : JsonLibrary) (serializes : DrainRecord → Bool)

/-- A save that may fail; then the journal stays as it is. -/
def saveDrain (record : DrainRecord) (succeeds : Bool) (slots : Slots) : Bool × Slots :=
  let saved := saveTo j serializes record slots
  if succeeds then (saved.1 = .savedAndVerified, saved.2) else (false, slots)

/-- The record that stages the intervals. -/
def stagedRecord (b : Barrier) (records : List IntervalRecord) (proposedEnergyOffsetWh : UInt64) : DrainRecord where
  state := .staged
  operationId := b.operationId
  deviceId := b.deviceId
  sourceGeneration := b.sourceGeneration
  targetGeneration := b.targetGeneration
  cardGeneration := b.cardGeneration
  proposedEnergyOffsetWh := proposedEnergyOffsetWh
  intervalCount := records.length.toUInt64
  intervalCrc32 := Vector.ofFn fun i => (records[i]?).elim 0 fun r => intervalCrc32 j { r with sequence := 0 }
  intervals := Vector.ofFn fun i => (records[i]?).elim {} fun r => { r with sequence := 0 }

/-- A staged record gets its sequences. -/
def assignDrain (journal : DrainRecord) (e : DrainMoment) (slots : Slots) : Option DrainRecord × Slots :=
  if journal.state ≠ .staged then (some journal, slots)
  else if e.nextSequence = 0 ∨ journal.intervalCount = 0 ∨ e.nextSequence > maximumResetBoundary ∨
      journal.intervalCount - 1 > maximumResetBoundary - e.nextSequence then (none, slots)
  else
    let assigned := { journal with state := .assigned, assignedFirstSequence := e.nextSequence }
    let saved := saveDrain j serializes assigned e.assigned slots
    (if saved.1 then some assigned else none, saved.2)

def syncable (interval : IntervalRecord) : Bool :=
  interval.timeTrusted && interval.startUtcMs ≠ 0 && interval.endUtcMs > interval.startUtcMs

/-- An assigned record is completed when its intervals are on the card. -/
def finishDrain (journal : DrainRecord) (e : DrainMoment) (slots : Slots) : Option DrainRecord × Slots :=
  if journal.state ≠ .assigned then (some journal, slots)
  else if !e.durable then (none, slots)
  else
    let completed := { journal with
      state := .completed
      syncableRecordsAdded := ((journal.intervals.toList.take journal.intervalCount.toNat).countP syncable).toUInt64
      intervals := Vector.replicate 2 {} }
    let saved := saveDrain j serializes completed e.completed slots
    (if saved.1 then some completed else none, saved.2)

def scrubDrain (journal : DrainRecord) (e : DrainMoment) (slots : Slots) : Bool × Slots :=
  if journal.state ≠ .completed then (false, slots)
  else
    let scrubbed := scrubCompletedCopies j journal slots
    if e.scrubbed then (scrubbed.1 = .savedAndVerified, scrubbed.2) else (false, slots)

/-- A journal of this operation is taken to its end. -/
def completeOwnDrain (journal : DrainRecord) (e : DrainMoment) (slots : Slots) : Bool × Slots :=
  let assigned := assignDrain j serializes journal e slots
  match assigned.1 with
  | none => (false, assigned.2)
  | some journal =>
    let finished := finishDrain j serializes journal e assigned.2
    match finished.1 with
    | none => (false, finished.2)
    | some journal => scrubDrain j journal e finished.2

def completeDataResetDrain (b : Barrier) (e : DrainMoment) (slots : Slots) : Bool × Slots :=
  let bound := b.cardGeneration ≠ 0 && b.deviceId ≠ [] && e.verified
  if !e.loads then (false, slots)
  else
    match slots.active with
    | none => (bound, slots)
    | some journal =>
      -- a completed journal of another operation stays until it is replaced
      if journal.operationId ≠ b.operationId then (journal.state = .completed && bound, slots)
      else if journal.deviceId ≠ b.deviceId ∨ journal.sourceGeneration ≠ b.sourceGeneration ∨
          journal.targetGeneration ≠ b.targetGeneration ∨ journal.cardGeneration ≠ b.cardGeneration then (false, slots)
      else if !e.verified then (false, slots)
      else completeOwnDrain j serializes journal e slots

/-- The record that is stored owns the journal. -/
def durableResetOwnsJournal (record : Record) (journal : DrainRecord) : Bool :=
  !terminalState record.state && record.prepare.operationId = journal.operationId &&
    record.prepare.deviceId = journal.deviceId && record.prepare.targetGeneration = journal.targetGeneration &&
    journal.sourceGeneration + 1 = journal.targetGeneration

/-- A journal that no stored reset owns is completed when the device boots. -/
def recoverOrphanedDataResetDrain (durableReset : Option Record) (deviceId : Bytes)
    (dataGeneration cardGeneration : UInt64) (e : DrainMoment) (slots : Slots) : Bool × Slots :=
  if !e.loads then (false, slots)
  else
    match slots.active with
    | none => (true, slots)
    | some journal =>
      if durableReset.any (durableResetOwnsJournal · journal) then (true, slots)
      else if completedDrainFromDifferentDevice j journal deviceId then (true, slots)
      else if completedDrainMatchesCurrentGeneration j journal deviceId dataGeneration then
        scrubDrain j journal e slots
      else if dataGeneration.toNat = 2 ^ 64 - 1 ∨ journal.deviceId ≠ deviceId ∨
          journal.sourceGeneration ≠ dataGeneration ∨ journal.targetGeneration ≠ dataGeneration + 1 ∨
          journal.cardGeneration ≠ cardGeneration ∨ cardGeneration = 0 then (false, slots)
      else
        let b : Barrier := {
          operationId := journal.operationId
          deviceId := journal.deviceId
          sourceGeneration := journal.sourceGeneration
          targetGeneration := journal.targetGeneration
          cardGeneration := journal.cardGeneration }
        completeDataResetDrain j serializes b e slots

end Drain

/-! ### The device -/

/-- The lock of the coordinator: free, held by a prepare that closed the gates and is still checked, or by a release
that is opening them. -/
inductive Lock
  | free | checking | opening
  deriving DecidableEq, Repr

/-- The device. The record and the drain journal are stored, and so are the generation and the identity; the rest is
lost with the power. A sample whose poll was admitted while the gates were open may still arrive after that. -/
structure World where
  running : Bool := false
  lock : Lock := .free
  record : Option Record := none
  pendingPrepare : Option PrepareRequest := none
  dataResetFrozen : Bool := false
  recordWritesEnabled : Bool := true
  barrier : Barrier := {}
  barrierWaited : Bool := false
  barrierQueued : Bool := false
  barrierResult : Option Bool := none
  drain : Slots := {}
  dataGeneration : UInt64 := 0
  deviceId : Bytes := []
  cardGeneration : UInt64 := 0
  sampling : Bool := false
  queue : List Arrival := []
  task : TaskProg Task := iterate (Task.boot 0 0)

def World.dataResetProducerQuiesced (w : World) : Bool := w.barrier.active && w.barrier.producerQuiesced

/-- A record that the store takes over what it holds. -/
def admitsRecord : Option Record → Record → Bool
  | none, proposed => validRecord proposed && proposed.state = .preparing && proposed.checkpoint = .none
  | some current, proposed => recordsEqual current proposed || validRecordUpdate current proposed

/-- A save that may fail; then the record stays as it is. -/
def World.saveRecord (w : World) (proposed : Record) (succeeds : Bool) : Option World :=
  if succeeds && admitsRecord w.record proposed then some { w with record := some proposed } else none

/-! ### The gates -/

/-- The card generation that a prepare is bound to. -/
def World.boundCardGeneration (w : World) (prepare : PrepareRequest) : UInt64 :=
  if prepare.expectedCardGenerationSet then prepare.expectedCardGeneration
  else
    match w.record with
    | some record => if record.prepared.cardGeneration > 0 then record.prepared.cardGeneration else w.cardGeneration
    | none => w.cardGeneration

/-- The barrier of a prepare. -/
def World.barrierOf (w : World) (prepare : PrepareRequest) : Barrier where
  operationId := prepare.operationId
  deviceId := prepare.deviceId
  sourceGeneration := prepare.targetGeneration - 1
  targetGeneration := prepare.targetGeneration
  cardGeneration := w.boundCardGeneration prepare
  active := true
  producerQuiesced := false

def World.beginDataResetProducerBarrier (w : World) : World :=
  match w.pendingPrepare.or (w.record.map (·.prepare)) with
  | none => w
  | some prepare => if prepare.targetGeneration = 0 then w else { w with barrier := w.barrierOf prepare }

/-- The gates are closed, up to the record writes, which are disabled next. A barrier begins with the admission, which
is held exactly while the measurement is frozen. -/
def World.closeGates (w : World) : World :=
  if w.dataResetFrozen then w else { w.beginDataResetProducerBarrier with dataResetFrozen := true }

def World.disableRecordWrites (w : World) : World :=
  if w.dataResetFrozen ∧ w.lock ≠ .opening then { w with recordWritesEnabled := false } else w

/-- The gates may be opened: nothing is prepared, or a cancellation is repeated; and a completed reset has its card. -/
def World.releasable (w : World) (cardVerified : Bool) : Bool :=
  match w.record with
  | none => w.pendingPrepare.isNone
  | some record =>
    (record.state = .cancelled || (w.pendingPrepare.isNone && record.state = .completed)) &&
      (record.state ≠ .completed || cardVerified)

/-- The gates are opened: first the record writes. -/
def World.openGates (w : World) (cardVerified : Bool) : World :=
  if w.lock = .free ∧ w.dataResetFrozen ∧ w.releasable cardVerified then
    { w with recordWritesEnabled := true, lock := .opening }
  else w

/-- Then the measurement goes on, or the record writes are disabled again. -/
def World.releaseFreeze (w : World) (succeeds : Bool) : World :=
  if w.lock ≠ .opening then w
  else if succeeds then
    { w with
      dataResetFrozen := false
      lock := .free
      barrier := { w.barrier with active := false, producerQuiesced := true } }
  else { w with recordWritesEnabled := false, lock := .free }

/-! ### The coordinator -/

/-- A prepare, up to the point where the gates are closed; `admissible` stands for the checks of the firmware, of
the storage, of the boundary and of a running update. -/
def World.requestPrepare (w : World) (request : PrepareRequest) (admissible : Bool) : World :=
  if w.lock ≠ .free ∨ request.deviceId ≠ w.deviceId ∨ w.pendingPrepare.isSome ∨
      w.record.any (·.prepare.operationId = request.operationId) ∨ w.dataGeneration.toNat = 2 ^ 64 - 1 ∨
      request.targetGeneration ≠ w.dataGeneration + 1 ∨ !admissible ∨
      classifyPrepareRequest w.record w.dataGeneration request ≠ .accept then w
  else { w with pendingPrepare := some request, lock := .checking }.closeGates

/-- An update won the race, or the journals have no room: the prepare is dropped, and the gates are opened next. -/
def World.rejectPrepare (w : World) : World :=
  if w.lock = .checking ∧ !w.recordWritesEnabled then { w with pendingPrepare := none, lock := .free } else w

def World.acceptPrepare (w : World) : World :=
  if w.lock = .checking ∧ !w.recordWritesEnabled then { w with lock := .free } else w

/-- The first record of an operation. -/
def preparingRecord (request : PrepareRequest) (startedUtcMs : UInt64) : Record where
  state := .preparing
  prepare := request
  pause := { startedUtcMs := startedUtcMs }

/-- A prepare that is accepted is stored once the producer is quiesced; a cancellation does so too. -/
def World.processPendingPrepare (w : World) (startedUtcMs : UInt64) (succeeds : Bool) : World :=
  match w.pendingPrepare with
  | none => w
  | some request =>
    if w.lock ≠ .free ∨ startedUtcMs = 0 then w
    else
      let w := w.closeGates
      if w.recordWritesEnabled ∨ !w.dataResetProducerQuiesced then w
      else
        match w.saveRecord (preparingRecord request startedUtcMs) succeeds with
        | none => w
        | some w => { w with pendingPrepare := none, barrierWaited := false }

/-- The drain leaves nothing that a cancellation would lose. -/
def World.dataResetDrainSafeToCancel (w : World) (record : Record) (loads : Bool) (energyOffsetWh : UInt64) : Bool :=
  if !w.dataResetProducerQuiesced then false
  else if !loads then false
  else
    match w.drain.active with
    | none => true
    | some journal =>
      let prepare := record.prepare
      let cardGeneration := if prepare.expectedCardGenerationSet then prepare.expectedCardGeneration else 0
      if journal.operationId ≠ prepare.operationId then journal.state = .completed
      else
        journal.deviceId = prepare.deviceId && journal.sourceGeneration = prepare.targetGeneration - 1 &&
          journal.targetGeneration = prepare.targetGeneration &&
          (cardGeneration = 0 || journal.cardGeneration = cardGeneration) && journal.state = .completed &&
          journal.proposedEnergyOffsetWh = energyOffsetWh

/-- A cancellation of the stored operation, with the record that says so. -/
def World.requestCancel (w : World) (cancelled : Record) (loads : Bool) (energyOffsetWh : UInt64) (succeeds : Bool) :
    World :=
  match w.record with
  | none => w
  | some record =>
    if w.lock ≠ .free ∨ record.commit.approvedBoundarySet ∨ cancelled.state ≠ .cancelled ∨
        cancelled.prepare ≠ record.prepare then w
    else if (record.state = .preparing ∨ (record.state = .attentionRequired ∧ record.checkpoint = .none)) ∧
        !w.dataResetDrainSafeToCancel record loads energyOffsetWh then w
    else if !cancellableState record.state ∨ commitPointReached record.checkpoint then w
    else
      match w.saveRecord cancelled succeeds with
      | none => w
      | some w => { w with pendingPrepare := none, barrierWaited := false }

/-- The storage is asked to drain, once the producer is quiesced. -/
def World.queueDataResetBarrier (w : World) : World :=
  if w.lock = .free ∧ w.record.any (·.state = .preparing) ∧ w.dataResetProducerQuiesced ∧ !w.barrierWaited ∧
      !w.recordWritesEnabled ∧ !w.barrierQueued then
    { w with barrierWaited := true, barrierQueued := true, barrierResult := none }
  else w

/-- The result of the drain is taken: with it the reset is prepared, else the record notes a failure. -/
def World.progressPreparing (w : World) (proposed : Record) (succeeds : Bool) : World :=
  match w.record, w.barrierResult with
  | some record, some ok =>
    if w.lock ≠ .free ∨ record.state ≠ .preparing ∨ !w.barrierWaited ∨ proposed.prepare ≠ record.prepare then w
    else
      let w := { w with barrierWaited := false }
      if proposed.state = .preparing ∨ (proposed.state = .prepared ∧ ok ∧ w.dataResetProducerQuiesced) then
        (w.saveRecord proposed succeeds).getD w
      else w
  | _, _ => w

/-- A prepared reset goes on towards its end, or waits for attention. -/
def World.progressCommit (w : World) (proposed : Record) (succeeds : Bool) : World :=
  match w.record with
  | none => w
  | some record =>
    if w.lock = .free ∧ (record.state = .prepared ∨ record.state = .committing ∨ record.state = .attentionRequired) ∧
        proposed.prepare = record.prepare ∧ proposed.state ≠ .preparing ∧ proposed.state ≠ .cancelled then
      (w.saveRecord proposed succeeds).getD w
    else w

/-- A reset that is committed installs its generation. -/
def World.installGeneration (w : World) : World :=
  match w.record with
  | none => w
  | some record =>
    if w.lock = .free ∧ record.state = .committing ∧ w.dataGeneration.toNat + 1 = record.prepare.targetGeneration.toNat then
      { w with dataGeneration := record.prepare.targetGeneration }
    else w

/-! ### The task, the meter and the power -/

section Actions

variable (j : JsonLibrary) (serializes : DrainRecord → Bool)

/-- A call of the task, answered by the device. -/
def World.answer (w : World) : (op : Op) → Moment → World × Ans op
  | .dataResetFrozen _, _ => (w, w.dataResetFrozen)
  | .recordWritesEnabled _, _ => (w, w.recordWritesEnabled)
  | .producerBarrierActive, _ => (w, w.barrier.active)
  | .sampleEnqueuesInFlight, e => (w, w.sampling || e.sampleEnqueuesInFlight)
  | .dataGeneration _, _ => (w, w.dataGeneration)
  | .energy, e => (w, { offsetWh := e.energyOffsetWh, baselineAbsoluteWh := e.energyBaselineAbsoluteWh })
  | .setting, e => (w, e.setting)
  | .receive, _ => ({ w with queue := w.queue.tail }, w.queue.head?)
  | .receiveAll, _ => ({ w with queue := [] }, w.queue)
  | .setEnergyOffsetWh _ _, e => (w, e.succeeds)
  | .finish _, _ => (w, ())
  | .acquire _, e => (w, e.succeeds)
  | .send _, e => (w, e.succeeds)
  | .recordDroppedInterval _, _ => (w, ())
  | .saveStaged records offsetWh, e =>
    let saved := saveDrain j serializes (stagedRecord j w.barrier records offsetWh) e.succeeds w.drain
    ({ w with drain := saved.2 }, saved.1)
  | .markDataResetProducerQuiesced, _ =>
    (if w.barrier.active then { w with barrier := { w.barrier with producerQuiesced := true } } else w, ())

/-- The next call of the task, or the next pass of its loop. -/
def World.produce (w : World) (e : Moment) : World :=
  match w.task with
  | .ret t => { w with task := iterate t }
  | .call op k =>
    let answered := w.answer j serializes op e
    { answered.1 with task := k answered.2 }

/-- A poll of the meter is admitted. -/
def World.poll (w : World) : World := if w.dataResetFrozen then w else { w with sampling := true }

/-- An admitted poll ends, with a sample of the current generation or without one. -/
def World.enqueueSample (w : World) (sample : Option MeasurementSnapshot) : World :=
  if w.sampling then
    { w with
      sampling := false
      queue := w.queue ++ (sample.map fun s => { sample := s, dataGeneration := w.dataGeneration : Arrival }).toList }
  else w

/-- The storage comes to the barrier; `ready` stands for the records and events that are flushed before. -/
def World.drainBarrier (w : World) (ready : Bool) (e : DrainMoment) : World :=
  if !w.barrierQueued then w
  else if !ready then { w with barrierQueued := false, barrierResult := some false }
  else
    let completed := completeDataResetDrain j serializes w.barrier e w.drain
    { w with barrierQueued := false, barrierResult := some completed.1, drain := completed.2 }

/-- What a boot finds. -/
structure BootMoment where
  drain : DrainMoment := {}
  installed : Bool := true
  cardVerified : Bool := true
  energyOffsetWh : UInt64 := 0
  energyBaselineAbsoluteWh : UInt64 := 0

/-- What the power leaves. -/
def World.fresh (w : World) (drain : Slots) (e : BootMoment) : World where
  record := w.record
  drain := drain
  dataGeneration := w.dataGeneration
  deviceId := w.deviceId
  cardGeneration := w.cardGeneration
  task := iterate (Task.boot e.energyOffsetWh e.energyBaselineAbsoluteWh)

/-- The device boots, at any moment. It runs if an orphaned drain is recovered; its gates are closed if its record
requires it. -/
def World.boot (w : World) (e : BootMoment) : World :=
  let recovered := recoverOrphanedDataResetDrain j serializes w.record w.deviceId w.dataGeneration w.cardGeneration
    e.drain w.drain
  let fresh := w.fresh recovered.2 e
  if !recovered.1 || !e.installed then fresh
  else if w.record.any fun record =>
      readingGateRequired record.state || (record.state = .completed && !e.cardVerified) then
    { fresh.closeGates with recordWritesEnabled := false, running := true }
  else { fresh with running := true }

/-! ### Actions -/

inductive Action
  | boot (e : BootMoment)
  | poll
  | enqueueSample (sample : Option MeasurementSnapshot)
  | produce (e : Moment)
  | drainBarrier (ready : Bool) (e : DrainMoment)
  | requestPrepare (request : PrepareRequest) (admissible : Bool)
  | disableRecordWrites
  | rejectPrepare
  | acceptPrepare
  | processPendingPrepare (startedUtcMs : UInt64) (succeeds : Bool)
  | requestCancel (cancelled : Record) (loads : Bool) (energyOffsetWh : UInt64) (succeeds : Bool)
  | queueDataResetBarrier
  | progressPreparing (proposed : Record) (succeeds : Bool)
  | progressCommit (proposed : Record) (succeeds : Bool)
  | installGeneration
  | openGates (cardVerified : Bool)
  | releaseFreeze (succeeds : Bool)

/-- Nothing but a boot happens on a device that does not run. -/
def World.after (w : World) : Action → World
  | .boot e => w.boot j serializes e
  | .poll => if w.running then w.poll else w
  | .enqueueSample sample => if w.running then w.enqueueSample sample else w
  | .produce e => if w.running then w.produce j serializes e else w
  | .drainBarrier ready e => if w.running then w.drainBarrier j serializes ready e else w
  | .requestPrepare request admissible => if w.running then w.requestPrepare request admissible else w
  | .disableRecordWrites => if w.running then w.disableRecordWrites else w
  | .rejectPrepare => if w.running then w.rejectPrepare else w
  | .acceptPrepare => if w.running then w.acceptPrepare else w
  | .processPendingPrepare started succeeds => if w.running then w.processPendingPrepare started succeeds else w
  | .requestCancel cancelled loads offsetWh succeeds =>
    if w.running then w.requestCancel cancelled loads offsetWh succeeds else w
  | .queueDataResetBarrier => if w.running then w.queueDataResetBarrier else w
  | .progressPreparing proposed succeeds => if w.running then w.progressPreparing proposed succeeds else w
  | .progressCommit proposed succeeds => if w.running then w.progressCommit proposed succeeds else w
  | .installGeneration => if w.running then w.installGeneration else w
  | .openGates cardVerified => if w.running then w.openGates cardVerified else w
  | .releaseFreeze succeeds => if w.running then w.releaseFreeze succeeds else w

/-- The device before its first boot. -/
def World.new (deviceId : Bytes) (dataGeneration cardGeneration : UInt64) : World where
  deviceId := deviceId
  dataGeneration := dataGeneration
  cardGeneration := cardGeneration

/-- The device after any actions that `A` admits. -/
inductive Reachable (A : World → Action → Prop) : World → Prop
  | new (deviceId : Bytes) (dataGeneration cardGeneration : UInt64) :
    Reachable A (World.new deviceId dataGeneration cardGeneration)
  | step {w : World} (h : Reachable A w) (a : Action) (ha : A w a) : Reachable A (w.after j serializes a)

end Actions

end PowerMonitor.Reset.Preparation
