import Mathlib.Data.Int.ModEq
import PowerMonitor.Lib.Gate
import PowerMonitor.Lib.Handover
import PowerMonitor.Lib.Tally
import PowerMonitor.Storage.MessagePool

/-! # The write queue

Any task may queue a record or an event for the storage task. It takes a slot of the pool by exchanging its flag, copies
the data into the slot, and sends the number of the slot through the queue; the storage task reads the slot and gives it
back. Nothing is locked: every atomic access and every operation of the queue is a step of its own, and the steps of all
tasks interleave freely.

* `callStep_handover`, `taskStep_invariant`: the calls are givers and the storage task is the taker of a handover.
* `handed_in_order`: what the storage task read and what is waiting for it is what was accepted, in this order.
* `slots_owned`: the branches for an invalid slot and for a full list of events are never taken.
* `resumed_once`: an event that is kept during a reset is appended at most once.
* `intervals_accounted`: a record that found no slot or no place in the queue is counted as an unavailable interval. -/

namespace PowerMonitor.Storage.WriteQueue

open Function
open PowerMonitor.Lib PowerMonitor.Lib.Binary PowerMonitor.Lib.Handover PowerMonitor.Storage.Reading
  PowerMonitor.Storage.Events PowerMonitor.Storage.MessagePool

/-! ### Pools and messages -/

structure Slot (V : Type) where
  value : V
  inUse : Bool := false

structure Pool (V : Type) where
  slots : ℕ → Slot V
  active : UInt16 := 0
  peakActive : UInt16 := 0
  exhaustions : UInt64 := 0

/-- `kRecordPoolCapacity` and `kEventPoolCapacity`. -/
def Kind.capacity : Kind → ℕ
  | .record => 120
  | .event => 16

def offlineRecordQueueDepth : ℕ := 120

structure Message where
  kind : Kind
  poolSlot : ℕ
  deriving DecidableEq, Repr

abbrev Message.place (m : Message) : Kind × ℕ := (m.kind, m.poolSlot)

/-- What is queued, of either kind. -/
abbrev Item := (k : Kind) × k.Source

/-! ### Calls -/

/-- How a call of `enqueueRecord` or `enqueueEvent` ends. -/
inductive Ending
  | accepted | refused | dropped
  deriving DecidableEq, Repr

/-- The next operation of a call. -/
inductive CallStep
  | enabled
  | enter
  | again
  | acquire (index : ℕ)
  | count (index : ℕ)
  | loadPeak (index : ℕ) (active : UInt16)
  | raisePeak (index : ℕ) (active peak : UInt16)
  | exhaust
  | identify (index : Option ℕ) (second : Bool)
  | assign (index : Option ℕ)
  | send (index : ℕ)
  | release (index : Option ℕ)
  | uncount
  | leave (ending : Ending)
  | drop
  | countInterval
  | loadFirst
  | raiseFirst (first : UInt64)
  | loadLast
  | raiseLast (last : UInt64)
  deriving DecidableEq, Repr

/-- The slot that a call has taken and not passed on. -/
def CallStep.hand : CallStep → Option ℕ
  | count index | loadPeak index _ | raisePeak index _ _ | send index => some index
  | identify index _ | assign index | release index => index
  | _ => none

structure Call where
  kind : Kind
  source : kind.Source
  step : CallStep

/-- The call goes on when it has a slot, or none. -/
def Kind.acquired (index : Option ℕ) : Kind → CallStep
  | .record => .assign index
  | .event => .identify index false

/-- The call goes on when the slot has been given back. -/
def Kind.released : Kind → CallStep
  | .record => .leave .dropped
  | .event => .drop

/-- What `enqueueEvent` adds to an event. -/
def Kind.identified (id : UInt64) : (k : Kind) → k.Source → k.Source
  | .record, source => source
  | .event, (source : DeviceEvent) => { source with sourceEventId := id : DeviceEvent }

/-- What is checked before the data are copied. -/
def Kind.complete : (k : Kind) → k.Source → Bool
  | .record, _ => true
  | .event, (source : DeviceEvent) => source.sourceEventId ≠ 0 && source.bootId ≠ []

/-! ### The storage task -/

/-- The next operation of the storage task. -/
inductive TaskStep
  | idle
  | received (m : Message)
  | release (m : Message)
  | uncount (k : Kind)
  | collectFirst (count : UInt64)
  | collectLast (count first : UInt64)
  | purgeFirst
  | purgeLast
  deriving DecidableEq, Repr

/-- What the storage task does with what it has received. A record is made the pending one or discarded by a reset; an
event is appended, kept because it could not be appended, or given up. -/
inductive Handling
  | take | keep | discard
  deriving DecidableEq, Repr

inductive TaskAction
  | receive
  | handle (handling : Handling)
  | settleRecord
  | resume (position : ℕ)
  | collect
  | reserve
  | purge
  | go
  deriving DecidableEq, Repr

structure StorageTask where
  step : TaskStep := .idle
  pendingRecord : Option IntervalRecord := none
  pendingGapCount : UInt64 := 0
  pendingGapFirstUtcMs : UInt64 := 0
  pendingGapLastUtcMs : UInt64 := 0
  /-- The events that are kept, with what was read of them. -/
  pendingResetEvents : List (Message × Item) := []

/-- The coordinator with its atomics, its pools and its write queue, the calls that are under way and the storage task;
and what has happened so far. -/
structure World where
  recordWritesEnabled : Bool := true
  recordEnqueuesInFlight : UInt32 := 0
  dropped : UInt64 := 0
  nextSourceEventId : UInt64 := 1
  droppedRecordIntervals : UInt64 := 0
  firstDroppedIntervalUtcMs : UInt64 := 0
  lastDroppedIntervalUtcMs : UInt64 := 0
  pools : (k : Kind) → Pool k.Value := fun _ => { slots := fun _ => { value := default } }
  writeQueue : List Message := []
  calls : ℕ → Option Call := fun _ => none
  task : StorageTask := {}
  /-- What was sent, in the order of the sends. -/
  accepted : List Item := []
  /-- What the storage task read of the slots it received. -/
  handed : List Item := []
  /-- The events that were appended after they had been kept. -/
  resumed : List Item := []
  /-- How often a branch for a corrupt pool was taken. -/
  corruptions : ℕ := 0
  /-- The records that found no slot, did not fit one or were not queued. -/
  lost : ℕ := 0
  /-- The intervals that the storage task has reserved or a reset has purged. -/
  settled : ℕ := 0

def World.setCall (w : World) (p : ℕ) (c : Option Call) : World := { w with calls := update w.calls p c }

def World.setPool (w : World) (k : Kind) (pool : Pool k.Value) : World := { w with pools := update w.pools k pool }

def World.setTask (w : World) (step : TaskStep) : World := { w with task := { w.task with step := step } }

def Pool.setSlot {V : Type} (pool : Pool V) (index : ℕ) (slot : Slot V) : Pool V :=
  { pool with slots := update pool.slots index slot }

/-- The flag of a slot is set or cleared. -/
def Pool.mark {V : Type} (pool : Pool V) (index : ℕ) (inUse : Bool) : Pool V :=
  pool.setSlot index { pool.slots index with inUse := inUse }

def Pool.get {V : Type} (pool : Pool V) (capacity index : ℕ) : Option V :=
  if index < capacity ∧ (pool.slots index).inUse then some (pool.slots index).value else none

def World.get (w : World) (k : Kind) (index : ℕ) : Option k.Value := (w.pools k).get (Kind.capacity k) index

/-- What is in a slot. -/
def World.content (w : World) (m : Kind × ℕ) : Item := ⟨m.1, m.1.content ((w.pools m.1).slots m.2).value⟩

/-- A record is counted as lost. -/
def World.lose (w : World) : Kind → World
  | .record => { w with lost := w.lost + 1 }
  | .event => w

/-- The next operation of a call; a weak exchange may fail for no reason. -/
def World.callStep (w : World) (p : ℕ) (c : Call) (spurious : Bool) : World :=
  let go (w : World) (step : CallStep) : World := w.setCall p (some { c with step := step })
  let pool := w.pools c.kind
  match c.step with
  | .enabled => if w.recordWritesEnabled then go w .enter else w.setCall p none
  | .enter => go { w with recordEnqueuesInFlight := w.recordEnqueuesInFlight + 1 } .again
  | .again => if w.recordWritesEnabled then go w (.acquire 0) else go w (.leave .refused)
  | .acquire index =>
    if index < Kind.capacity c.kind then
      if (pool.slots index).inUse then go w (.acquire (index + 1))
      else go (w.setPool c.kind (pool.mark index true)) (.count index)
    else go w .exhaust
  | .count index =>
    go (w.setPool c.kind { pool with active := pool.active + 1 }) (.loadPeak index (pool.active + 1))
  | .loadPeak index active => go w (.raisePeak index active pool.peakActive)
  | .raisePeak index active peak =>
    if active > peak then
      if pool.peakActive = peak ∧ !spurious then
        go (w.setPool c.kind { pool with peakActive := active }) (Kind.acquired (some index) c.kind)
      else go w (.raisePeak index active pool.peakActive)
    else go w (Kind.acquired (some index) c.kind)
  | .exhaust =>
    go (w.setPool c.kind { pool with exhaustions := pool.exhaustions + 1 }) (Kind.acquired none c.kind)
  | .identify index second =>
    let w' := { w with nextSourceEventId := w.nextSourceEventId + 1 }
    let c' := { c with source := Kind.identified w.nextSourceEventId c.kind c.source }
    if w.nextSourceEventId = 0 ∧ !second then w'.setCall p (some { c' with step := .identify index true })
    else w'.setCall p (some { c' with step := .assign index })
  | .assign none => go (w.lose c.kind) (.release none)
  | .assign (some index) =>
    match w.get c.kind index with
    | none => go (w.lose c.kind) (.release (some index))
    | some value =>
      if !Kind.complete c.kind c.source then go (w.lose c.kind) (.release (some index))
      else
        let (value, copied) := c.kind.assign value c.source
        let w' := w.setPool c.kind (pool.setSlot index { pool.slots index with value := value })
        if copied then go w' (.send index) else go (w'.lose c.kind) (.release (some index))
  | .send index =>
    if w.writeQueue.length < offlineRecordQueueDepth then
      let w' := { w with
        writeQueue := w.writeQueue ++ [⟨c.kind, index⟩]
        accepted := w.accepted ++ [⟨c.kind, c.source⟩] }
      match c.kind with
      | .record => go w' (.leave .accepted)
      | .event => w'.setCall p none
    else go (w.lose c.kind) (.release (some index))
  | .release none => go w (Kind.released c.kind)
  | .release (some index) =>
    if index < Kind.capacity c.kind ∧ (pool.slots index).inUse then
      go (w.setPool c.kind (pool.mark index false)) .uncount
    else go w (Kind.released c.kind)
  | .uncount => go (w.setPool c.kind { pool with active := pool.active - 1 }) (Kind.released c.kind)
  | .leave ending =>
    let w' := { w with recordEnqueuesInFlight := w.recordEnqueuesInFlight - 1 }
    if ending = .dropped then go w' .drop else w'.setCall p none
  | .drop =>
    let w' := { w with dropped := w.dropped + 1 }
    match c.kind with
    | .record => go w' .countInterval
    | .event => w'.setCall p none
  | .countInterval =>
    match c.kind with
    | .record => go { w with droppedRecordIntervals := w.droppedRecordIntervals + 1 } .loadFirst
    | .event => w
  | .loadFirst => go w (.raiseFirst w.firstDroppedIntervalUtcMs)
  | .raiseFirst first =>
    match c with
    | ⟨.record, (source : IntervalRecord), _⟩ =>
      if first = 0 ∨ source.startUtcMs < first then
        if w.firstDroppedIntervalUtcMs = first ∧ !spurious then
          go { w with firstDroppedIntervalUtcMs := source.startUtcMs } .loadLast
        else go w (.raiseFirst w.firstDroppedIntervalUtcMs)
      else go w .loadLast
    | ⟨.event, _, _⟩ => w
  | .loadLast => go w (.raiseLast w.lastDroppedIntervalUtcMs)
  | .raiseLast last =>
    match c with
    | ⟨.record, (source : IntervalRecord), _⟩ =>
      if source.endUtcMs > last then
        if w.lastDroppedIntervalUtcMs = last ∧ !spurious then
          { w with lastDroppedIntervalUtcMs := source.endUtcMs }.setCall p none
        else go w (.raiseLast w.lastDroppedIntervalUtcMs)
      else w.setCall p none
    | ⟨.event, _, _⟩ => w

/-- A message is received and its slot has been read. -/
def World.handle (w : World) (m : Message) : Handling → Option World
  | .take =>
    match m with
    | ⟨.record, index⟩ =>
      match w.get .record index with
      | none => some { w.setTask .idle with corruptions := w.corruptions + 1 }
      | some value => some { w with
          task := { w.task with step := .release m, pendingRecord := some (FixedIntervalRecord.materialize value) }
          handed := w.handed ++ [w.content m.place] }
    | ⟨.event, index⟩ =>
      match w.get .event index with
      | none => some { w.setTask .idle with corruptions := w.corruptions + 1 }
      | some _ => some { w.setTask (.release m) with handed := w.handed ++ [w.content m.place] }
  | .discard =>
    match m with
    | ⟨.record, _⟩ => some { w.setTask (.release m) with handed := w.handed ++ [w.content m.place] }
    | ⟨.event, index⟩ =>
      match w.get .event index with
      | none => some { w.setTask .idle with corruptions := w.corruptions + 1 }
      | some _ => some { w.setTask (.release m) with handed := w.handed ++ [w.content m.place] }
  | .keep =>
    match m with
    | ⟨.record, _⟩ => none
    | ⟨.event, index⟩ =>
      match w.get .event index with
      | none => some { w.setTask .idle with corruptions := w.corruptions + 1 }
      | some _ =>
        if w.task.pendingResetEvents.length < Kind.capacity .event then some { w with
          task := { w.task with
            step := .idle
            pendingResetEvents := w.task.pendingResetEvents ++ [(m, w.content m.place)] }
          handed := w.handed ++ [w.content m.place] }
        else some { w.setTask .idle with corruptions := w.corruptions + 1 }

/-- What the storage task may begin when it is idle. -/
def World.idleStep (w : World) : TaskAction → Option World
  | .receive =>
    match w.task.pendingRecord, w.writeQueue with
    | none, m :: writeQueue => some { w.setTask (.received m) with writeQueue := writeQueue }
    | _, _ => none
  | .settleRecord =>
    match w.task.pendingRecord with
    | some _ => some { w with task := { w.task with pendingRecord := none } }
    | none => none
  | .resume position =>
    match w.task.pendingResetEvents[position]? with
    | none => none
    | some (m, _) =>
      match w.get m.kind m.poolSlot with
      | none => some { w with corruptions := w.corruptions + 1 }
      | some _ =>
        let w' := w.setPool m.kind ((w.pools m.kind).mark m.poolSlot false)
        some { w' with
          task := { w.task with
            step := .uncount m.kind
            pendingResetEvents := w.task.pendingResetEvents.eraseIdx position }
          resumed := w.resumed ++ [w.content m.place] }
  | .collect =>
    if w.droppedRecordIntervals = 0 then some w
    else some { w.setTask (.collectFirst w.droppedRecordIntervals) with droppedRecordIntervals := 0 }
  | .reserve =>
    if w.task.pendingGapCount > 0 then some { w with
      task := { w.task with pendingGapCount := 0, pendingGapFirstUtcMs := 0, pendingGapLastUtcMs := 0 }
      settled := w.settled + w.task.pendingGapCount.toNat }
    else none
  | .purge => some { w with
      task := { w.task with
        step := .purgeFirst
        pendingGapCount := 0
        pendingGapFirstUtcMs := 0
        pendingGapLastUtcMs := 0 }
      droppedRecordIntervals := 0
      settled := w.settled + w.task.pendingGapCount.toNat + w.droppedRecordIntervals.toNat }
  | .handle _ | .go => none

/-- How the storage task goes on with what it began. -/
def World.goStep (w : World) : Option World :=
  match w.task.step with
  | .release m =>
    let pool := w.pools m.kind
    if m.poolSlot < Kind.capacity m.kind ∧ (pool.slots m.poolSlot).inUse then
      some ((w.setPool m.kind (pool.mark m.poolSlot false)).setTask (.uncount m.kind))
    else some (w.setTask .idle)
  | .uncount k => some ((w.setPool k { w.pools k with active := (w.pools k).active - 1 }).setTask .idle)
  | .collectFirst count =>
    some { w.setTask (.collectLast count w.firstDroppedIntervalUtcMs) with firstDroppedIntervalUtcMs := 0 }
  | .collectLast count first =>
    let task := w.task
    some { w with
      lastDroppedIntervalUtcMs := 0
      task := { task with
        step := .idle
        pendingGapCount := task.pendingGapCount + count
        pendingGapFirstUtcMs :=
          if task.pendingGapFirstUtcMs = 0 then first else min task.pendingGapFirstUtcMs first
        pendingGapLastUtcMs := max task.pendingGapLastUtcMs w.lastDroppedIntervalUtcMs } }
  | .purgeFirst => some { w.setTask .purgeLast with firstDroppedIntervalUtcMs := 0 }
  | .purgeLast => some { w.setTask .idle with lastDroppedIntervalUtcMs := 0 }
  | .idle | .received _ => none

/-- The next operation of the storage task, if it is possible. -/
def World.taskStep (w : World) : TaskAction → Option World
  | .handle handling =>
    match w.task.step with
    | .received m => w.handle m handling
    | _ => none
  | .go => w.goStep
  | action => if w.task.step = .idle then w.idleStep action else none

inductive Action
  | enqueueRecord (task : ℕ) (record : IntervalRecord)
  | enqueueEvent (task : ℕ) (event : DeviceEvent)
  | go (task : ℕ) (spurious : Bool)
  | setRecordWritesEnabled (enabled : Bool)
  | storage (action : TaskAction)
  deriving DecidableEq

/-- One step, if it is possible. -/
def World.step (w : World) : Action → Option World
  | .enqueueRecord p record =>
    match w.calls p with
    | none => some (w.setCall p (some ⟨.record, record, .enabled⟩))
    | some _ => none
  | .enqueueEvent p event =>
    match w.calls p with
    | none => some (w.setCall p (some ⟨.event, event, .acquire 0⟩))
    | some _ => none
  | .go p spurious => (w.calls p).map fun c => w.callStep p c spurious
  | .setRecordWritesEnabled enabled => some { w with recordWritesEnabled := enabled }
  | .storage action => w.taskStep action

/-- The steps of a run. -/
def World.run (w : World) (actions : List Action) : Option World := actions.foldlM World.step w

/-- The states of all runs. -/
inductive Reached : World → Prop
  | start : Reached {}
  | step {w w' : World} (h : Reached w) (action : Action) (hstep : w.step action = some w') : Reached w'

theorem Reached.run {w w' : World} (h : Reached w) {actions : List Action} (hrun : w.run actions = some w') :
    Reached w' := by
  induction actions generalizing w with
  | nil => exact Option.some.inj hrun ▸ h
  | cons action actions ih =>
    rw [World.run, List.foldlM_cons] at hrun
    obtain ⟨w1, hstep, hrest⟩ := Option.bind_eq_some_iff.mp hrun
    exact ih (h.step action hstep) hrest

/-! ### What is watched -/

/-- What is received and not yet read, and what is queued, as it is in the slots. -/
def World.waiting (w : World) : List Item :=
  (match w.task.step with
    | .received m => [w.content m.place]
    | _ => []) ++ w.writeQueue.map fun m => w.content m.place

/-- What was read of the events that were kept. -/
def World.keptItems (w : World) : List Item := w.resumed ++ w.task.pendingResetEvents.map Prod.snd

/-- What the storage task has collected and not yet added to the pending gap. -/
def TaskStep.collecting : TaskStep → ℕ
  | collectFirst count | collectLast count _ => count.toNat
  | _ => 0

/-- The intervals that have been counted as unavailable. -/
def World.unavailable (w : World) : ℕ :=
  w.settled + w.task.pendingGapCount.toNat + w.task.step.collecting + w.droppedRecordIntervals.toNat

/-- A record has been counted as lost, and its call has still to count the interval as unavailable. -/
def owing : Option Call → Tally.Lag
  | some ⟨.record, _, .release _⟩ | some ⟨.record, _, .uncount⟩ | some ⟨.record, _, .leave .dropped⟩
  | some ⟨.record, _, .drop⟩ | some ⟨.record, _, .countInterval⟩ => .raised
  | _ => .even

/-- An event is kept while readings are not written; a record whose device id is too long is lost. -/
def keptEvent : List Action :=
  (.enqueueEvent 0 { code := [69], severity := [105], bootId := [66] } :: List.replicate 7 (.go 0 false) : List Action) ++
    (.enqueueRecord 1 { deviceId := List.replicate 40 68 } :: List.replicate 13 (.go 1 false) : List Action) ++
    ([.setRecordWritesEnabled false, .storage .receive, .storage (.handle .keep)] : List Action)

theorem run_keptEvent : ((World.run {} keptEvent).map fun w =>
    (w.accepted.length, w.handed.length, w.keptItems.length, w.lost, w.unavailable)) = some (1, 1, 1, 1, 1) := by
  decide +kernel

theorem reached_keptEvent :
    ∃ w, Reached w ∧ w.accepted.length = 1 ∧ w.handed.length = 1 ∧ w.keptItems.length = 1 ∧
    w.lost = 1 ∧ w.unavailable = 1 := by
  obtain ⟨w, hrun, hw⟩ := Option.map_eq_some_iff.mp run_keptEvent
  simp only [Prod.mk.injEq] at hw
  exact ⟨w, Reached.start.run hrun, hw⟩

/-! ### The places of the slots -/

variable {w w' : World} {p : ℕ} {c : Call} {spurious : Bool} {held : List ((Kind × ℕ) × Item)} {taken : List Item}

def Call.hand (c : Call) : Option (Kind × ℕ) := c.step.hand.map fun index => (c.kind, index)

def Item.clean (x : Item) : Item := ⟨x.1, x.1.clean x.2⟩

/-- What a call is about to send. -/
def Call.ready (c : Call) : Option Item :=
  match c.step with
  | .send _ => some (Item.clean ⟨c.kind, c.source⟩)
  | _ => none

def slotPlaces : Set (Kind × ℕ) := {i | i.2 < Kind.capacity i.1}

/-- The slots as places through which the data are handed over. -/
def World.handover (w : World) (held : List ((Kind × ℕ) × Item)) (taken : List Item) : State ℕ (Kind × ℕ) Item where
  used i := ((w.pools i.1).slots i.2).inUse
  value := w.content
  hand p := (w.calls p).bind Call.hand
  ready p := (w.calls p).bind Call.ready
  line := w.writeQueue.map Message.place
  held := held
  given := w.accepted.map Item.clean
  taken := taken

theorem bind_setCall {β : Type} (o : Option Call) (f : Call → Option β) :
    (fun q => ((w.setCall p o).calls q).bind f) = update (fun q => (w.calls q).bind f) p (o.bind f) := by
  funext q
  by_cases hq : q = p
  · subst hq
    simp only [World.setCall, update_self]
  · simp only [World.setCall, update_of_ne hq]

theorem handover_setCall (o : Option Call) : (w.setCall p o).handover held taken =
    { w.handover held taken with
      hand := update (w.handover held taken).hand p (o.bind Call.hand)
      ready := update (w.handover held taken).ready p (o.bind Call.ready) } := by
  rw [World.handover, bind_setCall, bind_setCall]
  rfl

/-- A call goes on with what it has in its hand. -/
theorem handover_hand {o : Option Call} (ho : (w.calls p).bind Call.hand = o.bind Call.hand) :
    (w.setCall p o).handover held taken =
      { w.handover held taken with ready := update (w.handover held taken).ready p (o.bind Call.ready) } := by
  rw [handover_setCall, ← ho]
  exact congrArg (fun hand => ({ w.handover held taken with
    hand := hand, ready := update (w.handover held taken).ready p (o.bind Call.ready) } : State ℕ (Kind × ℕ) Item))
    (update_eq_self p (w.handover held taken).hand)

/-- Nothing happens to the places. -/
theorem handover_stay (hcalls : w'.calls = w.calls) (hsame : w'.handover held taken = w.handover held taken)
    {o : Option Call} (ho : (w.calls p).bind Call.hand = o.bind Call.hand) (hready : o.bind Call.ready = none) :
    Step slotPlaces (w.handover held taken) ((w'.setCall p o).handover held taken) := by
  rw [handover_hand (hcalls ▸ ho), hsame, hready]
  exact .withdraw p

/-- The counters of a pool are counted or set. -/
theorem slots_counters (k : Kind) (active peak : UInt16) (exhaustions : UInt64) (i : Kind × ℕ) :
    ((w.setPool k ⟨(w.pools k).slots, active, peak, exhaustions⟩).pools i.1).slots i.2 =
      (w.pools i.1).slots i.2 := by
  obtain ⟨k', i⟩ := i
  by_cases hk : k' = k
  · subst hk
    simp only [World.setPool, update_self]
  · simp only [World.setPool, update_of_ne hk]

theorem handover_counters (k : Kind) (active peak : UInt16) (exhaustions : UInt64) :
    (w.setPool k ⟨(w.pools k).slots, active, peak, exhaustions⟩).handover held taken = w.handover held taken := by
  have hused := funext fun i => congrArg Slot.inUse (slots_counters (w := w) k active peak exhaustions i)
  have hvalue : (w.setPool k ⟨(w.pools k).slots, active, peak, exhaustions⟩).content = w.content := by
    funext i
    rw [World.content, World.content, slots_counters]
  rw [World.handover, World.handover, hused, hvalue]
  rfl

theorem handover_count {k : Kind} {active peak : UInt16} {exhaustions : UInt64} {o : Option Call}
    (ho : (w.calls p).bind Call.hand = o.bind Call.hand) (hready : o.bind Call.ready = none) :
    Step slotPlaces (w.handover held taken)
      (((w.setPool k ⟨(w.pools k).slots, active, peak, exhaustions⟩).setCall p o).handover held taken) := by
  rw [handover_hand (w := w.setPool k _) ho, handover_counters, hready]
  exact .withdraw p

theorem slots_setSlot (k : Kind) (index : ℕ) (slot : Slot k.Value) (i : Kind × ℕ) (hi : i ≠ (k, index)) :
    ((w.setPool k ((w.pools k).setSlot index slot)).pools i.1).slots i.2 = (w.pools i.1).slots i.2 := by
  obtain ⟨k', i⟩ := i
  by_cases hk : k' = k
  · subst hk
    have hne : i ≠ index := fun h => hi (by rw [h])
    simp only [World.setPool, update_self, Pool.setSlot, update_of_ne hne]
  · simp only [World.setPool, update_of_ne hk]

theorem slots_setSlot_self (k : Kind) (index : ℕ) (slot : Slot k.Value) :
    ((w.setPool k ((w.pools k).setSlot index slot)).pools k).slots index = slot := by
  simp only [World.setPool, update_self, Pool.setSlot]

theorem handover_setSlot {k : Kind} {index : ℕ} {slot : Slot k.Value} :
    (w.setPool k ((w.pools k).setSlot index slot)).handover held taken = { w.handover held taken with
      used := update (w.handover held taken).used (k, index) slot.inUse
      value := update w.content (k, index) ⟨k, k.content slot.value⟩ } := by
  have hused : (fun i : Kind × ℕ => (((w.setPool k ((w.pools k).setSlot index slot)).pools i.1).slots i.2).inUse) =
      update (w.handover held taken).used (k, index) slot.inUse := by
    funext i
    by_cases hi : i = (k, index)
    · subst hi
      rw [slots_setSlot_self, update_self]
    · rw [slots_setSlot k index slot i hi, update_of_ne hi, World.handover]
  have hvalue : (w.setPool k ((w.pools k).setSlot index slot)).content =
      update w.content (k, index) ⟨k, k.content slot.value⟩ := by
    funext i
    by_cases hi : i = (k, index)
    · subst hi
      rw [World.content, slots_setSlot_self, update_self]
    · rw [World.content, slots_setSlot k index slot i hi, update_of_ne hi, World.content]
  rw [World.handover, hused, hvalue]
  rfl

/-- A slot is taken or freed. -/
theorem handover_mark {k : Kind} {index : ℕ} {inUse : Bool} :
    (w.setPool k ((w.pools k).mark index inUse)).handover held taken = { w.handover held taken with
      used := update (w.handover held taken).used (k, index) inUse } := by
  rw [Pool.mark, handover_setSlot]
  refine congrArg (fun value => ({ w.handover held taken with
    used := update (w.handover held taken).used (k, index) inUse, value := value } : State ℕ (Kind × ℕ) Item)) ?_
  exact update_eq_self (k, index) w.content

/-- A slot is written. -/
theorem handover_write {k : Kind} {index : ℕ} {value : k.Value} :
    (w.setPool k ((w.pools k).setSlot index { (w.pools k).slots index with value := value })).handover held taken =
      { w.handover held taken with value := update w.content (k, index) ⟨k, k.content value⟩ } := by
  rw [handover_setSlot]
  refine congrArg (fun used => ({ w.handover held taken with
    used := used, value := update w.content (k, index) ⟨k, k.content value⟩ } : State ℕ (Kind × ℕ) Item)) ?_
  exact update_eq_self (k, index) (w.handover held taken).used

/-- A message is sent. -/
theorem handover_send (m : Message) (x : Item) :
    World.handover { w with writeQueue := w.writeQueue ++ [m], accepted := w.accepted ++ [x] } held taken =
      { w.handover held taken with
        line := (w.handover held taken).line ++ [m.place]
        given := (w.handover held taken).given ++ [x.clean] } := by
  simp only [World.handover, List.map_append, List.map_cons, List.map_nil]
  rfl

def keptPlaces (events : List (Message × Item)) : List ((Kind × ℕ) × Item) := events.map fun q => (q.1.place, q.2)

theorem kept_concat (events : List (Message × Item)) (m : Message) (x : Item) :
    keptPlaces (events ++ [(m, x)]) = keptPlaces events ++ [(m.place, x)] := List.map_append

/-- A kept event is found among the places. -/
theorem kept_getElem {events : List (Message × Item)} {position : ℕ} {m : Message} {x : Item}
    (h : events[position]? = some (m, x)) : keptPlaces events =
      keptPlaces (events.take position) ++ (m.place, x) :: keptPlaces (events.drop (position + 1)) ∧
      keptPlaces (events.eraseIdx position) =
        keptPlaces (events.take position) ++ keptPlaces (events.drop (position + 1)) := by
  obtain ⟨hlt, hget⟩ := List.getElem?_eq_some_iff.mp h
  refine ⟨?_, ?_⟩
  · conv_lhs => rw [← List.take_append_drop position events, List.drop_eq_getElem_cons hlt, hget]
    exact List.map_append
  · rw [List.eraseIdx_eq_take_drop_succ]
    exact List.map_append

/-- The places that the storage task holds, and what it was handed, by the operation it is at. -/
def Holds (w : World) (held : List ((Kind × ℕ) × Item)) (taken : List Item) : Prop :=
  match w.task.step with
  | .received m => ∃ x, held = keptPlaces w.task.pendingResetEvents ++ [(m.place, x)] ∧ taken = w.handed ++ [x]
  | .release m => ∃ x, held = keptPlaces w.task.pendingResetEvents ++ [(m.place, x)] ∧ taken = w.handed
  | _ => held = keptPlaces w.task.pendingResetEvents ∧ taken = w.handed

/-- What every run keeps. -/
structure Invariant (w : World) : Prop where
  places : ∃ held taken, Holds w held taken ∧ Inv slotPlaces (w.handover held taken)
  events : ∀ q ∈ w.task.pendingResetEvents, q.1.kind = .event
  sound : w.corruptions = 0

/-! ### The calls give -/

@[simp] theorem hand_acquired (index : Option ℕ) (k : Kind) : (Kind.acquired index k).hand = index := by
  cases k <;> rfl

@[simp] theorem hand_released (k : Kind) : (Kind.released k).hand = none := by
  cases k <;> rfl

theorem ready_acquired (index : Option ℕ) (k : Kind) (source : k.Source) :
    (some (⟨k, source, Kind.acquired index k⟩ : Call)).bind Call.ready = none := by
  cases k <;> rfl

theorem ready_released (k : Kind) (source : k.Source) :
    (some (⟨k, source, Kind.released k⟩ : Call)).bind Call.ready = none := by
  cases k <;> rfl

theorem bind_hand {k : Kind} {source : k.Source} {step : CallStep} :
    (some (⟨k, source, step⟩ : Call)).bind Call.hand = step.hand.map fun index => (k, index) := rfl

theorem calls_lose (k : Kind) : (w.lose k).calls = w.calls := by
  cases k <;> rfl

theorem handover_lose {k : Kind} : (w.lose k).handover held taken = w.handover held taken := by
  cases k <;> rfl

/-- A slot in the hand of a call is one of the pool, and in use. -/
theorem used_of_hand (h : Inv slotPlaces (w.handover held taken)) (hc : w.calls p = some c) {k : Kind} {index : ℕ}
    (hi : c.hand = some (k, index)) : index < Kind.capacity k ∧ ((w.pools k).slots index).inUse = true := by
  have hused := h.used_hand (t := p) (i := (k, index)) (by simp only [World.handover, hc, Option.bind_some, hi])
  exact ⟨h.within _ hused, hused⟩

/-- **A call as a giver.** -/
theorem callStep_handover (h : Inv slotPlaces (w.handover held taken)) (hc : w.calls p = some c) :
    Step slotPlaces (w.handover held taken) ((w.callStep p c spurious).handover held taken) := by
  obtain ⟨k, source, step⟩ := c
  have hhand : (w.calls p).bind Call.hand = step.hand.map fun index => (k, index) := by
    rw [hc, bind_hand]
  have hacquired (index : Option ℕ) (hindex : step.hand = index) : (w.calls p).bind Call.hand =
      (some (⟨k, source, Kind.acquired index k⟩ : Call)).bind Call.hand := by
    rw [hhand, hindex, bind_hand, hand_acquired]
  have hreleased (hnone : step.hand = none) : (w.calls p).bind Call.hand =
      (some (⟨k, source, Kind.released k⟩ : Call)).bind Call.hand := by
    rw [hhand, hnone, bind_hand, hand_released]
  cases step with
  | enabled =>
    simp only [World.callStep]
    split_ifs
    · exact handover_stay rfl rfl hhand rfl
    · exact handover_stay rfl rfl hhand rfl
  | enter => exact handover_stay rfl rfl hhand rfl
  | again =>
    simp only [World.callStep]
    split_ifs
    · exact handover_stay rfl rfl hhand rfl
    · exact handover_stay rfl rfl hhand rfl
  | acquire index =>
    simp only [World.callStep]
    split_ifs with hlt huse
    · exact handover_stay rfl rfl hhand rfl
    · rw [handover_setCall, handover_mark]
      exact .acquire p (k, index) hlt hhand (Bool.eq_false_of_not_eq_true huse)
    · exact handover_stay rfl rfl hhand rfl
  | count index => exact handover_count hhand rfl
  | loadPeak index active => exact handover_stay rfl rfl hhand rfl
  | raisePeak index active peak =>
    simp only [World.callStep]
    split_ifs
    · exact handover_count (hacquired _ rfl) (ready_acquired _ _ _)
    · exact handover_stay rfl rfl hhand rfl
    · exact handover_stay rfl rfl (hacquired _ rfl) (ready_acquired _ _ _)
  | exhaust => exact handover_count (hacquired _ rfl) (ready_acquired _ _ _)
  | identify index second =>
    simp only [World.callStep]
    split_ifs
    · exact handover_stay rfl rfl hhand rfl
    · exact handover_stay rfl rfl hhand rfl
  | assign index =>
    cases index with
    | none => exact handover_stay (calls_lose _) handover_lose hhand rfl
    | some index =>
      simp only [World.callStep]
      split
      · exact handover_stay (calls_lose _) handover_lose hhand rfl
      · next value _ =>
        have hwrite (o : Option Item) (ho : ∀ x, o = some x → (⟨k, k.content (k.assign value source).1⟩ : Item) = x) :
            Step slotPlaces (w.handover held taken) _ := .write p (k, index) _ o hhand ho
        split_ifs with hcomplete hcopied
        · exact handover_stay (calls_lose _) handover_lose hhand rfl
        · rw [handover_hand hhand, handover_write]
          refine hwrite (some (Item.clean ⟨k, source⟩)) fun x hx => ?_
          rw [← Option.some.inj hx, Item.clean, content_assign k hcopied]
        · rw [handover_hand (by rw [calls_lose]; exact hhand), handover_lose, handover_write]
          exact hwrite none fun x hx => nomatch hx
  | send index =>
    have hready : (w.handover held taken).ready p = some (Item.clean ⟨k, source⟩) := by
      simp only [World.handover, hc, Option.bind_some, Call.ready]
    have hgive : Step slotPlaces (w.handover held taken) _ := .give p (k, index) _ hhand hready
    simp only [World.callStep]
    split_ifs
    · cases k with
      | record =>
        rw [handover_setCall, handover_send]
        exact hgive
      | event =>
        rw [handover_setCall, handover_send]
        exact hgive
    · exact handover_stay (calls_lose _) handover_lose hhand rfl
  | release index =>
    cases index with
    | none => exact handover_stay rfl rfl (hreleased rfl) (ready_released _ _)
    | some index =>
      simp only [World.callStep]
      rw [if_pos (used_of_hand h hc rfl), handover_setCall, handover_mark]
      exact .back p (k, index) hhand
  | uncount => exact handover_count (hreleased rfl) (ready_released _ _)
  | leave ending =>
    simp only [World.callStep]
    split_ifs
    · exact handover_stay rfl rfl hhand rfl
    · exact handover_stay rfl rfl hhand rfl
  | drop =>
    cases k with
    | record => exact handover_stay rfl rfl hhand rfl
    | event => exact handover_stay rfl rfl hhand rfl
  | countInterval =>
    cases k with
    | record => exact handover_stay rfl rfl hhand rfl
    | event => exact .stutter
  | loadFirst => exact handover_stay rfl rfl hhand rfl
  | raiseFirst first =>
    cases k with
    | record =>
      simp only [World.callStep]
      split_ifs
      · exact handover_stay rfl rfl hhand rfl
      · exact handover_stay rfl rfl hhand rfl
      · exact handover_stay rfl rfl hhand rfl
    | event => exact .stutter
  | loadLast => exact handover_stay rfl rfl hhand rfl
  | raiseLast last =>
    cases k with
    | record =>
      simp only [World.callStep]
      split_ifs
      · exact handover_stay rfl rfl hhand rfl
      · exact handover_stay rfl rfl hhand rfl
      · exact handover_stay rfl rfl hhand rfl
    | event => exact .stutter

/-- What a call does not touch. -/
def World.storage (w : World) : StorageTask × List Item × List Item × ℕ × ℕ :=
  (w.task, w.handed, w.resumed, w.corruptions, w.settled)

@[simp] theorem storage_setCall (o : Option Call) : (w.setCall p o).storage = w.storage := rfl

@[simp] theorem storage_setPool (k : Kind) (pool : Pool k.Value) : (w.setPool k pool).storage = w.storage := rfl

@[simp] theorem storage_lose (k : Kind) : (w.lose k).storage = w.storage := by
  cases k <;> rfl

theorem callStep_storage : (w.callStep p c spurious).storage = w.storage := by
  obtain ⟨k, source, step⟩ := c
  cases step with
  | assign index =>
    cases index with
    | none => simp [World.callStep]
    | some index =>
      simp only [World.callStep]
      split
      · simp
      · split_ifs <;> simp
  | release index =>
    cases index with
    | none => rfl
    | some index =>
      simp only [World.callStep]
      split_ifs <;> rfl
  | send index =>
    simp only [World.callStep]
    cases k <;> split_ifs <;> rfl
  | _ =>
    cases k <;> simp only [World.callStep] <;> (try split_ifs) <;> rfl

/-! ### The storage task takes -/

/-- A slot of the storage task is found. -/
theorem get_of_held (h : Inv slotPlaces (w.handover held taken)) {m : Message} {x : Item} (hm : (m.place, x) ∈ held) :
    (w.get m.kind m.poolSlot).isSome ∧ w.content m.place = x := by
  have hused := h.used_held (p := (m.place, x)) hm
  refine ⟨?_, h.kept _ hm⟩
  rw [World.get, Pool.get, if_pos ⟨h.within _ hused, hused⟩]
  rfl

/-- The list of kept events has room for one more. -/
theorem kept_length (h : Inv slotPlaces (w.handover held taken))
    (hevents : ∀ q ∈ w.task.pendingResetEvents, q.1.kind = .event) {index : ℕ} {x : Item}
    (hheld : held = keptPlaces w.task.pendingResetEvents ++ [((Kind.event, index), x)]) :
    w.task.pendingResetEvents.length < Kind.capacity .event := by
  have hpart : ∀ q ∈ held, q.1 ∈ ({Kind.event} : Finset Kind) ×ˢ Finset.range (Kind.capacity .event) := by
    intro q hq
    have hwithin : q.1.2 < Kind.capacity q.1.1 := h.within q.1 (h.used_held hq)
    have hkind : q.1.1 = .event := by
      rw [hheld, keptPlaces] at hq
      rcases List.mem_append.mp hq with hq | hq
      · obtain ⟨r, hr, rfl⟩ := List.mem_map.mp hq
        exact hevents r hr
      · rw [List.mem_singleton.mp hq]
    rw [hkind] at hwithin
    exact Finset.mem_product.mpr ⟨Finset.mem_singleton.mpr hkind, Finset.mem_range.mpr hwithin⟩
  have hle : held.length ≤ _ := h.length_held_le hpart
  rw [Finset.card_product, Finset.card_singleton, Finset.card_range, one_mul, hheld, keptPlaces, List.length_append,
    List.length_map] at hle
  exact hle

/-- What was received is handled. -/
theorem handle_invariant {m : Message} {handling : Handling} (hinv : Invariant w) (hm : w.task.step = .received m)
    (hstep : w.handle m handling = some w') : Invariant w' := by
  obtain ⟨⟨held, taken, hold, h⟩, hevents, hsound⟩ := hinv
  rw [Holds, hm] at hold
  obtain ⟨x, hheld, htaken⟩ := hold
  obtain ⟨hget, hx⟩ := get_of_held h (m := m) (x := x) (by rw [hheld]; simp)
  obtain ⟨value, hget⟩ := Option.isSome_iff_exists.mp hget
  rw [← hx] at htaken
  have hrelease (pendingRecord : Option IntervalRecord) : Invariant { w with
      task := { w.task with step := .release m, pendingRecord := pendingRecord }
      handed := w.handed ++ [w.content m.place] } :=
    ⟨⟨held, taken, ⟨x, hheld, htaken⟩, h⟩, hevents, hsound⟩
  obtain ⟨k, index⟩ := m
  cases handling with
  | take =>
    cases k with
    | record =>
      simp only [World.handle, hget, Option.some.injEq] at hstep
      exact hstep ▸ hrelease _
    | event =>
      simp only [World.handle, hget, Option.some.injEq] at hstep
      exact hstep ▸ hrelease _
  | discard =>
    cases k with
    | record =>
      simp only [World.handle, Option.some.injEq] at hstep
      exact hstep ▸ hrelease _
    | event =>
      simp only [World.handle, hget, Option.some.injEq] at hstep
      exact hstep ▸ hrelease _
  | keep =>
    cases k with
    | record => cases hstep
    | event =>
      simp only [World.handle, hget, if_pos (kept_length h hevents hheld), Option.some.injEq] at hstep
      subst hstep
      refine ⟨⟨held, taken, ⟨?_, htaken⟩, h⟩, fun q hq => ?_, hsound⟩
      · rw [hheld, ← hx]
        exact (kept_concat _ _ _).symm
      · rcases List.mem_append.mp hq with hq | hq
        · exact hevents q hq
        · rw [List.mem_singleton.mp hq]

theorem handover_setTask (step : TaskStep) : (w.setTask step).handover held taken = w.handover held taken := rfl

/-- The storage task begins something, handles what it has received, or goes on with what it began. -/
theorem taskStep_cases {action : TaskAction} (hstep : w.taskStep action = some w') :
    (w.task.step = .idle ∧ w.idleStep action = some w') ∨
      (∃ m handling, w.task.step = .received m ∧ w.handle m handling = some w') ∨ w.goStep = some w' := by
  cases action with
  | handle handling =>
    rw [World.taskStep] at hstep
    split at hstep
    · next m hm => exact .inr (.inl ⟨m, handling, hm, hstep⟩)
    · cases hstep
  | go => exact .inr (.inr hstep)
  | _ =>
    simp only [World.taskStep] at hstep
    split_ifs at hstep with hidle
    exact .inl ⟨hidle, hstep⟩

theorem idleStep_invariant {action : TaskAction} (hinv : Invariant w) (hm : w.task.step = .idle)
    (hstep : w.idleStep action = some w') : Invariant w' := by
  obtain ⟨⟨held, taken, hold, h⟩, hevents, hsound⟩ := id hinv
  rw [Holds] at hold
  simp only [hm] at hold
  obtain ⟨rfl, rfl⟩ := hold
  cases action with
  | receive =>
    simp only [World.idleStep] at hstep
    split at hstep
    · next m writeQueue hrecord hqueue =>
      rw [Option.some.injEq] at hstep
      subst hstep
      have hline : (w.handover (keptPlaces w.task.pendingResetEvents) w.handed).line =
          m.place :: writeQueue.map Message.place := by
        rw [World.handover, hqueue, List.map_cons]
      exact ⟨⟨_, _, ⟨w.content m.place, rfl, rfl⟩, (Step.take m.place _ hline).inv h⟩, hevents, hsound⟩
    · cases hstep
  | resume position =>
    simp only [World.idleStep] at hstep
    split at hstep
    · cases hstep
    · next m x hfound =>
      obtain ⟨hkept, herase⟩ := kept_getElem hfound
      have hmem : (m.place, x) ∈ keptPlaces w.task.pendingResetEvents := by
        rw [hkept]
        exact List.mem_append_right _ List.mem_cons_self
      obtain ⟨value, hget⟩ := Option.isSome_iff_exists.mp (get_of_held h hmem).1
      simp only [hget, Option.some.injEq] at hstep
      subst hstep
      have hfree := (Step.free (m.place, x) _ _ hkept).inv h
      have hplaces : Inv slotPlaces ((w.setPool m.kind ((w.pools m.kind).mark m.poolSlot false)).handover
          (keptPlaces (w.task.pendingResetEvents.eraseIdx position)) w.handed) := by
        rw [handover_mark, herase]
        exact hfree
      exact ⟨⟨_, _, ⟨rfl, rfl⟩, hplaces⟩, fun q hq => hevents q (List.mem_of_mem_eraseIdx hq), hsound⟩
  | settleRecord =>
    simp only [World.idleStep] at hstep
    split at hstep
    · rw [Option.some.injEq] at hstep
      subst hstep
      refine ⟨⟨_, _, ?_, h⟩, hevents, hsound⟩
      simp only [Holds, hm, and_self]
    · cases hstep
  | collect =>
    simp only [World.idleStep] at hstep
    split_ifs at hstep with hzero
    · exact Option.some.inj hstep ▸ hinv
    · exact Option.some.inj hstep ▸ ⟨⟨_, _, ⟨rfl, rfl⟩, h⟩, hevents, hsound⟩
  | reserve =>
    simp only [World.idleStep] at hstep
    split_ifs at hstep with hpos
    rw [Option.some.injEq] at hstep
    subst hstep
    refine ⟨⟨_, _, ?_, h⟩, hevents, hsound⟩
    simp only [Holds, hm, and_self]
  | purge =>
    simp only [World.idleStep, Option.some.injEq] at hstep
    exact hstep ▸ ⟨⟨_, _, ⟨rfl, rfl⟩, h⟩, hevents, hsound⟩
  | handle handling => simp only [World.idleStep, reduceCtorEq] at hstep
  | go => simp only [World.idleStep, reduceCtorEq] at hstep

theorem goStep_invariant (hinv : Invariant w) (hstep : w.goStep = some w') : Invariant w' := by
  obtain ⟨⟨held, taken, hold, h⟩, hevents, hsound⟩ := id hinv
  rw [Holds] at hold
  cases hm : w.task.step with
  | release m =>
    simp only [World.goStep, hm] at hstep
    simp only [hm] at hold
    obtain ⟨x, hheld, htaken⟩ := hold
    have hused := h.used_held (p := (m.place, x)) (by rw [World.handover, hheld]; simp)
    rw [if_pos ⟨h.within _ hused, hused⟩, Option.some.injEq] at hstep
    subst hstep
    refine ⟨⟨keptPlaces w.task.pendingResetEvents, taken, ⟨rfl, htaken⟩, ?_⟩, hevents, hsound⟩
    have hfree := (Step.free (m.place, x) _ [] hheld).inv h
    rw [List.append_nil] at hfree
    rw [handover_setTask, handover_mark]
    exact hfree
  | uncount k =>
    simp only [World.goStep, hm, Option.some.injEq] at hstep
    subst hstep
    simp only [hm] at hold
    refine ⟨⟨held, taken, hold, ?_⟩, hevents, hsound⟩
    rw [handover_setTask, handover_counters]
    exact h
  | _ =>
    simp only [World.goStep, hm, reduceCtorEq, Option.some.injEq] at hstep
    try
      simp only [hm] at hold
      exact hstep ▸ ⟨⟨_, _, hold, h⟩, hevents, hsound⟩

/-- **The storage task as the taker.** -/
theorem taskStep_invariant {action : TaskAction} (hinv : Invariant w) (hstep : w.taskStep action = some w') :
    Invariant w' := by
  obtain ⟨hm, hstep⟩ | ⟨m, handling, hm, hstep⟩ | hstep := taskStep_cases hstep
  · exact idleStep_invariant hinv hm hstep
  · exact handle_invariant hinv hm hstep
  · exact goStep_invariant hinv hstep

/-- **What one step keeps.** -/
theorem Invariant.step {action : Action} (hinv : Invariant w) (hstep : w.step action = some w') : Invariant w' := by
  obtain ⟨⟨held, taken, hold, h⟩, hevents, hsound⟩ := id hinv
  -- a call begins with nothing in its hand
  have hbegin (p : ℕ) (c : Call) (hnone : w.calls p = none) (hhand : c.hand = none)
      (hready : (some c).bind Call.ready = none) : Invariant (w.setCall p (some c)) :=
    ⟨⟨held, taken, hold, (handover_stay rfl rfl (by rw [hnone, Option.bind_some, hhand]; rfl) hready).inv h⟩,
      hevents, hsound⟩
  cases action with
  | enqueueRecord p record =>
    simp only [World.step] at hstep
    split at hstep
    · next hnone => exact Option.some.inj hstep ▸ hbegin p _ hnone rfl rfl
    · cases hstep
  | enqueueEvent p event =>
    simp only [World.step] at hstep
    split at hstep
    · next hnone => exact Option.some.inj hstep ▸ hbegin p _ hnone rfl rfl
    · cases hstep
  | go p spurious =>
    simp only [World.step, Option.map_eq_some_iff] at hstep
    obtain ⟨c, hc, rfl⟩ := hstep
    have hstorage : (w.callStep p c spurious).storage = w.storage := callStep_storage
    simp only [World.storage, Prod.mk.injEq] at hstorage
    obtain ⟨htask, hhanded, -, hcorruptions, -⟩ := hstorage
    refine ⟨⟨held, taken, ?_, (callStep_handover h hc).inv h⟩, htask ▸ hevents, hcorruptions ▸ hsound⟩
    rw [Holds, htask, hhanded]
    exact hold
  | setRecordWritesEnabled enabled => exact Option.some.inj hstep ▸ ⟨⟨held, taken, hold, h⟩, hevents, hsound⟩
  | storage action => exact taskStep_invariant hinv hstep

theorem Reached.invariant (h : Reached w) : Invariant w := by
  induction h with
  | start => exact ⟨⟨[], [], ⟨rfl, rfl⟩, inv_initial⟩, nofun, rfl⟩
  | step _ action hstep ih => exact ih.step hstep

/-! ### What was handed over -/

/-- **Handed over in order**: what the storage task read and what is waiting for it is what was accepted, each once and
as it was copied. -/
theorem handed_in_order (h : Reached w) : w.handed ++ w.waiting = w.accepted.map Item.clean := by
  obtain ⟨⟨held, taken, hold, hinv⟩, -, -⟩ := h.invariant
  have horder : w.accepted.map Item.clean = taken ++ w.writeQueue.map fun m => w.content m.place := by
    rw [show w.accepted.map Item.clean = _ from hinv.order]
    exact congrArg (taken ++ ·) List.map_map
  rw [Holds] at hold
  rw [horder, World.waiting, ← List.append_assoc]
  congr 1
  cases hm : w.task.step with
  | received m =>
    simp only [hm] at hold
    obtain ⟨x, hheld, rfl⟩ := hold
    have hx : w.content m.place = x := (get_of_held hinv (by rw [hheld]; simp)).2
    exact congrArg (fun y => w.handed ++ [y]) hx
  | release m =>
    simp only [hm] at hold
    obtain ⟨x, hheld, rfl⟩ := hold
    exact List.append_nil _
  | _ =>
    simp only [hm] at hold
    rw [hold.2]
    exact List.append_nil _

theorem handed_in_order_kept :
    ∃ w, Reached w ∧ w.handed.length = 1 ∧ w.handed ++ w.waiting = w.accepted.map Item.clean := by
  obtain ⟨w, h, -, hhanded, -⟩ := reached_keptEvent
  exact ⟨w, h, hhanded, handed_in_order h⟩

/-- **Every slot has one owner**: the storage task finds what it received, and has room for every event it keeps. -/
theorem slots_owned (h : Reached w) : w.corruptions = 0 := h.invariant.sound

theorem slots_owned_kept : ∃ w, Reached w ∧ w.keptItems.length = 1 ∧ w.corruptions = 0 := by
  obtain ⟨w, h, -, -, hkept, -⟩ := reached_keptEvent
  exact ⟨w, h, hkept, slots_owned h⟩

/-- A step keeps what it reads, or keeps no more than before. -/
def Keeping (w w' : World) : Prop :=
  (w'.keptItems.Perm w.keptItems ∧ w.handed.Sublist w'.handed) ∨
    ∃ x, w'.keptItems = w.keptItems ++ [x] ∧ w'.handed = w.handed ++ [x]

theorem Keeping.same (hkept : w'.keptItems = w.keptItems) (items : List Item)
    (hhanded : w'.handed = w.handed ++ items) :
    Keeping w w' := by
  refine Or.inl ⟨by rw [hkept], ?_⟩
  rw [hhanded]
  exact List.sublist_append_left _ _

theorem owing_ne_lowered (o : Option Call) : owing o ≠ .lowered := by
  unfold owing
  split <;> decide

/-- What a step of a call does to the count. -/
inductive Counted (w : World) (p : ℕ) (w' : World) : Prop
  | same (o : Option Call) (hcalls : w'.calls = update w.calls p o) (hlost : w'.lost = w.lost)
      (hcount : w'.droppedRecordIntervals = w.droppedRecordIntervals) (ho : owing o = owing (w.calls p))
  | lose (o : Option Call) (hcalls : w'.calls = update w.calls p o) (hlost : w'.lost = w.lost + 1)
      (hcount : w'.droppedRecordIntervals = w.droppedRecordIntervals) (hbefore : owing (w.calls p) = .even)
      (hafter : owing o = .raised)
  | count (o : Option Call) (hcalls : w'.calls = update w.calls p o) (hlost : w'.lost = w.lost)
      (hcount : w'.droppedRecordIntervals = w.droppedRecordIntervals + 1) (hbefore : owing (w.calls p) = .raised)
      (hafter : owing o = .even)

theorem callStep_counted (hc : w.calls p = some c) : Counted w p (w.callStep p c spurious) := by
  have hsame {w' : World} {o : Option Call} (hcalls : w'.calls = w.calls) (hlost : w'.lost = w.lost)
      (hcount : w'.droppedRecordIntervals = w.droppedRecordIntervals) (ho : owing o = owing (some c)) :
      Counted w p (w'.setCall p o) :=
    .same o (by rw [World.setCall, hcalls]) hlost hcount (by rw [hc, ho])
  -- a record that is lost
  have hlose {w' : World} {o : Option Call} (hcalls : w'.calls = w.calls) (hlost : w'.lost = w.lost)
      (hcount : w'.droppedRecordIntervals = w.droppedRecordIntervals) (hbefore : owing (some c) = .even)
      (hafter : owing o = .raised) : Counted w p ((w'.lose .record).setCall p o) :=
    .lose o (by rw [World.setCall, calls_lose, hcalls]) (congrArg (· + 1) hlost) hcount (by rw [hc, hbefore]) hafter
  have hstay : Counted w p w := .same (w.calls p) (update_eq_self ..).symm rfl rfl rfl
  obtain ⟨k, source, step⟩ := c
  cases k with
  | event =>
    cases step with
    | assign index =>
      cases index with
      | none => exact hsame rfl rfl rfl rfl
      | some index =>
        simp only [World.callStep]
        split
        · exact hsame rfl rfl rfl rfl
        · split_ifs <;> exact hsame rfl rfl rfl rfl
    | release index =>
      cases index with
      | none => exact hsame rfl rfl rfl rfl
      | some index =>
        simp only [World.callStep]
        split_ifs <;> exact hsame rfl rfl rfl rfl
    | countInterval => exact hstay
    | raiseFirst first => exact hstay
    | raiseLast last => exact hstay
    | leave ending =>
      simp only [World.callStep]
      split_ifs <;> exact hsame rfl rfl rfl rfl
    | _ =>
      simp only [World.callStep]
      (try split_ifs) <;> exact hsame rfl rfl rfl rfl
  | record =>
    cases step with
    | assign index =>
      cases index with
      | none => exact hlose rfl rfl rfl rfl rfl
      | some index =>
        simp only [World.callStep]
        split
        · exact hlose rfl rfl rfl rfl rfl
        · split_ifs
          · exact hlose rfl rfl rfl rfl rfl
          · exact hsame rfl rfl rfl rfl
          · exact hlose rfl rfl rfl rfl rfl
    | send index =>
      simp only [World.callStep]
      split_ifs
      · exact hsame rfl rfl rfl rfl
      · exact hlose rfl rfl rfl rfl rfl
    | release index =>
      cases index with
      | none => exact hsame rfl rfl rfl rfl
      | some index =>
        simp only [World.callStep]
        split_ifs <;> exact hsame rfl rfl rfl rfl
    | leave ending =>
      cases ending <;> exact hsame rfl rfl rfl rfl
    | countInterval => exact .count _ rfl rfl rfl (by rw [hc]; rfl) rfl
    | _ =>
      simp only [World.callStep]
      (try split_ifs) <;> exact hsame rfl rfl rfl rfl

theorem handle_unavailable {m : Message} {handling : Handling} (hm : w.task.step = .received m)
    (hstep : w.handle m handling = some w') :
    w'.unavailable = w.unavailable ∧ w'.lost = w.lost ∧ w'.calls = w.calls := by
  obtain ⟨k, index⟩ := m
  cases handling <;> cases k <;> simp only [World.handle, reduceCtorEq] at hstep
  case discard.record => exact Option.some.inj hstep ▸ ⟨by simp only [World.unavailable, hm]; rfl, rfl, rfl⟩
  case keep.event =>
    split at hstep
    · exact Option.some.inj hstep ▸ ⟨by simp only [World.unavailable, hm]; rfl, rfl, rfl⟩
    · split_ifs at hstep
      · exact Option.some.inj hstep ▸ ⟨by simp only [World.unavailable, hm]; rfl, rfl, rfl⟩
      · exact Option.some.inj hstep ▸ ⟨by simp only [World.unavailable, hm]; rfl, rfl, rfl⟩
  all_goals
    split at hstep
    · exact Option.some.inj hstep ▸ ⟨by simp only [World.unavailable, hm]; rfl, rfl, rfl⟩
    · exact Option.some.inj hstep ▸ ⟨by simp only [World.unavailable, hm]; rfl, rfl, rfl⟩

theorem idleStep_unavailable {action : TaskAction} (hm : w.task.step = .idle)
    (hstep : w.idleStep action = some w') :
    w'.unavailable ≡ w.unavailable [MOD 2 ^ 64] ∧ w'.lost = w.lost ∧ w'.calls = w.calls := by
  cases action with
  | collect =>
    simp only [World.idleStep] at hstep
    split_ifs at hstep
    · exact Option.some.inj hstep ▸ ⟨rfl, rfl, rfl⟩
    · refine Option.some.inj hstep ▸ ⟨?_, rfl, rfl⟩
      simp only [World.unavailable, World.setTask, hm, TaskStep.collecting, UInt64.toNat_zero, Nat.add_zero]
      rfl
  | reserve =>
    simp only [World.idleStep] at hstep
    split_ifs at hstep
    refine Option.some.inj hstep ▸ ⟨?_, rfl, rfl⟩
    simp only [World.unavailable, hm, TaskStep.collecting, UInt64.toNat_zero, Nat.add_zero]
    rfl
  | purge =>
    simp only [World.idleStep] at hstep
    refine Option.some.inj hstep ▸ ⟨?_, rfl, rfl⟩
    simp only [World.unavailable, hm, TaskStep.collecting, UInt64.toNat_zero, Nat.add_zero]
    rfl
  | receive =>
    simp only [World.idleStep] at hstep
    split at hstep
    · exact Option.some.inj hstep ▸ ⟨by simp only [World.unavailable, hm]; rfl, rfl, rfl⟩
    · cases hstep
  | settleRecord =>
    simp only [World.idleStep] at hstep
    split at hstep
    · exact Option.some.inj hstep ▸ ⟨by simp only [World.unavailable, hm]; rfl, rfl, rfl⟩
    · cases hstep
  | resume position =>
    simp only [World.idleStep] at hstep
    split at hstep
    · cases hstep
    · split at hstep
      · exact Option.some.inj hstep ▸ ⟨by simp only [World.unavailable, hm]; rfl, rfl, rfl⟩
      · exact Option.some.inj hstep ▸ ⟨by simp only [World.unavailable, hm]; rfl, rfl, rfl⟩
  | handle handling => simp only [World.idleStep, reduceCtorEq] at hstep
  | go => simp only [World.idleStep, reduceCtorEq] at hstep

theorem goStep_unavailable (hstep : w.goStep = some w') :
    w'.unavailable ≡ w.unavailable [MOD 2 ^ 64] ∧ w'.lost = w.lost ∧ w'.calls = w.calls := by
  cases hm : w.task.step with
  | release m =>
    simp only [World.goStep, hm] at hstep
    split_ifs at hstep
    · exact Option.some.inj hstep ▸ ⟨by simp only [World.unavailable, hm]; rfl, rfl, rfl⟩
    · exact Option.some.inj hstep ▸ ⟨by simp only [World.unavailable, hm]; rfl, rfl, rfl⟩
  | collectLast count first =>
    simp only [World.goStep, hm, Option.some.injEq] at hstep
    subst hstep
    refine ⟨?_, rfl, rfl⟩
    simp only [World.unavailable, TaskStep.collecting, hm, UInt64.toNat_add, Nat.add_zero]
    refine Nat.ModEq.add_right _ ?_
    rw [Nat.add_assoc]
    exact Nat.ModEq.add_left _ (Nat.mod_modEq _ _)
  | _ =>
    simp only [World.goStep, hm, reduceCtorEq, Option.some.injEq] at hstep
    try exact hstep ▸ ⟨by simp only [World.unavailable, hm]; rfl, rfl, rfl⟩

/-- The storage task moves the count on. -/
theorem taskStep_unavailable {action : TaskAction} (hstep : w.taskStep action = some w') :
    w'.unavailable ≡ w.unavailable [MOD 2 ^ 64] ∧ w'.lost = w.lost ∧ w'.calls = w.calls := by
  obtain ⟨hm, hstep⟩ | ⟨m, handling, hm, hstep⟩ | hstep := taskStep_cases hstep
  · exact idleStep_unavailable hm hstep
  · obtain ⟨hsame, hlost, hcalls⟩ := handle_unavailable hm hstep
    exact ⟨by rw [hsame], hlost, hcalls⟩
  · exact goStep_unavailable hstep

/-- The lost records as a number that the count of the unavailable intervals follows. -/
def World.losses (w : World) (count : ℤ) : Tally.State ℕ := ⟨w.lost, count, fun p => owing (w.calls p)⟩

theorem owing_update (o : Option Call) :
    (fun q => owing (update w.calls p o q)) = update (fun q => owing (w.calls q)) p (owing o) := by
  funext q
  by_cases hq : q = p
  · subst hq
    simp only [update_self]
  · simp only [update_of_ne hq]

/-- **The count follows the losses.** -/
theorem losses_step {action : Action} {count : ℤ} (hstep : w.step action = some w') (h : Tally.Inv (w.losses count))
    (hcount : (w.unavailable : ℤ) ≡ count [ZMOD 2 ^ 64]) :
    ∃ count', Tally.Inv (w'.losses count') ∧ (w'.unavailable : ℤ) ≡ count' [ZMOD 2 ^ 64] := by
  -- a call begins with nothing to count
  have hbegin (p : ℕ) (c : Call) (hnone : w.calls p = none) (hc : owing (some c) = .even) :
      (w.setCall p (some c)).losses count = w.losses count := by
    have hsame : update (fun q => owing (w.calls q)) p .even = fun q => owing (w.calls q) :=
      update_eq_self_iff.mpr (by rw [hnone]; rfl)
    rw [World.losses, World.setCall, owing_update, hc, hsame]
    rfl
  cases action with
  | enqueueRecord p record =>
    simp only [World.step] at hstep
    split at hstep
    · next hnone =>
      rw [← hbegin p ⟨.record, record, .enabled⟩ hnone rfl] at h
      exact ⟨count, Option.some.inj hstep ▸ h, Option.some.inj hstep ▸ hcount⟩
    · cases hstep
  | enqueueEvent p event =>
    simp only [World.step] at hstep
    split at hstep
    · next hnone =>
      rw [← hbegin p ⟨.event, event, .acquire 0⟩ hnone rfl] at h
      exact ⟨count, Option.some.inj hstep ▸ h, Option.some.inj hstep ▸ hcount⟩
    · cases hstep
  | go p spurious =>
    simp only [World.step, Option.map_eq_some_iff] at hstep
    obtain ⟨c, hc, rfl⟩ := hstep
    have hstorage : (w.callStep p c spurious).storage = w.storage := callStep_storage
    simp only [World.storage, Prod.mk.injEq] at hstorage
    obtain ⟨htask, -, -, -, hsettled⟩ := hstorage
    have hcounted : Counted w p (w.callStep p c spurious) := callStep_counted hc
    cases hcounted with
    | same o hcalls hlost hsame ho =>
      refine ⟨count, ?_, ?_⟩
      · rw [World.losses, hcalls, owing_update, ho, hlost, update_eq_self]
        exact h
      · rw [World.unavailable, hsettled, htask, hsame]
        exact hcount
    | lose o hcalls hlost hsame hbefore hafter =>
      refine ⟨count, ?_, ?_⟩
      · rw [World.losses, hcalls, owing_update, hafter, hlost]
        exact (Tally.Step.raise p hbefore).inv h
      · rw [World.unavailable, hsettled, htask, hsame]
        exact hcount
    | count o hcalls hlost hsame hbefore hafter =>
      refine ⟨count + 1, ?_, ?_⟩
      · rw [World.losses, hcalls, owing_update, hafter, hlost]
        exact (Tally.Step.countUp p hbefore).inv h
      · have hnext : (w.callStep p c spurious).unavailable ≡ w.unavailable + 1 [MOD 2 ^ 64] := by
          rw [World.unavailable, hsettled, htask, hsame, UInt64.toNat_add, UInt64.toNat_one, World.unavailable,
            Nat.add_assoc _ _ 1]
          exact Nat.ModEq.add_left _ (Nat.mod_modEq _ _)
        refine (Int.natCast_modEq_iff.mpr hnext).trans ?_
        push_cast
        exact hcount.add_right 1
  | setRecordWritesEnabled enabled => exact ⟨count, Option.some.inj hstep ▸ h, Option.some.inj hstep ▸ hcount⟩
  | storage action =>
    obtain ⟨hsame, hlost, hcalls⟩ := taskStep_unavailable hstep
    refine ⟨count, ?_, ?_⟩
    · rw [World.losses, hlost, hcalls]
      exact h
    · exact ((Int.natCast_modEq_iff).mpr hsame).trans hcount

/-- **Every lost record is counted as an unavailable interval**, once its call has counted it. -/
theorem intervals_accounted (h : Reached w) :
    w.unavailable + {p | owing (w.calls p) = .raised}.ncard ≡ w.lost [MOD 2 ^ 64] := by
  have hcounted : ∃ count, Tally.Inv (w.losses count) ∧ (w.unavailable : ℤ) ≡ count [ZMOD 2 ^ 64] := by
    induction h with
    | start => exact ⟨0, Tally.inv_initial, rfl⟩
    | step _ action hstep ih =>
      obtain ⟨count, hinv, hcount⟩ := ih
      exact losses_step hstep hinv hcount
  obtain ⟨count, hinv, hcount⟩ := hcounted
  have hlowered : Tally.owing (w.losses count) .lowered = ∅ :=
    Set.eq_empty_of_forall_notMem fun p hp => owing_ne_lowered (w.calls p) hp
  have heven := hinv.count
  rw [hlowered, Set.ncard_empty, Nat.cast_zero, add_zero] at heven
  refine Int.natCast_modEq_iff.mp ?_
  rw [Nat.cast_add, show (w.lost : ℤ) = _ from heven.symm]
  exact hcount.add_right _

theorem intervals_accounted_lost : ∃ w, Reached w ∧ w.lost = 1 ∧
    w.unavailable + {p | owing (w.calls p) = .raised}.ncard ≡ w.lost [MOD 2 ^ 64] := by
  obtain ⟨w, h, -, -, -, hlost, -⟩ := reached_keptEvent
  exact ⟨w, h, hlost, intervals_accounted h⟩

end PowerMonitor.Storage.WriteQueue
