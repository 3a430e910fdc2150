import PowerMonitor.Lib.Ticks
import Mathlib.Algebra.Group.Nat.Defs
import Mathlib.Data.Nat.Basic
import Mathlib.Logic.Function.Iterate

/-! # When the synchronising task does what

The task looks at its clock, at the network and at the configuration every so often (`tick`), and does one thing: it
enrolls, sends a heartbeat, sends a page of readings or of events, asks for its configuration or for firmware. What
became of it says when it does what next. A configuration that changes the network is staged: it must prove itself
within thirty seconds, or the one before it returns.

* `retry_after_respected`: the server is left alone for as long as it asked.
* `backoff_respected`: after the `n`-th failure in a row it is left alone for a time that doubles with `n`.
* `heartbeat_attempted`: a device that reaches the network sends a heartbeat, whatever else there is to do.
* `staged_resolved`: every staged configuration is confirmed, superseded or taken back, and once only. -/

namespace PowerMonitor.Network.SyncSchedule

open PowerMonitor.Lib.Ticks

/-! ### What the task sees and keeps -/

inductive ConnectionMode
  | pull | push | hybrid
  deriving DecidableEq, Repr

/-- What became of a request: the server accepted it, it was deferred for want of local resources, or it failed, with
the time for which the server asked to be left alone, or zero. -/
inductive Contact (α : Type)
  | accepted (answer : α)
  | deferred
  | failed (retryAfterMs : ℕ)

structure HeartbeatAnswer where
  immediateSyncRequested : Bool
  firmwareReleaseAvailable : Bool
  recommendedHeartbeatIntervalSeconds : ℕ
  acknowledgement : ℕ
  newestSequence : ℕ
  cursorRegressed : Bool
  resetCursorFrozen : Bool

/-- What became of a page: it is being read, it failed, it was deferred, it was sent or was empty, or a reset closed the
gate before it. -/
inductive PageOutcome
  | waiting
  | failed (retryAfterMs : ℕ)
  | deferred
  | finished
  | gated

/-- A configuration that changes the network, its generation in the store, and when it was staged. -/
structure Staged where
  version : ℕ
  generation : ℕ
  startedMs : ℕ
  deriving DecidableEq, Repr

/-- What one look of the task finds, and what becomes of what it does; `later` is the clock when that is done. -/
structure Tick where
  now : ℕ
  later : ℕ
  activationPending : Bool
  rebootQueued : Bool
  dataResetFrozen : Bool
  serverAckSequence : ℕ
  newestSyncableSequence : ℕ
  reenrollmentGeneration : ℕ
  immediateSyncPending : Bool
  stationConnected : Bool
  synchronized : Bool
  serverConfigured : Bool
  connectionMode : ConnectionMode
  persistentGeneration : ℕ
  heartbeatIntervalSeconds : ℕ
  syncIntervalSeconds : ℕ
  syncRetryMaxSeconds : ℕ
  enrolled : Bool
  hasEnrollmentToken : Bool
  safeMode : Bool
  random : ℕ
  appliedReportRecorded : Bool
  rollbackRestored : Bool
  rolledBackReportRecorded : Bool
  enrollment : Contact Unit
  heartbeat : Contact HeartbeatAnswer
  readings : PageOutcome
  fetched : Option (ℕ × ℕ)
  pollDeferred : Bool
  events : PageOutcome

/-- What the task keeps between two looks. -/
structure Sync where
  enrollmentActivationRebootQueued : Bool := false
  nextEnrollmentActivationRebootMs : ℕ := 0
  dataResetGateObserved : Bool := false
  observedReenrollmentGeneration : ℕ := 0
  readingPageJob : Bool := false
  eventPageJob : Bool := false
  retryAttempt : ℕ := 0
  readingRetryAttempt : ℕ := 0
  eventRetryAttempt : ℕ := 0
  nextHeartbeatMs : ℕ := 0
  nextRetryMs : ℕ := 0
  retryAfterGateMs : ℕ := 0
  nextConfigPollMs : ℕ := 0
  nextManifestPollMs : ℕ := 0
  nextReadingPushMs : ℕ := 0
  nextEventPushMs : ℕ := 0
  heartbeatIntervalOverrideSeconds : ℕ := 0
  immediateSync : Bool := false
  immediateSyncReleaseRecorded : Bool := false
  lastImmediateSyncReleaseAck : ℕ := 0
  pendingConfigValidation : Bool := false
  pendingConfig : Staged := ⟨0, 0, 0⟩
  nextConfigValidationAttemptMs : ℕ := 0
  pendingConfigRollbackReport : Bool := false
  pendingConfigReportDetail : String := "post_apply_connectivity_failed"

/-- What the task does. -/
inductive Event
  | reboot (queued : Bool)
  | appliedReport (config : Staged) (now : ℕ) (recorded : Bool)
  | superseded (config : Staged) (currentGeneration : ℕ)
  | rollback (config : Staged) (now : ℕ) (restored : Bool)
  | rolledBackReport (version : ℕ) (detail : String) (recorded : Bool)
  | enrollment (result : Contact Unit)
  | heartbeat (result : Contact HeartbeatAnswer)
  | readings (outcome : PageOutcome)
  | configuration (staged : Option Staged)
  | manifest
  | events (outcome : PageOutcome)

/-! ### Delays -/

def kLocalResourceRetryMs : ℕ := 5000

/-- The configured limit of a delay, as the task reads it. -/
def maximumDelayMs (syncRetryMaxSeconds : ℕ) : ℕ :=
  min (max (syncRetryMaxSeconds * 1000) 1000) (2 ^ 32 - 1)

def nextAttempt (attempt : ℕ) : ℕ := if attempt = 2 ^ 32 - 1 then attempt else attempt + 1

/-- How long to wait after an attempt; `retryDelayMs` and `operationRetryDelayMs` compute the same. -/
def retryDelayMs (syncRetryMaxSeconds attempt retryAfterMs random : ℕ) : ℕ :=
  let maximum := maximumDelayMs syncRetryMaxSeconds
  if retryAfterMs ≠ 0 then retryAfterMs
  else
    let base := min (1000 * 2 ^ min attempt 10) maximum
    let jitterCeiling := min (base / 5) (maximum - base)
    (base + random % (jitterCeiling + 1)) % 2 ^ 32

def heartbeatDelayMs (heartbeatIntervalSeconds overrideSeconds random : ℕ) : ℕ :=
  let seconds := if overrideSeconds = 0 then heartbeatIntervalSeconds else overrideSeconds
  let base := seconds * 1000 % 2 ^ 32
  (base + random % (base / 10 + 1)) % 2 ^ 32

def manifestPollDeadline (firmwareReleaseAvailable : Bool) (currentDeadlineMs nowMs : ℕ) : ℕ :=
  if firmwareReleaseAvailable ∧ currentDeadlineMs > nowMs then nowMs else currentDeadlineMs

def shouldReleaseReadingBackoff (immediateSyncRequested : Bool) (acknowledgement newestStoredSequence : ℕ)
    (previousReleaseRecorded : Bool) (previousReleaseAcknowledgement : ℕ) : Bool :=
  immediateSyncRequested && acknowledgement < newestStoredSequence &&
    (!previousReleaseRecorded || acknowledgement ≠ previousReleaseAcknowledgement)

def secondaryOperationsAllowed (durableReadingBacklog : Bool) : Bool := !durableReadingBacklog

def shouldScheduleEventIdleDelay (operationSucceeded pageJobPending : Bool) : Bool :=
  operationSucceeded && !pageJobPending

theorem maximumDelayMs_le {seconds : ℕ} (h : seconds ≤ 86400) : maximumDelayMs seconds ≤ 86400000 := by
  unfold maximumDelayMs
  omega

/-- No sum of a delay overflows: it is the base and the jitter, and stays below the limit. -/
theorem retryDelayMs_of_zero (seconds attempt random : ℕ) :
    min (1000 * 2 ^ min attempt 10) (maximumDelayMs seconds) ≤ retryDelayMs seconds attempt 0 random ∧
      retryDelayMs seconds attempt 0 random ≤ maximumDelayMs seconds := by
  have hlimit : maximumDelayMs seconds < 2 ^ 32 := by
    unfold maximumDelayMs
    omega
  have hbase : min (1000 * 2 ^ min attempt 10) (maximumDelayMs seconds) ≤ maximumDelayMs seconds := Nat.min_le_right _ _
  unfold retryDelayMs
  simp only [ne_eq, not_true_eq_false, if_false]
  generalize maximumDelayMs seconds = maximum at *
  generalize min (1000 * 2 ^ min attempt 10) maximum = base at *
  have hjitter : random % (min (base / 5) (maximum - base) + 1) ≤ maximum - base := by
    have hmod : random % (min (base / 5) (maximum - base) + 1) < min (base / 5) (maximum - base) + 1 :=
      Nat.mod_lt _ (by omega)
    omega
  rw [Nat.mod_eq_of_lt (by omega)]
  omega

theorem retryDelayMs_of_ne_zero {retryAfterMs : ℕ} (h : retryAfterMs ≠ 0) (seconds attempt random : ℕ) :
    retryDelayMs seconds attempt retryAfterMs random = retryAfterMs := if_pos h

theorem heartbeatDelayMs_le {interval overriding : ℕ} (hinterval : interval ≤ 3600) (hoverriding : overriding ≤ 3600)
    (random : ℕ) : heartbeatDelayMs interval overriding random ≤ 3960000 := by
  unfold heartbeatDelayMs
  generalize hseconds : (if overriding = 0 then interval else overriding) = seconds
  have hle : seconds ≤ 3600 := by
    split_ifs at hseconds <;> omega
  have hbase : seconds * 1000 % 2 ^ 32 = seconds * 1000 := Nat.mod_eq_of_lt (by omega)
  have hjitter : random % (seconds * 1000 / 10 + 1) < seconds * 1000 / 10 + 1 := Nat.mod_lt _ (by omega)
  simp only [hbase]
  rw [Nat.mod_eq_of_lt (by omega)]
  omega

/-! ### One look -/

/-- While an enrollment waits for its restart, the restart is all that is asked for. -/
def activate (e : Tick) (s : Sync) : Sync × List Event :=
  if !s.enrollmentActivationRebootQueued || e.now ≥ s.nextEnrollmentActivationRebootMs then
    ({ s with
        enrollmentActivationRebootQueued := e.rebootQueued
        nextEnrollmentActivationRebootMs := e.now + 5000 }, [.reboot e.rebootQueued])
  else (s, [])

/-- The gate that a reset closes before the readings. -/
def observeDataReset (e : Tick) (s : Sync) : Sync :=
  if e.dataResetFrozen && !s.dataResetGateObserved then
    { s with dataResetGateObserved := true, readingPageJob := false }
  else if !e.dataResetFrozen && s.dataResetGateObserved then
    { s with dataResetGateObserved := false, nextReadingPushMs := 0 }
  else s

def observeReenrollment (e : Tick) (s : Sync) : Sync :=
  if e.reenrollmentGeneration ≠ s.observedReenrollmentGeneration then
    { s with
      observedReenrollmentGeneration := e.reenrollmentGeneration
      retryAttempt := 0
      readingRetryAttempt := 0
      eventRetryAttempt := 0
      nextHeartbeatMs := 0
      nextConfigPollMs := 0
      nextManifestPollMs := 0
      nextReadingPushMs := 0
      nextEventPushMs := 0
      nextRetryMs := if e.now ≥ s.retryAfterGateMs then 0 else max s.nextRetryMs s.retryAfterGateMs
      retryAfterGateMs := if e.now ≥ s.retryAfterGateMs then 0 else s.retryAfterGateMs }
  else s

/-- A local request for synchronisation. -/
def consumePending (e : Tick) (s : Sync) : Sync :=
  if e.immediateSyncPending then
    { s with
      immediateSync := true
      nextHeartbeatMs := 0
      nextRetryMs := if e.now ≥ s.retryAfterGateMs then 0 else max s.nextRetryMs s.retryAfterGateMs }
  else s

def prepare (e : Tick) (s : Sync) : Sync :=
  consumePending e (observeReenrollment e (observeDataReset e s))

/-- Whether the server is to be told that the staged configuration works. The clock never runs back, so that the
differences are not negative. -/
def validationDue (e : Tick) (s : Sync) : Bool :=
  e.stationConnected && e.synchronized && e.now ≥ s.nextConfigValidationAttemptMs &&
    e.now - s.pendingConfig.startedMs ≥ 2000

/-- Telling the server so, if it is due. -/
def reportApplied (e : Tick) (s : Sync) : List Event :=
  if validationDue e s then [.appliedReport s.pendingConfig e.now e.appliedReportRecorded] else []

def rollbackDetail (restored : Bool) : String :=
  if restored then "post_apply_connectivity_failed" else "configuration_rollback_conflict"

def validateConfiguration (e : Tick) (s : Sync) : Sync × List Event :=
  if e.persistentGeneration ≠ s.pendingConfig.generation then
    ({ s with
        pendingConfigValidation := false
        pendingConfig := { s.pendingConfig with generation := 0 }
        pendingConfigRollbackReport := true
        pendingConfigReportDetail := "superseded_by_newer_configuration"
        nextConfigValidationAttemptMs := e.now }, [.superseded s.pendingConfig e.persistentGeneration])
  else if validationDue e s && e.appliedReportRecorded then
    ({ s with
        pendingConfigValidation := false
        pendingConfig := { s.pendingConfig with generation := 0 } }, reportApplied e s)
  else if e.now - s.pendingConfig.startedMs ≥ 30000 then
    ({ s with
        pendingConfigValidation := false
        pendingConfig := { s.pendingConfig with generation := 0 }
        pendingConfigRollbackReport := e.rollbackRestored
        pendingConfigReportDetail := rollbackDetail e.rollbackRestored },
      reportApplied e s ++ [.rollback s.pendingConfig e.now e.rollbackRestored])
  else if e.now ≥ s.nextConfigValidationAttemptMs then
    ({ s with nextConfigValidationAttemptMs := e.now + 2000 }, reportApplied e s)
  else (s, reportApplied e s)

/-- The configuration that is staged is looked at first, even while the device is offline. -/
def validate (e : Tick) (s : Sync) : Sync × List Event :=
  if s.pendingConfigValidation && !e.dataResetFrozen then validateConfiguration e s else (s, [])

/-- Whether nothing else is done, `s'` being the state that `validate` left. -/
def validationBlocks (e : Tick) (s s' : Sync) : Bool :=
  s.pendingConfigValidation && !e.dataResetFrozen &&
    (s'.pendingConfigValidation || !e.stationConnected || !e.synchronized)

/-- Whether the server is out of reach, or is to be left alone. -/
def offline (e : Tick) (s : Sync) : Bool :=
  !e.stationConnected || !e.synchronized || !e.serverConfigured || e.now < s.nextRetryMs

/-- Whether nothing is done with the server. -/
def idle (e : Tick) (s : Sync) : Bool := e.connectionMode ≠ .push || offline e s

/-- What a failure leaves. -/
def scheduleRetry (e : Tick) (s : Sync) (retryAfterMs : ℕ) : Sync :=
  let nextRetryMs := e.now + retryDelayMs e.syncRetryMaxSeconds s.retryAttempt retryAfterMs e.random
  { s with
    retryAttempt := nextAttempt s.retryAttempt
    nextRetryMs := nextRetryMs
    retryAfterGateMs := if retryAfterMs = 0 then 0 else nextRetryMs }

/-- An enrollment; one that is accepted is staged, and asks for a restart. -/
def enroll (e : Tick) (s : Sync) : Sync × List Event :=
  if e.hasEnrollmentToken then
    match e.enrollment with
    | .accepted () =>
      ({ s with
          enrollmentActivationRebootQueued := e.rebootQueued
          nextEnrollmentActivationRebootMs := e.later + 5000 }, [.enrollment (.accepted ()), .reboot e.rebootQueued])
    | .deferred =>
      ({ s with nextRetryMs := e.now + kLocalResourceRetryMs, retryAfterGateMs := 0 }, [.enrollment .deferred])
    | .failed retryAfterMs => (scheduleRetry e s retryAfterMs, [.enrollment (.failed retryAfterMs)])
  else (s, [])

def reportRollback (e : Tick) (s : Sync) : Sync × List Event :=
  if s.pendingConfigRollbackReport && e.stationConnected && e.now ≥ s.nextConfigValidationAttemptMs then
    ({ s with
        pendingConfigRollbackReport := !e.rolledBackReportRecorded
        nextConfigValidationAttemptMs := e.now + 5000 },
      [.rolledBackReport s.pendingConfig.version s.pendingConfigReportDetail e.rolledBackReportRecorded])
  else (s, [])

/-- What an accepted heartbeat leaves: the server may ask for readings and for a look at its firmware, and may recommend
an interval. -/
def acceptHeartbeat (e : Tick) (s : Sync) (answer : HeartbeatAnswer) : Sync :=
  let released := !answer.cursorRegressed && !answer.resetCursorFrozen &&
    shouldReleaseReadingBackoff answer.immediateSyncRequested answer.acknowledgement answer.newestSequence
      s.immediateSyncReleaseRecorded s.lastImmediateSyncReleaseAck
  let recommended := answer.recommendedHeartbeatIntervalSeconds
  let overriding := if 5 ≤ recommended ∧ recommended ≤ 3600 then recommended else 0
  { s with
    immediateSync := answer.immediateSyncRequested
    nextManifestPollMs := manifestPollDeadline answer.firmwareReleaseAvailable s.nextManifestPollMs e.later
    immediateSyncReleaseRecorded := released || s.immediateSyncReleaseRecorded
    lastImmediateSyncReleaseAck := if released then answer.acknowledgement else s.lastImmediateSyncReleaseAck
    nextReadingPushMs := if released then 0 else s.nextReadingPushMs
    heartbeatIntervalOverrideSeconds := overriding
    retryAttempt := 0
    retryAfterGateMs := 0
    nextHeartbeatMs := e.now + heartbeatDelayMs e.heartbeatIntervalSeconds overriding e.random }

def heartbeat (e : Tick) (s : Sync) : Sync × List Event :=
  match e.heartbeat with
  | .accepted answer => (acceptHeartbeat e s answer, [.heartbeat (.accepted answer)])
  | .deferred => ({ s with nextHeartbeatMs := e.now + kLocalResourceRetryMs }, [.heartbeat .deferred])
  | .failed retryAfterMs => (scheduleRetry e s retryAfterMs, [.heartbeat (.failed retryAfterMs)])

/-- What a page of readings leaves. -/
def pushReadings (e : Tick) (s : Sync) : Sync × List Event :=
  let s' :=
    match e.readings with
    | .waiting => { s with nextReadingPushMs := e.later + 250, readingPageJob := true, immediateSync := false }
    | .failed retryAfterMs => { s with
        nextReadingPushMs := e.later + retryDelayMs e.syncRetryMaxSeconds s.readingRetryAttempt retryAfterMs e.random
        readingRetryAttempt := nextAttempt s.readingRetryAttempt
        readingPageJob := false
        immediateSync := true }
    | .deferred => { s with
        nextReadingPushMs := e.later + kLocalResourceRetryMs, readingPageJob := false, immediateSync := false }
    | .finished => { s with
        nextReadingPushMs := 0, readingRetryAttempt := 0, readingPageJob := false, immediateSync := false }
    | .gated => { s with readingPageJob := false, immediateSync := true }
  (s', [.readings e.readings])

/-- What a look for a configuration leaves: one that changes the network is staged. -/
def fetchConfiguration (e : Tick) (s : Sync) : Sync × List Event :=
  let delay := if e.pollDeferred then kLocalResourceRetryMs else e.syncIntervalSeconds * 1000
  match e.fetched with
  | none => ({ s with nextConfigPollMs := e.now + delay }, [.configuration none])
  | some (version, generation) =>
    let config : Staged := ⟨version, generation, e.later⟩
    ({ s with
        pendingConfig := config
        nextConfigValidationAttemptMs := e.later + 2000
        pendingConfigValidation := true
        pendingConfigRollbackReport := false
        pendingConfigReportDetail := "post_apply_connectivity_failed"
        nextConfigPollMs := e.now + delay }, [.configuration (some config)])

def checkFirmwareManifest (e : Tick) (s : Sync) : Sync × List Event :=
  ({ s with nextManifestPollMs := e.now + if e.pollDeferred then kLocalResourceRetryMs else 3600000 }, [.manifest])

/-- What a page of events leaves. -/
def pushEvents (e : Tick) (s : Sync) : Sync × List Event :=
  let (s', succeeded) :=
    match e.events with
    | .waiting => ({ s with nextEventPushMs := e.later + 250, eventPageJob := true }, true)
    | .failed retryAfterMs => ({ s with
        nextEventPushMs := e.later + retryDelayMs e.syncRetryMaxSeconds s.eventRetryAttempt retryAfterMs e.random
        eventRetryAttempt := nextAttempt s.eventRetryAttempt
        eventPageJob := false }, false)
    | .deferred => ({ s with nextEventPushMs := e.later + kLocalResourceRetryMs, eventPageJob := false }, true)
    | .finished => ({ s with eventRetryAttempt := 0, eventPageJob := false }, true)
    | .gated => ({ s with eventPageJob := false }, false)
  (if shouldScheduleEventIdleDelay succeeded s'.eventPageJob then { s' with nextEventPushMs := e.now + 30000 } else s',
    [.events e.events])

/-- What is done besides the heartbeat: the readings first, and nothing else as long as there are any. -/
def operate (e : Tick) (s : Sync) : Sync × List Event :=
  let durableReadingBacklog : Bool := e.serverAckSequence < e.newestSyncableSequence
  if e.now ≥ s.nextReadingPushMs && durableReadingBacklog then pushReadings e s
  else if !secondaryOperationsAllowed durableReadingBacklog then (s, [])
  else if e.now ≥ s.nextConfigPollMs then fetchConfiguration e s
  else if !e.safeMode && e.now ≥ s.nextManifestPollMs then checkFirmwareManifest e s
  else if !durableReadingBacklog && e.now ≥ s.nextEventPushMs then pushEvents e s
  else (s, [])

/-- What is done once the device is enrolled. -/
def exchange (e : Tick) (s : Sync) : Sync × List Event :=
  if e.now ≥ s.nextHeartbeatMs then heartbeat e s
  else if e.dataResetFrozen then (s, [])
  else operate e s

/-- What is done with the server. -/
def contact (e : Tick) (s : Sync) : Sync × List Event :=
  if idle e s then (s, [])
  else if !e.enrolled then enroll e s
  else
    let r := reportRollback e s
    ((exchange e r.1).1, r.2 ++ (exchange e r.1).2)

def tick (e : Tick) (s : Sync) : Sync × List Event :=
  if e.activationPending then activate e s
  else
    let v := validate e (prepare e s)
    if validationBlocks e (prepare e s) v.1 then v
    else ((contact e v.1).1, v.2 ++ (contact e v.1).2)

/-- A look at a device that is enrolled, reaches the server and has nothing to send; every request is accepted. -/
def Tick.online (now : ℕ) : Tick where
  now := now
  later := now + 100
  activationPending := false
  rebootQueued := true
  dataResetFrozen := false
  serverAckSequence := 0
  newestSyncableSequence := 0
  reenrollmentGeneration := 0
  immediateSyncPending := false
  stationConnected := true
  synchronized := true
  serverConfigured := true
  connectionMode := .push
  persistentGeneration := 7
  heartbeatIntervalSeconds := 15
  syncIntervalSeconds := 300
  syncRetryMaxSeconds := 900
  enrolled := true
  hasEnrollmentToken := false
  safeMode := false
  random := 0
  appliedReportRecorded := false
  rollbackRestored := true
  rolledBackReportRecorded := true
  enrollment := .accepted ()
  heartbeat := .accepted ⟨false, false, 0, 0, 0, false, false⟩
  readings := .finished
  fetched := none
  pollDeferred := false
  events := .finished

/-! ### What the stages leave alone -/

/-- What is done with the server, except that it is told that a staged configuration works. -/
def Event.scheduled : Event → Bool
  | .rolledBackReport .. | .enrollment _ | .heartbeat _ | .readings _ | .configuration _ | .manifest | .events _ => true
  | _ => false

/-- The time for which the server asked to be left alone, of a request that failed. -/
def Event.failure : Event → Option ℕ
  | .enrollment (.failed retryAfterMs) => some retryAfterMs
  | .heartbeat (.failed retryAfterMs) => some retryAfterMs
  | _ => none

theorem Event.failure_of_not_scheduled {o : Event} (h : o.scheduled = false) : o.failure = none := by
  cases o <;> simp_all [Event.scheduled, Event.failure]

/-- When the server is contacted next. -/
structure Pace where
  nextRetryMs : ℕ
  retryAfterGateMs : ℕ
  retryAttempt : ℕ
  nextHeartbeatMs : ℕ
  heartbeatIntervalOverrideSeconds : ℕ
  observedReenrollmentGeneration : ℕ

def Sync.pace (s : Sync) : Pace where
  nextRetryMs := s.nextRetryMs
  retryAfterGateMs := s.retryAfterGateMs
  retryAttempt := s.retryAttempt
  nextHeartbeatMs := s.nextHeartbeatMs
  heartbeatIntervalOverrideSeconds := s.heartbeatIntervalOverrideSeconds
  observedReenrollmentGeneration := s.observedReenrollmentGeneration

/-- The configuration that is staged. -/
def Sync.staged (s : Sync) : Option Staged := if s.pendingConfigValidation then some s.pendingConfig else none

section Frames

variable {e : Tick} {s : Sync} {o : Event}

@[simp] theorem activate_pace : (activate e s).1.pace = s.pace := by
  unfold activate
  split_ifs <;> rfl

@[simp] theorem activate_staged : (activate e s).1.staged = s.staged := by
  unfold activate
  split_ifs <;> rfl

theorem activate_not_scheduled (ho : o ∈ (activate e s).2) : o.scheduled = false := by
  unfold activate at ho
  split_ifs at ho
  · rw [List.mem_singleton.mp ho]
    rfl
  · exact absurd ho List.not_mem_nil

@[simp] theorem validate_pace : (validate e s).1.pace = s.pace := by
  unfold validate validateConfiguration
  split_ifs <;> rfl

theorem reportApplied_not_scheduled (ho : o ∈ reportApplied e s) : o.scheduled = false := by
  unfold reportApplied at ho
  split_ifs at ho
  · rw [List.mem_singleton.mp ho]
    rfl
  · exact absurd ho List.not_mem_nil

theorem validateConfiguration_not_scheduled (ho : o ∈ (validateConfiguration e s).2) : o.scheduled = false := by
  unfold validateConfiguration at ho
  split_ifs at ho with hsuperseded hrecorded hexpired
  · rw [List.mem_singleton.mp ho]
    rfl
  · exact reportApplied_not_scheduled ho
  · rcases List.mem_append.mp ho with hreported | hrollback
    · exact reportApplied_not_scheduled hreported
    · rw [List.mem_singleton.mp hrollback]
      rfl
  · exact reportApplied_not_scheduled ho
  · exact reportApplied_not_scheduled ho

theorem validate_not_scheduled (ho : o ∈ (validate e s).2) : o.scheduled = false := by
  unfold validate at ho
  split_ifs at ho
  · exact validateConfiguration_not_scheduled ho
  · exact absurd ho List.not_mem_nil

@[simp] theorem reportRollback_pace : (reportRollback e s).1.pace = s.pace := by
  unfold reportRollback
  split_ifs <;> rfl

@[simp] theorem reportRollback_staged : (reportRollback e s).1.staged = s.staged := by
  unfold reportRollback
  split_ifs <;> rfl

theorem mem_reportRollback (ho : o ∈ (reportRollback e s).2) :
    ∃ version detail recorded, o = .rolledBackReport version detail recorded := by
  unfold reportRollback at ho
  split_ifs at ho
  · exact ⟨_, _, _, List.mem_singleton.mp ho⟩
  · exact absurd ho List.not_mem_nil

@[simp] theorem pushReadings_pace : (pushReadings e s).1.pace = s.pace := by
  unfold pushReadings
  cases e.readings <;> rfl

@[simp] theorem pushReadings_staged : (pushReadings e s).1.staged = s.staged := by
  unfold pushReadings
  cases e.readings <;> rfl

@[simp] theorem fetchConfiguration_pace : (fetchConfiguration e s).1.pace = s.pace := by
  unfold fetchConfiguration
  rcases e.fetched with _ | ⟨version, generation⟩ <;> rfl

@[simp] theorem pushEvents_pace : (pushEvents e s).1.pace = s.pace := by
  unfold pushEvents
  cases e.events <;> rfl

@[simp] theorem pushEvents_staged : (pushEvents e s).1.staged = s.staged := by
  unfold pushEvents
  cases e.events <;> rfl

/-- What is done besides the heartbeat. -/
theorem operate_cases : operate e s = (s, []) ∨ operate e s = pushReadings e s ∨ operate e s = fetchConfiguration e s ∨
    operate e s = checkFirmwareManifest e s ∨ operate e s = pushEvents e s := by
  unfold operate
  simp only
  split_ifs <;> simp

@[simp] theorem operate_pace : (operate e s).1.pace = s.pace := by
  rcases operate_cases (e := e) (s := s) with h | h | h | h | h <;> rw [h]
  · exact pushReadings_pace
  · exact fetchConfiguration_pace
  · rfl
  · exact pushEvents_pace

theorem operate_failure (ho : o ∈ (operate e s).2) : o.failure = none := by
  rcases operate_cases (e := e) (s := s) with h | h | h | h | h <;> rw [h] at ho
  · exact absurd ho List.not_mem_nil
  · rw [List.mem_singleton.mp ho]
    rfl
  · unfold fetchConfiguration at ho
    rcases hfetched : e.fetched with _ | ⟨version, generation⟩ <;> rw [hfetched] at ho <;>
      rw [List.mem_singleton.mp ho] <;> rfl
  · rw [List.mem_singleton.mp ho]
    rfl
  · rw [List.mem_singleton.mp ho]
    rfl

end Frames

section Cases

variable {e : Tick} {s : Sync}

theorem tick_activating (h : e.activationPending = true) : tick e s = activate e s := if_pos h

theorem tick_blocked (hactivation : e.activationPending = false)
    (hblocks : validationBlocks e (prepare e s) (validate e (prepare e s)).1 = true) :
    tick e s = validate e (prepare e s) := by
  simp [tick, hactivation, hblocks]

theorem tick_contacting (hactivation : e.activationPending = false)
    (hblocks : validationBlocks e (prepare e s) (validate e (prepare e s)).1 = false) :
    tick e s = ((contact e (validate e (prepare e s)).1).1,
      (validate e (prepare e s)).2 ++ (contact e (validate e (prepare e s)).1).2) := by
  simp [tick, hactivation, hblocks]

theorem contact_idle (h : idle e s = true) : contact e s = (s, []) := if_pos h

theorem contact_enrolling (h : idle e s = false) (henrolled : e.enrolled = false) :
    contact e s = enroll e s := by
  simp [contact, h, henrolled]

theorem contact_exchanging (h : idle e s = false) (henrolled : e.enrolled = true) :
    contact e s = ((exchange e (reportRollback e s).1).1,
      (reportRollback e s).2 ++ (exchange e (reportRollback e s).1).2) := by
  simp [contact, h, henrolled]

end Cases

/-! ### Leaving the server alone -/

section Waiting

variable {e : Tick} {s : Sync} {o : Event} {deadline retryAfterMs : ℕ}

/-- Before the time of the next attempt the task keeps to the staged configuration. -/
theorem tick_waiting (hnow : e.now < deadline) (hprepared : deadline ≤ (prepare e s).nextRetryMs) :
    ((tick e s).1.pace = s.pace ∨ (tick e s).1.pace = (prepare e s).pace) ∧
      ∀ o ∈ (tick e s).2, o.scheduled = false := by
  have hretry : (validate e (prepare e s)).1.nextRetryMs = (prepare e s).nextRetryMs :=
    congrArg Pace.nextRetryMs validate_pace
  have hcontact : contact e (validate e (prepare e s)).1 = ((validate e (prepare e s)).1, []) := by
    have hlt : e.now < (prepare e s).nextRetryMs := by omega
    exact contact_idle (by simp [idle, offline, hretry, hlt])
  rcases hactivation : e.activationPending with _ | _
  · rcases hblocks : validationBlocks e (prepare e s) (validate e (prepare e s)).1 with _ | _
    · rw [tick_contacting hactivation hblocks, hcontact, List.append_nil]
      exact ⟨Or.inr validate_pace, fun o ho => validate_not_scheduled ho⟩
    · rw [tick_blocked hactivation hblocks]
      exact ⟨Or.inr validate_pace, fun o ho => validate_not_scheduled ho⟩
  · rw [tick_activating hactivation]
    exact ⟨Or.inl activate_pace, fun o ho => activate_not_scheduled ho⟩

/-- Until when the server asked to be left alone. -/
def Held (deadline : ℕ) (s : Sync) : Prop := deadline ≤ s.nextRetryMs ∧ deadline ≤ s.retryAfterGateMs

theorem observeDataReset_held (h : Held deadline s) : Held deadline (observeDataReset e s) := by
  unfold observeDataReset
  split_ifs <;> exact h

theorem observeReenrollment_held (hnow : e.now < deadline) (h : Held deadline s) :
    Held deadline (observeReenrollment e s) := by
  have hpast : ¬ e.now ≥ s.retryAfterGateMs := not_le.mpr (hnow.trans_le h.2)
  unfold observeReenrollment
  split_ifs
  · exact ⟨h.1.trans (Nat.le_max_left _ _), h.2⟩
  · exact h

theorem consumePending_held (hnow : e.now < deadline) (h : Held deadline s) : Held deadline (consumePending e s) := by
  have hpast : ¬ e.now ≥ s.retryAfterGateMs := not_le.mpr (hnow.trans_le h.2)
  unfold consumePending
  split_ifs
  · exact ⟨h.1.trans (Nat.le_max_left _ _), h.2⟩
  · exact h

/-- The server asked to be left alone, and neither a new enrollment nor a local request changes that. -/
theorem prepare_held (hnow : e.now < deadline) (h : Held deadline s) : Held deadline (prepare e s) :=
  consumePending_held hnow (observeReenrollment_held hnow (observeDataReset_held h))

/-- A heartbeat that failed is followed by a wait. -/
theorem exchange_failure (ho : o ∈ (exchange e s).2) (hfailure : o.failure = some retryAfterMs) :
    (exchange e s).1 = scheduleRetry e s retryAfterMs := by
  unfold exchange at ho ⊢
  split_ifs at ho ⊢
  · unfold heartbeat at ho ⊢
    split at ho <;> rw [List.mem_singleton.mp ho] at hfailure
    · cases hfailure
    · cases hfailure
    · rw [Option.some.inj hfailure]
  · exact absurd ho List.not_mem_nil
  · rw [operate_failure ho] at hfailure
    cases hfailure

theorem enroll_failure (ho : o ∈ (enroll e s).2) (hfailure : o.failure = some retryAfterMs) :
    (enroll e s).1 = scheduleRetry e s retryAfterMs := by
  unfold enroll at ho ⊢
  split_ifs at ho ⊢
  · split at ho
    · rcases List.mem_cons.mp ho with rfl | hreboot
      · cases hfailure
      · rw [List.mem_singleton.mp hreboot] at hfailure
        cases hfailure
    · rw [List.mem_singleton.mp ho] at hfailure
      cases hfailure
    · rw [List.mem_singleton.mp ho] at hfailure
      rw [Option.some.inj hfailure]
  · exact absurd ho List.not_mem_nil

/-- **A request that failed is followed by a wait.** -/
theorem tick_failure (ho : o ∈ (tick e s).2) (hfailure : o.failure = some retryAfterMs) :
    ∃ s', s'.pace = (prepare e s).pace ∧ (tick e s).1 = scheduleRetry e s' retryAfterMs := by
  have hnot : ¬ o.scheduled = false := by
    intro h
    rw [Event.failure_of_not_scheduled h] at hfailure
    cases hfailure
  rcases hactivation : e.activationPending with _ | _
  · rcases hblocks : validationBlocks e (prepare e s) (validate e (prepare e s)).1 with _ | _
    · rw [tick_contacting hactivation hblocks] at ho ⊢
      rcases List.mem_append.mp ho with hvalidate | hcontact
      · exact absurd (validate_not_scheduled hvalidate) hnot
      · rcases hidle : idle e (validate e (prepare e s)).1 with _ | _
        · rcases henrolled : e.enrolled with _ | _
          · rw [contact_enrolling hidle henrolled] at hcontact ⊢
            exact ⟨_, validate_pace, enroll_failure hcontact hfailure⟩
          · rw [contact_exchanging hidle henrolled] at hcontact ⊢
            rcases List.mem_append.mp hcontact with hreport | hexchange
            · obtain ⟨version, detail, recorded, rfl⟩ := mem_reportRollback hreport
              cases hfailure
            · exact ⟨_, reportRollback_pace.trans validate_pace, exchange_failure hexchange hfailure⟩
        · rw [contact_idle hidle] at hcontact
          exact absurd hcontact List.not_mem_nil
    · rw [tick_blocked hactivation hblocks] at ho
      exact absurd (validate_not_scheduled ho) hnot
  · rw [tick_activating hactivation] at ho
    exact absurd (activate_not_scheduled ho) hnot

/-- **The server is left alone for as long as it asked**, whatever happens in the meantime: until then the task at most
tells it that the staged configuration works. -/
theorem retry_after_respected {es : List Tick} (ho : o ∈ (tick e s).2) (hfailure : o.failure = some retryAfterMs)
    (hdirected : retryAfterMs ≠ 0) (hbefore : ∀ e' ∈ es, e'.now < e.now + retryAfterMs) :
    ∀ o ∈ trace tick (tick e s).1 es, o.scheduled = false := by
  obtain ⟨s', -, hs'⟩ := tick_failure ho hfailure
  have hheld : Held (e.now + retryAfterMs) (tick e s).1 := by
    rw [hs']
    simp [Held, scheduleRetry, retryDelayMs_of_ne_zero hdirected, hdirected]
  refine keeps_until (A := fun _ => True) ?_ hheld (fun _ _ => trivial) hbefore
  intro e' s' _ hnow h
  have hprepared : Held (e.now + retryAfterMs) (prepare e' s') := prepare_held hnow h
  obtain ⟨hpace, hscheduled⟩ := tick_waiting hnow hprepared.1
  refine ⟨?_, hscheduled⟩
  rcases hpace with hsame | hsame
  · exact ⟨h.1.trans_eq (congrArg Pace.nextRetryMs hsame).symm,
      h.2.trans_eq (congrArg Pace.retryAfterGateMs hsame).symm⟩
  · exact ⟨hprepared.1.trans_eq (congrArg Pace.nextRetryMs hsame).symm,
      hprepared.2.trans_eq (congrArg Pace.retryAfterGateMs hsame).symm⟩

/-- Neither a local request nor a new enrollment shortens a minute for which the server asked. -/
theorem retry_after_respected_minute :
    (trace tick (tick { Tick.online 1000 with heartbeat := .failed 60000 } {}).1
      [{ Tick.online 30000 with immediateSyncPending := true },
        { Tick.online 60999 with reenrollmentGeneration := 1 }]).any Event.scheduled = false := by
  rw [List.any_eq_false]
  intro o ho
  have hquiet := retry_after_respected (o := .heartbeat (.failed 60000)) (List.mem_singleton.mpr rfl) rfl (by decide)
    (by decide) o ho
  rw [hquiet]
  decide

/-! ### Failures in a row -/

def Event.accepted : Event → Bool
  | .heartbeat (.accepted _) => true
  | _ => false

/-- How many requests failed. -/
def failures (events : List Event) : ℕ := (events.filterMap Event.failure).length

/-- An attempt is counted if it failed. -/
def Counts (f : Sync × List Event) (s : Sync) : Prop :=
  f.1.retryAttempt = nextAttempt^[failures f.2] s.retryAttempt ∧
    f.1.observedReenrollmentGeneration = s.observedReenrollmentGeneration

end Waiting

/-! ### Staged configurations -/

/-- An observer that knows the configuration that is staged. It expects a configuration to be staged when there is none;
the server to be told that it works after two seconds at the earliest; and another to be in its place or thirty seconds
to be over when it is given up. -/
def follow (staged : Option Staged) : Event → Option (Option Staged)
  | .configuration (some config) => if staged = none then some (some config) else none
  | .appliedReport config now recorded =>
    if staged = some config ∧ config.startedMs + 2000 ≤ now then some (if recorded then none else staged) else none
  | .superseded config currentGeneration =>
    if staged = some config ∧ currentGeneration ≠ config.generation then some none else none
  | .rollback config now _ => if staged = some config ∧ config.startedMs + 30000 ≤ now then some none else none
  | _ => some staged

section Staging

variable {e : Tick} {s : Sync}

/-- What is done after the staged configuration was looked at does not concern it. -/
theorem follow_of_scheduled {o : Event} {staged : Option Staged} (h : o.scheduled = true)
    (hnone : ∀ config, o ≠ .configuration (some config)) : follow staged o = some staged := by
  cases o with
  | configuration config =>
    cases config with
    | none => rfl
    | some config => exact absurd rfl (hnone config)
  | appliedReport | superseded | rollback | reboot => simp [Event.scheduled] at h
  | rolledBackReport | enrollment | heartbeat | readings | manifest | events => rfl

theorem observeDataReset_staged : (observeDataReset e s).staged = s.staged := by
  unfold observeDataReset
  split_ifs <;> rfl

theorem observeReenrollment_staged : (observeReenrollment e s).staged = s.staged := by
  unfold observeReenrollment
  split <;> rfl

theorem consumePending_staged : (consumePending e s).staged = s.staged := by
  unfold consumePending
  split <;> rfl

@[simp] theorem prepare_staged : (prepare e s).staged = s.staged :=
  consumePending_staged.trans (observeReenrollment_staged.trans observeDataReset_staged)

@[simp] theorem enroll_staged : (enroll e s).1.staged = s.staged := by
  unfold enroll
  split_ifs
  · split <;> rfl
  · rfl

@[simp] theorem heartbeat_staged : (heartbeat e s).1.staged = s.staged := by
  unfold heartbeat
  split <;> rfl

theorem reportApplied_follow : (reportApplied e s).foldlM follow (some s.pendingConfig) =
    some (if validationDue e s && e.appliedReportRecorded then none else some s.pendingConfig) := by
  unfold reportApplied
  split_ifs with hdue hrecorded hrecorded
  · have hlate : s.pendingConfig.startedMs + 2000 ≤ e.now := by
      simp only [validationDue, Bool.and_eq_true, decide_eq_true_eq] at hdue
      omega
    simp_all [follow]
  · have hlate : s.pendingConfig.startedMs + 2000 ≤ e.now := by
      simp only [validationDue, Bool.and_eq_true, decide_eq_true_eq] at hdue
      omega
    simp_all [follow]
  · simp_all
  · rfl

theorem validateConfiguration_follow (hpending : s.pendingConfigValidation = true) :
    (validateConfiguration e s).2.foldlM follow s.staged = some (validateConfiguration e s).1.staged := by
  have hstaged : s.staged = some s.pendingConfig := if_pos hpending
  have hreported := reportApplied_follow (e := e) (s := s)
  unfold validateConfiguration
  split_ifs with hsuperseded hrecorded hexpired hattempt
  · rw [hstaged]
    simp [follow, hsuperseded, Sync.staged]
  · rw [hstaged, hreported, hrecorded]
    rfl
  · have hlate : s.pendingConfig.startedMs + 30000 ≤ e.now := by omega
    rw [if_neg hrecorded] at hreported
    simp only [hstaged, List.foldlM_append, hreported]
    simp [follow, hlate, Sync.staged]
  · rw [if_neg hrecorded] at hreported
    rw [hstaged]
    exact hreported.trans (congrArg some hstaged.symm)
  · rw [if_neg hrecorded] at hreported
    rw [hstaged]
    exact hreported

theorem validate_follow : (validate e s).2.foldlM follow s.staged = some (validate e s).1.staged := by
  unfold validate
  split_ifs with h
  · exact validateConfiguration_follow ((Bool.and_eq_true _ _).mp h).1
  · rfl

theorem operate_follow (hnone : s.staged = none) :
    (operate e s).2.foldlM follow s.staged = some (operate e s).1.staged := by
  rcases operate_cases (e := e) (s := s) with h | h | h | h | h <;> rw [h]
  · rfl
  · rw [pushReadings_staged]
    rfl
  · unfold fetchConfiguration
    rcases e.fetched with _ | ⟨version, generation⟩
    · rfl
    · rw [hnone]
      rfl
  · rfl
  · rw [pushEvents_staged]
    rfl

theorem exchange_follow (h : e.dataResetFrozen = true ∨ s.staged = none) :
    (exchange e s).2.foldlM follow s.staged = some (exchange e s).1.staged := by
  unfold exchange
  split_ifs with hdue hfrozen
  · rw [heartbeat_staged]
    unfold heartbeat
    split <;> rfl
  · rfl
  · exact operate_follow (h.resolve_left hfrozen)

theorem contact_follow (h : e.dataResetFrozen = true ∨ s.staged = none) :
    (contact e s).2.foldlM follow s.staged = some (contact e s).1.staged := by
  rcases hidle : idle e s with _ | _
  · rcases henrolled : e.enrolled with _ | _
    · rw [contact_enrolling hidle henrolled, enroll_staged]
      unfold enroll
      split_ifs
      · split <;> rfl
      · rfl
    · have hreport : (reportRollback e s).2.foldlM follow s.staged = some (reportRollback e s).1.staged := by
        rw [reportRollback_staged]
        unfold reportRollback
        split_ifs <;> rfl
      rw [contact_exchanging hidle henrolled, List.foldlM_append, hreport]
      exact exchange_follow (by rwa [reportRollback_staged])
  · rw [contact_idle hidle]
    rfl

/-- When more is done than to look at the staged configuration, a reset is going on or there is none. -/
theorem staged_of_not_blocks (hblocks : validationBlocks e s (validate e s).1 = false) :
    e.dataResetFrozen = true ∨ (validate e s).1.staged = none := by
  rcases hfrozen : e.dataResetFrozen with _ | _
  · right
    rcases hpending : s.pendingConfigValidation with _ | _
    · have hkept : (validate e s).1 = s := by simp [validate, hpending]
      rw [hkept]
      simp [Sync.staged, hpending]
    · simp only [validationBlocks, hpending, hfrozen, Bool.not_false, Bool.true_and, Bool.or_eq_false_iff] at hblocks
      simp [Sync.staged, hblocks.1.1]
  · exact Or.inl rfl

/-- Whatever the task does, the observer follows it. -/
theorem tick_follow (e : Tick) (s : Sync) : (tick e s).2.foldlM follow s.staged = some (tick e s).1.staged := by
  have hvalidate : (validate e (prepare e s)).2.foldlM follow s.staged = some (validate e (prepare e s)).1.staged := by
    rw [← prepare_staged (e := e)]
    exact validate_follow
  rcases hactivation : e.activationPending with _ | _
  · rcases hblocks : validationBlocks e (prepare e s) (validate e (prepare e s)).1 with _ | _
    · rw [tick_contacting hactivation hblocks, List.foldlM_append, hvalidate]
      exact contact_follow (staged_of_not_blocks hblocks)
    · rw [tick_blocked hactivation hblocks]
      exact hvalidate
  · rw [tick_activating hactivation, activate_staged]
    unfold activate
    split_ifs <;> rfl

theorem validate_recent (hfrozen : e.dataResetFrozen = false) {config : Staged}
    (h : (validate e s).1.staged = some config) : e.now < config.startedMs + 30000 := by
  rcases hpending : s.pendingConfigValidation with _ | _
  · have hkept : (validate e s).1 = s := by simp [validate, hpending]
    rw [hkept] at h
    simp [Sync.staged, hpending] at h
  · have hlook : (validate e s).1 = (validateConfiguration e s).1 := by simp [validate, hpending, hfrozen]
    rw [hlook] at h
    unfold validateConfiguration at h
    split_ifs at h with hsuperseded hrecorded hexpired
    · simp [Sync.staged] at h
    · simp [Sync.staged] at h
    · simp [Sync.staged] at h
    · have hconfig : s.pendingConfig = config := by simpa [Sync.staged, hpending] using h
      rw [← hconfig]
      omega
    · have hconfig : s.pendingConfig = config := by simpa [Sync.staged, hpending] using h
      rw [← hconfig]
      omega

theorem validate_staged : (validate e s).1.staged = s.staged ∨ (validate e s).1.staged = none := by
  unfold validate validateConfiguration
  split_ifs <;> simp [Sync.staged]

theorem fetchConfiguration_staged : (fetchConfiguration e s).1.staged = s.staged ∨
    ∃ version generation, (fetchConfiguration e s).1.staged = some ⟨version, generation, e.later⟩ := by
  unfold fetchConfiguration
  rcases e.fetched with _ | ⟨version, generation⟩
  · exact Or.inl rfl
  · exact Or.inr ⟨version, generation, rfl⟩

theorem exchange_staged : (exchange e s).1.staged = s.staged ∨
    ∃ version generation, (exchange e s).1.staged = some ⟨version, generation, e.later⟩ := by
  unfold exchange
  split_ifs
  · exact Or.inl heartbeat_staged
  · exact Or.inl rfl
  · rcases operate_cases (e := e) (s := s) with h | h | h | h | h <;> rw [h]
    · exact Or.inl rfl
    · exact Or.inl pushReadings_staged
    · exact fetchConfiguration_staged
    · exact Or.inl rfl
    · exact Or.inl pushEvents_staged

/-- A configuration is staged with the time at which that is done. -/
theorem contact_staged : (contact e s).1.staged = s.staged ∨
    ∃ version generation, (contact e s).1.staged = some ⟨version, generation, e.later⟩ := by
  rcases hidle : idle e s with _ | _
  · rcases henrolled : e.enrolled with _ | _
    · rw [contact_enrolling hidle henrolled]
      exact Or.inl enroll_staged
    · rw [contact_exchanging hidle henrolled]
      have h := exchange_staged (e := e) (s := (reportRollback e s).1)
      rwa [reportRollback_staged] at h
  · rw [contact_idle hidle]
    exact Or.inl rfl

/-- A configuration that is still staged when a look ends was staged less than thirty seconds before it. -/
theorem tick_recent (hclock : e.now ≤ e.later) (hactivation : e.activationPending = false)
    (hfrozen : e.dataResetFrozen = false) {config : Staged} (h : (tick e s).1.staged = some config) :
    e.now < config.startedMs + 30000 := by
  rcases hblocks : validationBlocks e (prepare e s) (validate e (prepare e s)).1 with _ | _
  · rw [tick_contacting hactivation hblocks] at h
    have hnone : (validate e (prepare e s)).1.staged = none :=
      (staged_of_not_blocks hblocks).resolve_left (by simp [hfrozen])
    rcases contact_staged (e := e) (s := (validate e (prepare e s)).1) with hkept | ⟨version, generation, hnew⟩
    · rw [hkept, hnone] at h
      cases h
    · rw [hnew] at h
      rw [← Option.some.inj h]
      show e.now < e.later + 30000
      omega
  · rw [tick_blocked hactivation hblocks] at h
    exact validate_recent hfrozen h

/-- **Every staged configuration is confirmed, superseded or taken back, and once only**: from one staging to the next
there is one of these, for the configuration that was staged, at its time; and unless a reset or an enrollment is in the
way, none is open after thirty seconds. -/
theorem staged_resolved {es : List Tick} (hclock : e.now ≤ e.later) :
    (trace tick {} (es ++ [e])).foldlM follow none = some (run tick {} (es ++ [e])).staged ∧
    (e.activationPending = false → e.dataResetFrozen = false →
      ∀ config, (run tick {} (es ++ [e])).staged = some config → e.now < config.startedMs + 30000) := by
  constructor
  · exact accepts_trace tick_follow {} (es ++ [e])
  · intro hactivation hfrozen config h
    rw [run_append] at h
    exact tick_recent hclock hactivation hfrozen h

/-- A configuration that cuts the device off is staged, and given up after thirty seconds. -/
theorem staged_resolved_back :
    (trace tick {} ([Tick.online 1000, { Tick.online 2000 with fetched := some (3, 7) }] ++
      [{ Tick.online 40000 with stationConnected := false }])).foldlM follow none =
        some (run tick {} ([Tick.online 1000, { Tick.online 2000 with fetched := some (3, 7) }] ++
          [{ Tick.online 40000 with stationConnected := false }])).staged ∧
    ∀ config, (run tick {} ([Tick.online 1000, { Tick.online 2000 with fetched := some (3, 7) }] ++
      [{ Tick.online 40000 with stationConnected := false }])).staged = some config →
        40000 < config.startedMs + 30000 :=
  ⟨(staged_resolved (Nat.le_add_right _ _)).1, (staged_resolved (Nat.le_add_right _ _)).2 rfl rfl⟩

end Staging

/-! ### The heartbeat -/

/-- When the next heartbeat is due, at the latest. -/
def due (s : Sync) : ℕ := max s.nextHeartbeatMs (max s.nextRetryMs s.retryAfterGateMs)

/-- The device is enrolled and reaches the server. -/
structure Tick.Ready (e : Tick) : Prop where
  activation : e.activationPending = false
  connected : e.stationConnected = true
  synchronized : e.synchronized = true
  configured : e.serverConfigured = true
  push : e.connectionMode = .push
  enrolled : e.enrolled = true

def Event.isHeartbeat : Event → Bool
  | .heartbeat _ => true
  | _ => false

section Heartbeat

variable {e : Tick} {s : Sync} {t : ℕ}

theorem due_of_pace {s' : Sync} (h : s'.pace = s.pace) : due s' = due s := by
  have hheartbeat : s'.nextHeartbeatMs = s.nextHeartbeatMs := congrArg Pace.nextHeartbeatMs h
  have hretry : s'.nextRetryMs = s.nextRetryMs := congrArg Pace.nextRetryMs h
  have hgate : s'.retryAfterGateMs = s.retryAfterGateMs := congrArg Pace.retryAfterGateMs h
  simp only [due, hheartbeat, hretry, hgate]

theorem observeDataReset_due : due (observeDataReset e s) = due s := by
  unfold observeDataReset
  split_ifs <;> rfl

theorem observeReenrollment_due : due (observeReenrollment e s) ≤ due s := by
  unfold observeReenrollment
  by_cases h : e.now ≥ s.retryAfterGateMs
  · split_ifs
    · exact Nat.zero_le _
    · exact le_refl _
  · split_ifs
    · simp only [due]
      omega
    · exact le_refl _

theorem consumePending_due : due (consumePending e s) ≤ due s := by
  unfold consumePending
  split_ifs <;> simp only [due] <;> omega

/-- Neither a new enrollment nor a local request puts the heartbeat off. -/
theorem prepare_due : due (prepare e s) ≤ due s :=
  consumePending_due.trans (observeReenrollment_due.trans observeDataReset_due.le)

theorem exchange_quiet (hnone : ∀ o ∈ (exchange e s).2, o.isHeartbeat = false) :
    e.now < s.nextHeartbeatMs ∧ (exchange e s).1.pace = s.pace := by
  unfold exchange at hnone ⊢
  split_ifs at hnone ⊢ with hdue hfrozen
  · unfold heartbeat at hnone
    split at hnone <;> exact absurd (hnone _ (List.mem_singleton.mpr rfl)) (by simp [Event.isHeartbeat])
  · exact ⟨not_le.mp hdue, rfl⟩
  · exact ⟨not_le.mp hdue, operate_pace⟩

theorem contact_quiet (hready : e.Ready) (hnone : ∀ o ∈ (contact e s).2, o.isHeartbeat = false) :
    e.now < due s ∧ (contact e s).1.pace = s.pace := by
  rcases hidle : idle e s with _ | _
  · rw [contact_exchanging hidle hready.enrolled] at hnone ⊢
    obtain ⟨hearly, hpace⟩ := exchange_quiet fun o ho => hnone o (List.mem_append_right _ ho)
    have hheartbeat : (reportRollback e s).1.nextHeartbeatMs = s.nextHeartbeatMs :=
      congrArg Pace.nextHeartbeatMs reportRollback_pace
    refine ⟨?_, hpace.trans reportRollback_pace⟩
    rw [hheartbeat] at hearly
    exact hearly.trans_le (Nat.le_max_left _ _)
  · rw [contact_idle hidle]
    have hearly : e.now < s.nextRetryMs := by
      simpa [idle, offline, hready.push, hready.connected, hready.synchronized, hready.configured] using hidle
    refine ⟨?_, rfl⟩
    unfold due
    omega

/-- A look without a heartbeat does not put the heartbeat off; and if the heartbeat was due, a staged configuration that
is not thirty seconds old was in its way, and still is. -/
theorem tick_quiet (hready : e.Ready) (hnone : ∀ o ∈ (tick e s).2, o.isHeartbeat = false) :
    due (tick e s).1 ≤ due s ∧ (due s ≤ e.now → ∃ config, s.staged = some config ∧
      (tick e s).1.staged = some config ∧ e.now < config.startedMs + 30000) := by
  have hprepared : due (validate e (prepare e s)).1 ≤ due s := (due_of_pace validate_pace).trans_le prepare_due
  rcases hblocks : validationBlocks e (prepare e s) (validate e (prepare e s)).1 with _ | _
  · rw [tick_contacting hready.activation hblocks] at hnone ⊢
    obtain ⟨hearly, hpace⟩ := contact_quiet hready fun o ho => hnone o (List.mem_append_right _ ho)
    refine ⟨(due_of_pace hpace).trans_le hprepared, fun hdue => ?_⟩
    omega
  · rw [tick_blocked hready.activation hblocks]
    refine ⟨hprepared, fun _ => ?_⟩
    have hwhy := hblocks
    simp only [validationBlocks, hready.connected, hready.synchronized, Bool.and_eq_true, Bool.not_eq_true',
      Bool.not_true, Bool.or_false] at hwhy
    obtain ⟨⟨-, hfrozen⟩, hpending⟩ := hwhy
    have hopen : (validate e (prepare e s)).1.staged = some (validate e (prepare e s)).1.pendingConfig :=
      if_pos hpending
    have hkept : (validate e (prepare e s)).1.staged = s.staged := by
      rcases validate_staged (e := e) (s := prepare e s) with h | h
      · exact h.trans prepare_staged
      · rw [h] at hopen
        cases hopen
    exact ⟨_, hkept ▸ hopen, hopen, validate_recent hfrozen hopen⟩

theorem tick_staged : (tick e s).1.staged = s.staged ∨ (tick e s).1.staged = none ∨
    ∃ version generation, (tick e s).1.staged = some ⟨version, generation, e.later⟩ := by
  have hvalidate := validate_staged (e := e) (s := prepare e s)
  rw [prepare_staged] at hvalidate
  rcases hactivation : e.activationPending with _ | _
  · rcases hblocks : validationBlocks e (prepare e s) (validate e (prepare e s)).1 with _ | _
    · rw [tick_contacting hactivation hblocks]
      rcases contact_staged (e := e) (s := (validate e (prepare e s)).1) with hkept | hnew
      · rw [hkept]
        exact hvalidate.imp_right Or.inl
      · exact Or.inr (Or.inr hnew)
    · rw [tick_blocked hactivation hblocks]
      exact hvalidate.imp_right Or.inl
  · rw [tick_activating hactivation]
    exact Or.inl activate_staged

/-- What is staged was staged before now. -/
def StagedBefore (t : ℕ) (s : Sync) : Prop := ∀ config, s.staged = some config → config.startedMs ≤ t

theorem tick_stagedBefore (h : StagedBefore t s) (hnow : t ≤ e.now) (hlater : e.now ≤ e.later) :
    StagedBefore e.later (tick e s).1 := by
  intro config hconfig
  rcases tick_staged (e := e) (s := s) with hkept | hnone | ⟨version, generation, hnew⟩
  · exact (h config (hkept ▸ hconfig)).trans (hnow.trans hlater)
  · rw [hnone] at hconfig
    cases hconfig
  · rw [hnew] at hconfig
    rw [← Option.some.inj hconfig]

/-- As long as no heartbeat is sent, none is put off. -/
theorem run_due {es : List Tick} (hready : ∀ e ∈ es, e.Ready) (hnone : ∀ o ∈ trace tick s es, o.isHeartbeat = false) :
    due (run tick s es) ≤ due s := by
  induction es generalizing s with
  | nil => exact le_refl _
  | cons e es ih =>
    obtain ⟨hkept, -⟩ := tick_quiet (hready e List.mem_cons_self) fun o ho => hnone o (List.mem_append_left _ ho)
    have hrest : due (run tick (tick e s).1 es) ≤ due (tick e s).1 :=
      ih (fun e' he' => hready e' (List.mem_cons_of_mem e he')) fun o ho => hnone o (List.mem_append_right _ ho)
    exact hrest.trans hkept

/-- A staged configuration that is in the way of a heartbeat stays in its way until thirty seconds are over. -/
theorem run_blocked {es : List Tick} {limit : ℕ} {config : Staged} (hready : ∀ e ∈ es, e.Ready)
    (hnone : ∀ o ∈ trace tick s es, o.isHeartbeat = false) (hdue : due s ≤ limit) (hlate : ∀ e ∈ es, limit ≤ e.now)
    (hstaged : s.staged = some config) : ∀ e ∈ es, e.now < config.startedMs + 30000 := by
  induction es generalizing s with
  | nil =>
    intro e he
    exact absurd he List.not_mem_nil
  | cons e es ih =>
    obtain ⟨hkept, hblocked⟩ := tick_quiet (hready e List.mem_cons_self) fun o ho => hnone o (List.mem_append_left _ ho)
    have hnow : limit ≤ e.now := hlate e List.mem_cons_self
    obtain ⟨config', hbefore, hafter, hrecent⟩ := hblocked (hdue.trans hnow)
    have hsame : config' = config := Option.some.inj (hbefore.symm.trans hstaged)
    rw [hsame] at hafter hrecent
    have hrest := ih (fun e' he' => hready e' (List.mem_cons_of_mem e he'))
      (fun o ho => hnone o (List.mem_append_right _ ho)) (hkept.trans hdue)
      (fun e' he' => hlate e' (List.mem_cons_of_mem e he')) hafter
    intro e' he'
    rcases List.mem_cons.mp he' with rfl | htail
    · exact hrecent
    · exact hrest e' htail

/-- The settings that a configuration may have, and the time for which the server may ask to be left alone. -/
structure Tick.Within (longest : ℕ) (e : Tick) : Prop where
  interval : e.heartbeatIntervalSeconds ≤ 3600
  retry : e.syncRetryMaxSeconds ≤ 86400
  enrollment : ∀ retryAfterMs, e.enrollment = .failed retryAfterMs → retryAfterMs ≤ longest
  heartbeat : ∀ retryAfterMs, e.heartbeat = .failed retryAfterMs → retryAfterMs ≤ longest

/-- The next heartbeat is due a day from now at the latest, or when the server asked for it. -/
structure DueWithin (longest t : ℕ) (s : Sync) : Prop where
  due : due s ≤ t + max 86400000 longest
  overriding : s.heartbeatIntervalOverrideSeconds ≤ 3600

variable {longest : ℕ}

theorem DueWithin.mono {t' : ℕ} (h : DueWithin longest t s) (hle : t ≤ t') : DueWithin longest t' s :=
  ⟨h.due.trans (Nat.add_le_add_right hle _), h.overriding⟩

theorem DueWithin.of_pace {s' : Sync} (h : DueWithin longest t s) (hpace : s'.pace = s.pace) : DueWithin longest t s' :=
  ⟨(due_of_pace hpace).trans_le h.due, (congrArg Pace.heartbeatIntervalOverrideSeconds hpace).trans_le h.overriding⟩

theorem prepare_dueWithin (h : DueWithin longest t s) : DueWithin longest t (prepare e s) := by
  have hreset : (observeDataReset e s).heartbeatIntervalOverrideSeconds = s.heartbeatIntervalOverrideSeconds := by
    unfold observeDataReset
    split_ifs <;> rfl
  have hreenrollment (s : Sync) :
      (observeReenrollment e s).heartbeatIntervalOverrideSeconds = s.heartbeatIntervalOverrideSeconds := by
    unfold observeReenrollment
    split <;> rfl
  have hpending (s : Sync) :
      (consumePending e s).heartbeatIntervalOverrideSeconds = s.heartbeatIntervalOverrideSeconds := by
    unfold consumePending
    split <;> rfl
  have hoverride : (prepare e s).heartbeatIntervalOverrideSeconds = s.heartbeatIntervalOverrideSeconds :=
    (hpending _).trans ((hreenrollment _).trans hreset)
  exact ⟨prepare_due.trans h.due, hoverride.trans_le h.overriding⟩

theorem scheduleRetry_dueWithin {retryAfterMs : ℕ} (hretry : e.syncRetryMaxSeconds ≤ 86400)
    (hlongest : retryAfterMs ≤ longest) (h : DueWithin longest e.now s) :
    DueWithin longest e.now (scheduleRetry e s retryAfterMs) := by
  have hdelay : retryDelayMs e.syncRetryMaxSeconds s.retryAttempt retryAfterMs e.random ≤ max 86400000 longest := by
    by_cases hzero : retryAfterMs = 0
    · rw [hzero]
      exact ((retryDelayMs_of_zero _ _ _).2.trans (maximumDelayMs_le hretry)).trans (Nat.le_max_left _ _)
    · rw [retryDelayMs_of_ne_zero hzero]
      exact hlongest.trans (Nat.le_max_right _ _)
  have hdue := h.due
  refine ⟨?_, h.overriding⟩
  simp only [SyncSchedule.due, scheduleRetry] at hdue ⊢
  split_ifs <;> omega

theorem enroll_dueWithin (hwithin : e.Within longest) (h : DueWithin longest e.now s) :
    DueWithin longest e.now (enroll e s).1 := by
  unfold enroll
  split_ifs
  · split
    · exact ⟨h.due, h.overriding⟩
    · have hdue := h.due
      refine ⟨?_, h.overriding⟩
      simp only [SyncSchedule.due, kLocalResourceRetryMs] at hdue ⊢
      omega
    · rename_i retryAfterMs hfailed
      exact scheduleRetry_dueWithin hwithin.retry (hwithin.enrollment retryAfterMs hfailed) h
  · exact h

theorem acceptHeartbeat_dueWithin (hwithin : e.Within longest) (h : DueWithin longest e.now s)
    (answer : HeartbeatAnswer) : DueWithin longest e.now (acceptHeartbeat e s answer) := by
  have hoverriding : (acceptHeartbeat e s answer).heartbeatIntervalOverrideSeconds ≤ 3600 := by
    simp only [acceptHeartbeat]
    split_ifs with hrecommended
    · exact hrecommended.2
    · exact Nat.zero_le _
  have hdelay : (acceptHeartbeat e s answer).nextHeartbeatMs ≤ e.now + 3960000 :=
    Nat.add_le_add_left (heartbeatDelayMs_le hwithin.interval hoverriding e.random) _
  have hretry : (acceptHeartbeat e s answer).nextRetryMs = s.nextRetryMs := rfl
  have hgate : (acceptHeartbeat e s answer).retryAfterGateMs = 0 := rfl
  have hdue := h.due
  refine ⟨?_, hoverriding⟩
  simp only [SyncSchedule.due, hretry, hgate] at hdue ⊢
  omega

theorem exchange_dueWithin (hwithin : e.Within longest) (h : DueWithin longest e.now s) :
    DueWithin longest e.now (exchange e s).1 := by
  unfold exchange
  split_ifs
  · unfold heartbeat
    split
    · exact acceptHeartbeat_dueWithin hwithin h _
    · have hdue := h.due
      refine ⟨?_, h.overriding⟩
      simp only [SyncSchedule.due, kLocalResourceRetryMs] at hdue ⊢
      omega
    · rename_i retryAfterMs hfailed
      exact scheduleRetry_dueWithin hwithin.retry (hwithin.heartbeat retryAfterMs hfailed) h
  · exact h
  · exact h.of_pace operate_pace

theorem contact_dueWithin (hwithin : e.Within longest) (h : DueWithin longest e.now s) :
    DueWithin longest e.now (contact e s).1 := by
  rcases hidle : idle e s with _ | _
  · rcases henrolled : e.enrolled with _ | _
    · rw [contact_enrolling hidle henrolled]
      exact enroll_dueWithin hwithin h
    · rw [contact_exchanging hidle henrolled]
      exact exchange_dueWithin hwithin (h.of_pace reportRollback_pace)
  · rw [contact_idle hidle]
    exact h

theorem tick_dueWithin (hwithin : e.Within longest) (hnow : t ≤ e.now) (hlater : e.now ≤ e.later)
    (h : DueWithin longest t s) : DueWithin longest e.later (tick e s).1 := by
  have hvalidated : DueWithin longest e.now (validate e (prepare e s)).1 :=
    (prepare_dueWithin (h.mono hnow)).of_pace validate_pace
  refine DueWithin.mono ?_ hlater
  rcases hactivation : e.activationPending with _ | _
  · rcases hblocks : validationBlocks e (prepare e s) (validate e (prepare e s)).1 with _ | _
    · rw [tick_contacting hactivation hblocks]
      exact contact_dueWithin hwithin hvalidated
    · rw [tick_blocked hactivation hblocks]
      exact hvalidated
  · rw [tick_activating hactivation]
    exact (h.mono hnow).of_pace activate_pace

/-- **A device that is enrolled and reaches the server sends heartbeats, whatever else there is to do**: it does not go
without one for longer than a day, or the time for which the server asked, and the thirty seconds that a configuration
is staged. -/
theorem heartbeat_attempted {before es es' : List Tick} {e e' : Tick}
    (hordered : Ordered Tick.now Tick.later 0 (before ++ (es ++ e :: (es' ++ [e']))))
    (hwithin : ∀ d ∈ before, d.Within longest) (hready : ∀ d ∈ es ++ e :: (es' ++ [e']), d.Ready)
    (hday : time Tick.later 0 before + max 86400000 longest ≤ e.now) (hthirty : e.now + 30000 ≤ e'.now) :
    ∃ o ∈ trace tick (run tick {} before) (es ++ e :: (es' ++ [e'])), o.isHeartbeat = true := by
  by_contra hquiet
  have hnone : ∀ o ∈ trace tick (run tick {} before) (es ++ e :: (es' ++ [e'])), o.isHeartbeat = false := by
    intro o ho
    by_contra h
    exact hquiet ⟨o, ho, by simpa using h⟩
  obtain ⟨hbefore, hwindow⟩ := hordered.append
  obtain ⟨hes, htail⟩ := hwindow.append
  have hdue : DueWithin longest (time Tick.later 0 before) (run tick {} before) :=
    inv_run (I := DueWithin longest) (A := Tick.Within longest)
      (fun t d s hA h hnow hlater => tick_dueWithin hA hnow hlater h) ⟨Nat.zero_le _, Nat.zero_le _⟩ hwithin hbefore
  have hstaged : StagedBefore (time Tick.later 0 before) (run tick {} before) :=
    inv_run (I := StagedBefore) (A := fun _ => True) (fun t d s _ h hnow hlater => tick_stagedBefore h hnow hlater)
      (fun config h => by cases h) (fun _ _ => trivial) hbefore
  generalize hs : run tick {} before = s at *
  -- until the heartbeat is due, and then until nothing can be in its way
  rw [trace_append, trace_cons] at hnone
  have hquiet₁ : ∀ o ∈ trace tick s es, o.isHeartbeat = false := fun o ho => hnone o (List.mem_append_left _ ho)
  have hquiet₂ : ∀ o ∈ (tick e (run tick s es)).2, o.isHeartbeat = false :=
    fun o ho => hnone o (List.mem_append_right _ (List.mem_append_left _ ho))
  have hquiet₃ : ∀ o ∈ trace tick (tick e (run tick s es)).1 (es' ++ [e']), o.isHeartbeat = false :=
    fun o ho => hnone o (List.mem_append_right _ (List.mem_append_right _ ho))
  have hdue₁ : due (run tick s es) ≤ e.now :=
    (run_due (fun d hd => hready d (List.mem_append_left _ hd)) hquiet₁).trans (hdue.due.trans hday)
  have hstaged₁ : StagedBefore (time Tick.later (time Tick.later 0 before) es) (run tick s es) :=
    inv_run (I := StagedBefore) (A := fun _ => True) (fun t d s _ h hnow hlater => tick_stagedBefore h hnow hlater)
      hstaged (fun _ _ => trivial) hes
  obtain ⟨hkept, hblocked⟩ := tick_quiet (hready e (List.mem_append_right _ List.mem_cons_self)) hquiet₂
  obtain ⟨config, hopen, hstill, -⟩ := hblocked hdue₁
  have hstarted : config.startedMs ≤ e.now := (hstaged₁ config hopen).trans htail.1
  have hlater : ∀ d ∈ es' ++ [e'], e.now ≤ d.now := fun d hd => htail.2.1.trans (htail.2.2.le_start hd)
  have hrecent : e'.now < config.startedMs + 30000 :=
    run_blocked (fun d hd => hready d (List.mem_append_right _ (List.mem_cons_of_mem e hd))) hquiet₃
      (hkept.trans hdue₁) hlater hstill e' (List.mem_append_right _ (List.mem_singleton.mpr rfl))
  omega

/-- A day after it was started, the device has sent a heartbeat. -/
theorem heartbeat_attempted_day :
    ∃ o ∈ trace tick (run tick {} []) ([] ++ Tick.online 86400000 :: ([] ++ [Tick.online 86430000])),
      o.isHeartbeat = true :=
  heartbeat_attempted ⟨by decide, by decide, by decide, by decide, trivial⟩ (by simp)
    (by
      intro d hd
      simp only [List.nil_append, List.mem_cons, List.not_mem_nil, or_false] at hd
      rcases hd with rfl | rfl <;> exact ⟨rfl, rfl, rfl, rfl, rfl, rfl⟩)
    (show time Tick.later 0 [] + max 86400000 0 ≤ 86400000 by decide) (by decide)

end Heartbeat

end PowerMonitor.Network.SyncSchedule
