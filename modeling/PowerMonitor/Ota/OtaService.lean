import PowerMonitor.Ota.Recovery

/-! # Updates: the service

`begin` at boot, `checkRunningImage` once the services run, `applyFromManifestUrl` for a manifest that the server offers,
the reports of the milestones and the rollback by hand, each as a program over the board. What the server
replies, the time and the partition's size are arguments; the transfers' results, the update window and every
failure are the environment's events. -/

namespace PowerMonitor.Ota.OtaService

open PowerMonitor.Lib.Binary PowerMonitor.Lib.Program PowerMonitor.Lib.Memory PowerMonitor.Security.Crypto
open PowerMonitor.Ota.ManifestV2 PowerMonitor.Ota.Recovery

/-! ### Reports -/

def reportMilestoneForState : State → Bytes
  | .manifestAuthenticated => ascii "manifest_authenticated"
  | .waitingForSchedule => ascii "waiting_for_schedule"
  | .downloadStarting => ascii "download_started"
  | .downloading | .binaryVerifying => ascii "downloading"
  | .partitionWriting => ascii "binary_verified"
  | .partitionWritten | .rebootPending => ascii "partition_written"
  | .rebooting => ascii "rebooting"
  | .postBootValidation => ascii "post_boot_validation"
  | .validated | .completed => ascii "validated"
  | .failed => ascii "failed"
  | .rollbackDetected | .rolledBack => ascii "rolled_back"
  | _ => []

def installMilestones : List Bytes :=
  [ascii "manifest_authenticated", ascii "download_started", ascii "downloading", ascii "binary_verified",
    ascii "partition_written", ascii "rebooting", ascii "post_boot_validation", ascii "validated"]

/-- The place among the milestones counted from one, zero for another text. -/
def milestoneIndex (value : Bytes) : ℕ := (installMilestones.idxOf? value).elim 0 (· + 1)

/-- How many milestones the last report has delivered. -/
def delivered (lastReported : Bytes) : ℕ :=
  if lastReported = ascii "waiting_for_schedule" then milestoneIndex (ascii "manifest_authenticated")
  else milestoneIndex lastReported

def nextReportMilestone (lastReported desired : Bytes) : Option Bytes :=
  if desired = [] ∨ lastReported = desired then none
  else if desired = ascii "waiting_for_schedule" then
    if lastReported = [] then some (ascii "manifest_authenticated")
    else if lastReported = ascii "manifest_authenticated" then some (ascii "waiting_for_schedule")
    else none
  else if desired = ascii "failed" then some (ascii "failed")
  else if desired = ascii "rolled_back" then
    if lastReported = ascii "failed" then none
    else if lastReported = ascii "rollback_detected" then some (ascii "rolled_back")
    else if delivered lastReported < milestoneIndex (ascii "rebooting") then
      installMilestones[delivered lastReported]?
    else some (ascii "rollback_detected")
  else if milestoneIndex desired ≤ delivered lastReported then none
  else installMilestones[delivered lastReported]?

def RecoveryRecord.nextMilestone (record : RecoveryRecord) : Option Bytes :=
  nextReportMilestone record.lastReportState (reportMilestoneForState record.state)

def postReport (reportState : Bytes) : OtaProg Bool := do
  let svc ← get
  if svc.status.deploymentId = [] ∨ svc.status.releaseId = [] ∨ svc.status.attempt = 0 then return false
  let posted : Bool ← perform Op.postReport
  if ¬ posted then return false
  let record := { svc.recovery with lastReportState := reportState }
  let saved : StoreResult ← perform (Op.save record)
  if recoverySaved saved then
    modify fun svc => { svc with recovery := record
                                 reportPending := (RecoveryRecord.nextMilestone record).isSome }
    return true
  modify fun svc => { svc with reportPending := true }
  return false

def flushPendingReportWithLease : OtaProg Bool := do
  let svc ← get
  match RecoveryRecord.nextMilestone svc.recovery with
  | some next => postReport next
  | none =>
    modify fun svc => { svc with reportPending := false }
    return true

def flushPendingReport : OtaProg Bool := do
  let svc ← get
  if svc.reportPending then flushPendingReportWithLease else return true

/-! ### The state of the running image -/

inductive PostBootHealthClass
  | healthy | healthyExternalDegraded | retryableLocalInitialization | localInitializationBlocked | fatalLocalRuntime
deriving DecidableEq

inductive PostBootAction
  | none | validate | defer | block | rollback | reportRollback | failUnexpectedImage
deriving DecidableEq

inductive RunningImageCheckResult
  | notPending | validationDeferred | validationBlocked | validated | validatedRecoverySaveFailed | rollbackInitiated
  | rollbackUnavailable | rollbackMarkFailed | partitionStateUnavailable | recoveryCheckpointFailed
deriving DecidableEq

def targetMatches (running : Image) (record : RecoveryRecord) : Bool :=
  record.pendingReboot && record.targetVersion ≠ [] && record.targetBuildHash ≠ [] &&
    running.version == record.targetVersion && running.buildHash == record.targetBuildHash

def classifyPostBoot (pendingImage : Bool) (health : PostBootHealthClass) (running : Image)
    (record : RecoveryRecord) : PostBootAction :=
  if pendingImage then
    if ¬ targetMatches running record then .rollback
    else match health with
      | .retryableLocalInitialization => .defer
      | .localInitializationBlocked => .block
      | .healthy | .healthyExternalDegraded => .validate
      | .fatalLocalRuntime => .rollback
  else if ¬ record.pendingReboot then .none
  else if targetMatches running record then .validate
  else if record.previousVersion ≠ [] ∧ record.previousBuildHash ≠ [] ∧ running.version = record.previousVersion ∧
      running.buildHash = record.previousBuildHash then .reportRollback
  else .failUnexpectedImage

def recoveryLoadFailureCode : StoreResult → Bytes
  | .notFound => ascii "ota_post_boot_recovery_missing"
  | .loadFailed => ascii "ota_post_boot_recovery_load_failed"
  | .parseFailed => ascii "ota_post_boot_recovery_parse_failed"
  | _ => ascii "ota_post_boot_recovery_invalid"

def initiatePostBootRollback (failureCode : Bytes) : OtaProg RunningImageCheckResult := do
  let persisted ← setState .failed (ascii "post_boot_failed") failureCode true true
  modify fun svc => { svc with reportPending := recoverySaved persisted }
  let possible : Bool ← perform Op.rollbackPossible
  if ¬ possible then return .rollbackUnavailable
  let marked : Bool ← perform Op.markInvalid
  if ¬ marked then return .rollbackMarkFailed
  return .rollbackInitiated

def enterRestrictedRecovery (failureCode : Bytes) : OtaProg Unit :=
  modify fun svc =>
    { svc with restrictedRecoveryMode := true
               reportPending := false
               status := svc.status.enter .failed (ascii "restricted_local_recovery") failureCode }

/-- A pending image without the evidence for it: back to the image before, or else the restricted services only. -/
def preServiceRollback (failureCode : Bytes) : OtaProg Bool := do
  let result ← initiatePostBootRollback failureCode
  if result = .rollbackInitiated then return false
  enterRestrictedRecovery failureCode
  return true

/-! ### Boot -/

/-- The record of the last update, and the status taken from it. -/
def adoptRecord (recovered : RecoveryRecord) (svc : Service) : Service :=
  { svc with
    recovery := recovered
    recoveryLoadResult := .loaded
    status :=
      { svc.status with
        deploymentId := recovered.deploymentId
        releaseId := recovered.releaseId
        attempt := recovered.attempt
        state := recovered.state
        targetVersion := recovered.targetVersion
        targetSha256 := recovered.targetSha256
        targetBuildHash := recovered.targetBuildHash
        imageSize := recovered.imageSize
        bytesReceived := recovered.bytesReceived
        progressPercent := recovered.progressPercent
        pendingReboot := recovered.pendingReboot
        lastError := recovered.failureCode
        lastResult := stateName recovered.state } }

/-- `begin`, without a record. -/
def beginUnrecorded (result : StoreResult) : OtaProg Bool := do
  modify fun svc => { svc with recoveryLoadResult := result }
  let pendingImage ← runningImagePendingVerification
  if result ≠ .notFound ∨ pendingImage then
    modify fun svc => { svc with status := { svc.status with lastError := recoveryLoadFailureCode result
                                                             lastResult := ascii "recovery_unavailable" } }
  if pendingImage then preServiceRollback (recoveryLoadFailureCode result) else return true

/-- `begin`, with a record of an update that was to be booted. -/
def beginPending (runningPending : Bool) (recovered : RecoveryRecord) : OtaProg Bool := do
  let svc ← get
  match classifyPostBoot runningPending .healthy svc.firmware recovered with
  | .validate =>
    if runningPending then
      let _ ← setState .postBootValidation (ascii "post_boot_validation") [] true false
      return true
    modify fun svc => { svc with status := { svc.status with pendingReboot := false, progressPercent := 100 } }
    let _ ← setState .validated (ascii "installed_and_verified_recovered") [] true true
    return true
  | .reportRollback =>
    modify fun svc => { svc with status := { svc.status with rollbackDetected := true, pendingReboot := false } }
    let failureCode := if recovered.failureCode = [] then ascii "ota_rollback_detected" else recovered.failureCode
    let _ ← setState .rolledBack (ascii "automatic_rollback") failureCode true true
    modify fun svc => { svc with reportPending := true }
    return true
  | .rollback =>
    preServiceRollback (if svc.firmware.version ≠ recovered.targetVersion then ascii "ota_post_boot_version_mismatch"
      else ascii "ota_post_boot_build_hash_mismatch")
  | _ =>
    let _ ← setState .failed (ascii "failed") (ascii "ota_post_boot_version_unexpected") true true
    modify fun svc => { svc with reportPending := true }
    return true

def begin : OtaProg Bool := do
  let loaded : Loaded ← perform Op.load
  match loaded with
  | .error result => beginUnrecorded result
  | .ok recovered =>
    modify (adoptRecord recovered)
    let runningPending ← runningImagePendingVerification
    if runningPending ∧ ¬ recovered.pendingReboot then preServiceRollback (ascii "ota_post_boot_recovery_missing")
    else if recovered.pendingReboot then beginPending runningPending recovered
    else
      if recovered.state ≠ .idle then modify fun svc => { svc with reportPending := true }
      return true

/-- Why a pending image is not validated. -/
def rejectionCode (svc : Service) (health : PostBootHealthClass) : Bytes :=
  if svc.recoveryLoadResult ≠ .loaded then recoveryLoadFailureCode svc.recoveryLoadResult
  else if ¬ svc.recovery.pendingReboot then ascii "ota_post_boot_recovery_missing"
  else if svc.firmware.version ≠ svc.recovery.targetVersion then ascii "ota_post_boot_version_mismatch"
  else if svc.firmware.buildHash ≠ svc.recovery.targetBuildHash then ascii "ota_post_boot_build_hash_mismatch"
  else if health = .fatalLocalRuntime then ascii "ota_post_boot_local_runtime_failed"
  else ascii "ota_post_boot_health_failed"

/-- `checkRunningImage`, of an image to be validated. -/
def validateImage : OtaProg RunningImageCheckResult := do
  let checkpoint ← setState .postBootValidation (ascii "post_boot_validation") [] true false
  if ¬ recoverySaved checkpoint then initiatePostBootRollback (ascii "ota_post_boot_checkpoint_failed")
  else
    let marked : Bool ← perform Op.markValid
    if ¬ marked then initiatePostBootRollback (ascii "ota_mark_valid_failed")
    else
      modify fun svc => { svc with status := { svc.status with pendingReboot := false, progressPercent := 100 } }
      let validated ← setState .validated (ascii "installed_and_verified") [] true true
      modify fun svc => { svc with reportPending := true }
      return if recoverySaved validated then .validated else .validatedRecoverySaveFailed

def checkRunningImage (health : PostBootHealthClass) : OtaProg RunningImageCheckResult := do
  let state : Option ImageState ← perform Op.imageState
  match state with
  | none => return .partitionStateUnavailable
  | some .pendingVerify =>
    let svc ← get
    match classifyPostBoot true health svc.firmware svc.recovery with
    | .defer =>
      let checkpoint ← setState .postBootValidation (ascii "post_boot_validation_retryable") [] true false
      if ¬ recoverySaved checkpoint then initiatePostBootRollback (ascii "ota_post_boot_checkpoint_failed")
      else return .validationDeferred
    | .block =>
      let checkpoint ← setState .failed (ascii "post_boot_local_initialization_blocked")
        (ascii "ota_post_boot_local_initialization_blocked") true true
      return if recoverySaved checkpoint then .validationBlocked else .recoveryCheckpointFailed
    | .validate => validateImage
    | _ => initiatePostBootRollback (rejectionCode svc health)
  | _ => return .notPending

/-! ### An update -/

/-- What of the device's configuration a manifest is checked against. -/
structure Configuration where
  crypto : Primitives
  otaManifestKey : Option Key32
  deviceId : Bytes
  protocol : Bytes
  hardwareTarget : Bytes

/-- The server's reply to the request for a manifest. -/
inductive Reply
  | unavailable
  | malformed (error : Bytes)
  | manifest (manifest : Manifest)

/-- Whether the service that runs `firmware` accepts a manifest. -/
def acceptManifest (cfg : Configuration) (firmware : Image) (now : ℤ) (partitionSize : UInt32) (m : Manifest) :
    Except Bytes Unit :=
  verifyManifest cfg.crypto cfg.otaManifestKey
    { deviceId := cfg.deviceId, currentVersion := firmware.version, currentProtocol := cfg.protocol,
      hardwareTarget := cfg.hardwareTarget, nowUnixSeconds := now, partitionSizeBytes := partitionSize } m

/-- An attempt that waits for its update window may be offered again. -/
def sameWaitingAttempt (prior : RecoveryRecord) (m : Manifest) : Bool :=
  m.attempt == prior.attempt && prior.state == .waitingForSchedule && prior.releaseId == m.releaseId &&
    prior.targetVersion == m.version && prior.targetSha256 == m.sha256 && prior.targetBuildHash == m.buildHash

/-- The comparison with the record of the last update. -/
def checkAttempt (prior : RecoveryRecord) (m : Manifest) : Except Bytes Unit :=
  if prior.deploymentId ≠ [] ∧ prior.deploymentId = m.deploymentId then
    if prior.releaseId ≠ m.releaseId then .error (ascii "ota_deployment_release_changed")
    else if m.attempt < prior.attempt ∨ (m.attempt = prior.attempt ∧ ¬ sameWaitingAttempt prior m) then
      .error (ascii "ota_attempt_replayed")
    else .ok ()
  else .ok ()

/-- The record of a new attempt, or of one that goes on. -/
def attemptRecord (firmware : Image) (prior : RecoveryRecord) (m : Manifest) : RecoveryRecord :=
  let continuing := prior.deploymentId = m.deploymentId ∧ prior.releaseId = m.releaseId ∧ m.attempt = prior.attempt
  { deploymentId := m.deploymentId
    releaseId := m.releaseId
    targetVersion := m.version
    targetSha256 := m.sha256
    targetBuildHash := m.buildHash
    previousVersion := firmware.version
    previousBuildHash := firmware.buildHash
    imageSize := m.sizeBytes
    attempt := m.attempt
    lastReportState := if continuing then prior.lastReportState else []
    evidenceSequence := if continuing then prior.evidenceSequence else 0 }

def beginAttempt (m : Manifest) (svc : Service) : Service :=
  { svc with
    recovery := attemptRecord svc.firmware svc.recovery m
    status :=
      { svc.status with
        deploymentId := m.deploymentId
        releaseId := m.releaseId
        attempt := m.attempt
        targetVersion := m.version
        targetSha256 := m.sha256
        targetBuildHash := m.buildHash
        imageSize := m.sizeBytes
        bytesReceived := 0
        progressPercent := 0
        rollbackDetected := false
        pendingReboot := false } }

def restoreRunningBootPartition : OtaProg (Except Bytes Unit) := do
  let restored : Bool ← perform Op.restoreBoot
  return if restored then .ok () else .error (ascii "ota_boot_partition_restore_failed")

/-- Back to the running image after the other slot was selected; the error that remains. -/
def failClosedAfterBootSelection (failureCode : Bytes) : OtaProg Bytes := do
  let restored ← restoreRunningBootPartition
  modify fun svc => { svc with status := { svc.status with pendingReboot := false } }
  let _ ← setState .failed (ascii "fail_closed") failureCode true true
  return match restored with
    | .ok _ => failureCode
    | .error restoreError => restoreError

def validateSelectedPartition (m : Manifest) : Option Image → Except Bytes Unit
  | none => .error (ascii "ota_partition_identity_unavailable")
  | some image =>
    if image.version ≠ m.version then .error (ascii "ota_boot_partition_version_mismatch")
    else if image.buildHash ≠ m.buildHash then .error (ascii "ota_boot_partition_build_hash_mismatch")
    else .ok ()

def verifySelectedBootPartition (m : Manifest) : OtaProg (Except Bytes Unit) := do
  let image : Option Image ← perform Op.selectedImage
  return validateSelectedPartition m image

/-- The image written whole, and its slot selected for the next boot. -/
def finishUpdate (m : Manifest) (image : Image) : OtaProg (Except Bytes Unit) := do
  let _ ← setState .binaryVerifying (ascii "binary_verifying") [] false true
  let _ ← setState .partitionWriting (ascii "partition_writing") [] false true
  let ended : Bool ← perform (Op.endUpdate image)
  if ¬ ended then return .error (ascii "ota_finalize_failed")
  match ← verifySelectedBootPartition m with
  | .error code => return .error (← failClosedAfterBootSelection code)
  | .ok _ =>
    let _ ← setState .partitionWritten (ascii "partition_written") [] false true
    return .ok ()

def downloadAndApply (m : Manifest) : OtaProg (Except Bytes Unit) := do
  perform (Op.noteStarted m)
  let opened : Except Bytes Unit ← perform Op.openImage
  match opened with
  | .error code => return .error code
  | .ok _ =>
    let _ ← setState .downloading (ascii "downloading") [] false true
    let written : UInt32 × Except Bytes Image ← perform (Op.writeImage m.sizeBytes)
    modify fun svc =>
      { svc with status := { svc.status with
          bytesReceived := written.1
          progressPercent := (written.1.toNat * 100 / m.sizeBytes.toNat).toUInt8 } }
    match written.2 with
    | .error code => return .error code
    | .ok image => finishUpdate m image

def verifyRecoveryBeforeReboot : OtaProg (Except Bytes Unit) := do
  let loaded : Loaded ← perform Op.load
  let svc ← get
  return match loaded with
    | .error _ => .error (ascii "ota_recovery_final_readback_failed")
    | .ok readback =>
      if svc.recovery ≠ readback then .error (ascii "ota_recovery_final_identity_mismatch")
      else if ¬ readback.pendingReboot ∨ readback.state ≠ .rebooting ∨ readback.deploymentId = [] ∨
          readback.releaseId = [] ∨ readback.targetVersion = [] ∨ readback.targetSha256 = [] ∨
          readback.targetBuildHash = [] ∨ readback.attempt = 0 ∨ readback.imageSize = 0 ∨
          readback.bytesReceived ≠ readback.imageSize ∨ readback.progressPercent ≠ 100 then
        .error (ascii "ota_recovery_final_state_invalid")
      else .ok ()

/-- The checkpoints after the download, up to the reboot into the new image. -/
def finishInstall : OtaProg Bool := do
  let written ← setState .partitionWritten (ascii "partition_written") [] true true
  if ¬ recoverySaved written then
    let _ ← failClosedAfterBootSelection (ascii "ota_partition_checkpoint_save_failed")
    return false
  let _ ← flushPendingReportWithLease
  modify fun svc => { svc with status := { svc.status with pendingReboot := true, progressPercent := 100 } }
  let pending ← setState .rebootPending (ascii "verified_pending_reboot") [] true true
  if ¬ recoverySaved pending then
    let _ ← failClosedAfterBootSelection (ascii "ota_reboot_pending_checkpoint_save_failed")
    return false
  let _ ← flushPendingReportWithLease
  let rebooting ← setState .rebooting (ascii "rebooting") [] true true
  if ¬ recoverySaved rebooting then
    let _ ← failClosedAfterBootSelection (ascii "ota_rebooting_checkpoint_save_failed")
    return false
  let _ ← flushPendingReportWithLease
  match ← verifyRecoveryBeforeReboot with
  | .error code =>
    let _ ← failClosedAfterBootSelection code
    return false
  | .ok _ => return true

/-- An attempt that passed the checks, up to the reboot. -/
def runAttempt (m : Manifest) : OtaProg Bool := do
  modify (beginAttempt m)
  let authenticated ← setState .manifestAuthenticated (ascii "manifest_authenticated") [] true true
  if ¬ recoverySaved authenticated then return false
  let _ ← flushPendingReportWithLease
  let within : Bool ← perform Op.withinUpdateWindow
  if ¬ within then
    let _ ← setState .waitingForSchedule (ascii "waiting_for_schedule") (ascii "outside_ota_update_window") true true
    return false
  let starting ← setState .downloadStarting (ascii "download_starting") [] true true
  if ¬ recoverySaved starting then return false
  let _ ← flushPendingReportWithLease
  match ← downloadAndApply m with
  | .error code =>
    let _ ← setState .failed (ascii "failed") code true true
    let _ ← flushPendingReportWithLease
    return false
  | .ok _ => finishInstall

/-- A manifest that the server offers: authenticated, compared with the last update, run. -/
def applyManifest (cfg : Configuration) (m : Manifest) (now : ℤ) (partitionSize : UInt32) : OtaProg Bool := do
  let _ ← setState .manifestReceived (ascii "manifest_received") [] false true
  let svc ← get
  match acceptManifest cfg svc.firmware now partitionSize m with
  | .error error =>
    let _ ← setState .manifestRejected (ascii "manifest_rejected") error false true
    return false
  | .ok _ =>
    perform (Op.noteAccepted m)
    match checkAttempt svc.recovery m with
    | .error error =>
      let _ ← setState .manifestRejected (ascii "manifest_rejected") error false true
      return false
    | .ok _ => runAttempt m

def applyReply (cfg : Configuration) (reply : Reply) (now : ℤ) (partitionSize : UInt32) : OtaProg Bool :=
  match reply with
  | .unavailable => do
    let _ ← setState .manifestUnavailable (ascii "current") [] false true
    return false
  | .malformed error => do
    let _ ← setState .manifestRejected (ascii "manifest_rejected") error false true
    return false
  | .manifest m => applyManifest cfg m now partitionSize

/-- In restricted recovery, the image to go back to must not be overwritten. -/
def rollbackMustBeResolved : OtaProg Bool := do
  let svc ← get
  if svc.restrictedRecoveryMode then perform Op.rollbackPossible else return false

/-- An update from the server's reply; whether the device reboots into the new image. -/
def applyFromManifestUrl (cfg : Configuration) (reply : Reply) (now : ℤ) (partitionSize : UInt32) : OtaProg Bool := do
  let admitted : Bool ← perform Op.admission
  if ¬ admitted then return false
  let safeMode : Bool ← perform Op.safeMode
  if safeMode then
    let _ ← setState .failed (ascii "rejected") (ascii "ota_disabled_in_safe_mode") false true
    return false
  let unresolved ← rollbackMustBeResolved
  if unresolved then
    let _ ← setState .failed (ascii "rejected") (ascii "ota_restricted_rollback_must_be_resolved") false true
    return false
  let _ ← setState .manifestCheck (ascii "manifest_check") [] false true
  let fetched : Bool ← perform Op.fetchManifest
  if ¬ fetched then
    let _ ← setState .failed (ascii "failed") (ascii "ota_manifest_fetch_failed") false true
    return false
  applyReply cfg reply now partitionSize

/-! ### Rollback by hand -/

/-- Whether the running image is marked invalid, which reboots the device. -/
def rollbackAndReboot : OtaProg Bool := do
  let admitted : Bool ← perform Op.admission
  if ¬ admitted then return false
  let possible : Bool ← perform Op.rollbackPossible
  if ¬ possible then return false
  modify fun svc => { svc with status := { svc.status with pendingReboot := true } }
  let checkpoint ← setState .rebooting (ascii "manual_rollback_pending") [] true false
  if ¬ recoverySaved checkpoint then
    modify fun svc => { svc with status := { svc.status with pendingReboot := false } }
    return false
  let marked : Bool ← perform Op.markInvalid
  if ¬ marked then
    modify fun svc => { svc with status := { svc.status with pendingReboot := false } }
    let _ ← setState .failed (ascii "manual_rollback_mark_failed") (ascii "ota_manual_rollback_mark_failed") true true
    return false
  return true

/-! ### Runs of the device -/

inductive Command
  | apply (reply : Reply) (now : ℤ) (partitionSize : UInt32)
  | check (health : PostBootHealthClass)
  | report
  | rollback

/-- The command's program; its value is whether the device reboots. -/
def Command.prog (cfg : Configuration) : Command → OtaProg Bool
  | .apply reply now partitionSize => applyFromManifestUrl cfg reply now partitionSize
  | .check health => return (← checkRunningImage health) == .rollbackInitiated
  | .report => do
    let _ ← flushPendingReport
    return false
  | .rollback => rollbackAndReboot

/-- The memory after a program, none if the power is lost or the device reboots. -/
def memoryAfter (reboots : Bool → Bool) : Option ((Bool × Service) × List Event) → Option Service
  | some ((value, svc), _) => if reboots value then none else some svc
  | none => none

/-- The service as the firmware starts. -/
def powerOn (b : Board) : Service := { firmware := b.running }

/-- A board that no update has touched. -/
structure Initial (b : Board) : Prop where
  stored : b.stored = none
  imageState : b.imageState = .valid
  selected : b.selected = false
  kept : b.kept = false
  returned : b.returned = false
  accepted : b.accepted = []
  started : b.started = []
  marked : b.marked = []

/-- **The device over any number of boots**: the memory, if it runs, and the board. Commands come in any order among
those that `allowed` has, the power is lost between any two calls, and every call ends in any way that
`admitted` has. -/
inductive Runs (cfg : Configuration) (allowed : Service → Board → Command → Prop) (admitted : Op → Event → Prop) :
    Option Service → Board → Prop
  | initial {b : Board} (h : Initial b) : Runs cfg allowed admitted none b
  | boot {b : Board} (es : List Event) (h : Runs cfg allowed admitted none b)
      (hes : Along device (fun o e _ => admitted o e) (begin.run (powerOn b.boot)) es b.boot) :
      Runs cfg allowed admitted (memoryAfter (fun value => !value) (run device (begin.run (powerOn b.boot)) es b.boot).2)
        (run device (begin.run (powerOn b.boot)) es b.boot).1
  | command {svc : Service} {b : Board} (c : Command) (es : List Event) (h : Runs cfg allowed admitted (some svc) b)
      (hc : allowed svc b c) (hes : Along device (fun o e _ => admitted o e) ((c.prog cfg).run svc) es b) :
      Runs cfg allowed admitted (memoryAfter id (run device ((c.prog cfg).run svc) es b).2)
        (run device ((c.prog cfg).run svc) es b).1
  | powerLoss {svc : Service} {b : Board} (h : Runs cfg allowed admitted (some svc) b) :
      Runs cfg allowed admitted none b

/-- A command, if the service runs. -/
def stepCommand (cfg : Configuration) (x : Option Service × Board) (c : Command × List Event) :
    Option Service × Board :=
  match x.1 with
  | none => x
  | some svc =>
    let out := run device ((c.1.prog cfg).run svc) c.2 x.2
    (memoryAfter id out.2, out.1)

/-- A boot of the board. -/
def bootStep (b : Board) (es : List Event) : Option Service × Board :=
  let out := run device (begin.run (powerOn b.boot)) es b.boot
  (memoryAfter (fun value => !value) out.2, out.1)

variable {cfg : Configuration} {allowed : Service → Board → Command → Prop} {admitted : Op → Event → Prop}

theorem runs_bootStep {b : Board} (h : Runs cfg allowed admitted none b) (es : List Event)
    (hes : ∀ e ∈ es, ∀ o, admitted o e) : Runs cfg allowed admitted (bootStep b es).1 (bootStep b es).2 :=
  .boot es h (along_of_forall _ _ fun e he o _ => hes e he o)

theorem runs_stepCommand {x : Option Service × Board} (h : Runs cfg allowed admitted x.1 x.2)
    (c : Command × List Event) (hc : ∀ svc, allowed svc x.2 c.1) (hes : ∀ e ∈ c.2, ∀ o, admitted o e) :
    Runs cfg allowed admitted (stepCommand cfg x c).1 (stepCommand cfg x c).2 := by
  obtain ⟨none | svc, b⟩ := x
  · exact h
  · exact .command c.1 c.2 h (hc svc) (along_of_forall _ _ fun e he o _ => hes e he o)

end PowerMonitor.Ota.OtaService
