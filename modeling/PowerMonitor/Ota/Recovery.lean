import PowerMonitor.Lib.Memory
import PowerMonitor.Ota.ManifestV2

/-! # Updates: the board and the recovery record

The board keeps the recovery record of the last update, two application slots and the state of the running image;
the service keeps a copy of the record and a status, both lost with the power. A save of the record is atomic: it leaves
the record in force or the new one, and may report a failure either way. The boot loader runs a newly
selected image once for verification, and goes back to the image before it unless it was marked valid by then.

`Device` acts under an event that the environment chooses: a call is done, fails, or is done and reported as failed. The
notes of the board (`accepted`, `started`, `marked`) are for the theorems; the code does not read them. -/

namespace PowerMonitor.Ota.Recovery

open PowerMonitor.Lib.Binary PowerMonitor.Lib.Program PowerMonitor.Lib.Memory PowerMonitor.Ota.ManifestV2

inductive State
  | idle | manifestCheck | manifestUnavailable | manifestReceived | manifestAuthenticated | manifestRejected
  | waitingForSchedule | waitingForResources | downloadStarting | downloading | binaryVerifying | partitionWriting
  | partitionWritten | rebootPending | rebooting | postBootValidation | validated | completed | failed
  | rollbackDetected | rolledBack
deriving DecidableEq

def stateName : State → Bytes
  | .idle => ascii "idle"
  | .manifestCheck => ascii "manifest_check"
  | .manifestUnavailable => ascii "manifest_unavailable"
  | .manifestReceived => ascii "manifest_received"
  | .manifestAuthenticated => ascii "manifest_authenticated"
  | .manifestRejected => ascii "manifest_rejected"
  | .waitingForSchedule => ascii "waiting_for_schedule"
  | .waitingForResources => ascii "waiting_for_resources"
  | .downloadStarting => ascii "download_starting"
  | .downloading => ascii "downloading"
  | .binaryVerifying => ascii "binary_verifying"
  | .partitionWriting => ascii "partition_writing"
  | .partitionWritten => ascii "partition_written"
  | .rebootPending => ascii "reboot_pending"
  | .rebooting => ascii "rebooting"
  | .postBootValidation => ascii "post_boot_validation"
  | .validated => ascii "validated"
  | .completed => ascii "completed"
  | .failed => ascii "failed"
  | .rollbackDetected => ascii "rollback_detected"
  | .rolledBack => ascii "rolled_back"

structure RecoveryRecord where
  deploymentId : Bytes := []
  releaseId : Bytes := []
  targetVersion : Bytes := []
  targetSha256 : Bytes := []
  targetBuildHash : Bytes := []
  previousVersion : Bytes := []
  previousBuildHash : Bytes := []
  imageSize : UInt32 := 0
  bytesReceived : UInt32 := 0
  progressPercent : UInt8 := 0
  attempt : UInt32 := 0
  evidenceSequence : UInt64 := 0
  state : State := .idle
  lastReportState : Bytes := []
  failureCode : Bytes := []
  pendingReboot : Bool := false
deriving DecidableEq

structure OtaStatus where
  state : State := .idle
  deploymentId : Bytes := []
  releaseId : Bytes := []
  attempt : UInt32 := 0
  pendingReboot : Bool := false
  rollbackDetected : Bool := false
  bytesReceived : UInt32 := 0
  imageSize : UInt32 := 0
  progressPercent : UInt8 := 0
  targetVersion : Bytes := []
  targetSha256 : Bytes := []
  targetBuildHash : Bytes := []
  lastResult : Bytes := ascii "never"
  lastError : Bytes := []

/-- What a save or a load of the record comes to. -/
inductive StoreResult
  | notRequired | loaded | savedAndVerified | notFound | loadFailed | parseFailed | commitFailed | readbackFailed
  | identityMismatch | evidenceSequenceExhausted
deriving DecidableEq

/-- An application image, by the identity in its descriptor. -/
structure Image where
  version : Bytes
  buildHash : Bytes
deriving DecidableEq

/-- What the boot loader notes of the running image. -/
inductive ImageState
  | valid | pendingVerify | invalid
deriving DecidableEq

/-! ### The board -/

structure Board where
  stored : Option RecoveryRecord
  running : Image
  imageState : ImageState
  /-- The image in the other slot, if there is a whole one. -/
  other : Option Image
  /-- The other slot is selected for the next boot. -/
  selected : Bool
  /-- The other slot still holds the image that ran when the running one was selected. -/
  kept : Bool
  /-- The running image is one that the boot loader went back to. -/
  returned : Bool
  accepted : List Manifest
  started : List (Bytes × UInt32)
  /-- The images marked valid, each with the record stored then. -/
  marked : List (Image × Option RecoveryRecord)

/-- **The boot loader.** -/
def Board.boot (b : Board) : Board :=
  match b.selected, b.other with
  | true, some image =>
    { b with running := image, imageState := .pendingVerify, other := some b.running, selected := false, kept := true,
             returned := false }
  | _, other =>
    if b.imageState = .valid then { b with selected := false }
    else match other with
      | some image =>
        { b with running := image, imageState := .valid, other := some b.running, selected := false, kept := false,
                 returned := b.kept }
      | none => { b with imageState := .valid, selected := false }

inductive Op
  | load
  | save (record : RecoveryRecord)
  | imageState
  | rollbackPossible
  | markValid
  | markInvalid
  | admission
  | safeMode
  | fetchManifest
  | withinUpdateWindow
  | openImage
  | writeImage (size : UInt32)
  | endUpdate (image : Image)
  | selectedImage
  | restoreBoot
  | postReport
  | noteAccepted (manifest : Manifest)
  | noteStarted (manifest : Manifest)

/-- The record read, or why there is none. -/
abbrev Loaded := Except StoreResult RecoveryRecord

@[reducible] def Ans : Op → Type
  | .load => Loaded
  | .save _ => StoreResult
  | .imageState => Option ImageState
  | .openImage => Except Bytes Unit
  | .writeImage _ => UInt32 × Except Bytes Image
  | .selectedImage => Option Image
  | .noteAccepted _ | .noteStarted _ => Unit
  | _ => Bool

inductive Event
  | ok | fail | unsaid
  /-- The image is transferred whole, with the digest of the manifest. -/
  | image (image : Image)
  /-- The transfer stops after so many bytes, or before the first one. -/
  | stopped (received : UInt32) (code : Bytes)

/-- What a call does to the board, and its answer. -/
def act : (o : Op) → Event → Board → Board × Ans o
  | .load, e, b =>
    match e, b.stored with
    | .fail, _ => (b, .error .loadFailed)
    | .unsaid, _ => (b, .error .parseFailed)
    | _, some record => (b, .ok record)
    | _, none => (b, .error .notFound)
  | .save record, e, b =>
    match e with
    | .ok => ({ b with stored := some record }, .savedAndVerified)
    | .unsaid => ({ b with stored := some record }, .readbackFailed)
    | _ => (b, .commitFailed)
  | .imageState, e, b =>
    match e with
    | .fail => (b, none)
    | _ => (b, some b.imageState)
  | .markValid, e, b =>
    let b := { b with marked := b.marked ++ [(b.running, b.stored)] }
    match e with
    | .ok => ({ b with imageState := .valid }, true)
    | .unsaid => ({ b with imageState := .valid }, false)
    | _ => (b, false)
  | .markInvalid, e, b =>
    match e with
    | .ok => ({ b with imageState := .invalid }, true)
    | _ => (b, false)
  | .openImage, e, b =>
    match e with
    | .ok => (b, .ok ())
    | .stopped _ code => (b, .error code)
    | _ => (b, .error (ascii "ota_dns_resolution_failed"))
  | .writeImage size, e, b =>
    let b := { b with other := none, kept := false }
    match e with
    | .image image => (b, size, .ok image)
    | .stopped received code => (b, received, .error code)
    | _ => (b, 0, .error (ascii "ota_stream_failure"))
  | .endUpdate image, e, b =>
    match e with
    | .ok => ({ b with other := some image, selected := true }, true)
    | .unsaid => ({ b with other := some image, selected := true }, false)
    | _ => (b, false)
  | .selectedImage, e, b =>
    match e with
    | .fail => (b, none)
    | _ => (b, if b.selected then b.other else none)
  | .restoreBoot, e, b =>
    match e with
    | .ok => ({ b with selected := false }, true)
    | .unsaid => ({ b with selected := false }, false)
    | _ => (b, false)
  | .noteAccepted manifest, _, b => ({ b with accepted := manifest :: b.accepted }, ())
  | .noteStarted manifest, _, b => ({ b with started := b.started ++ [(manifest.deploymentId, manifest.attempt)] }, ())
  | .rollbackPossible, e, b | .admission, e, b | .safeMode, e, b | .fetchManifest, e, b | .withinUpdateWindow, e, b
  | .postReport, e, b =>
    match e with
    | .ok => (b, true)
    | _ => (b, false)

def device : Device Op Ans Event Board := ⟨act⟩

/-! ### The service's memory -/

structure Service where
  /-- The firmware that runs. -/
  firmware : Image
  recovery : RecoveryRecord := {}
  status : OtaStatus := {}
  recoveryLoadResult : StoreResult := .notFound
  reportPending : Bool := false
  restrictedRecoveryMode : Bool := false

abbrev OtaProg := MemProg Service Op Ans

def recoverySaved (result : StoreResult) : Bool := result == .savedAndVerified

/-- The record that `persistState` saves. -/
def candidate (svc : Service) (state : State) (failureCode : Bytes) : RecoveryRecord :=
  { svc.recovery with
    evidenceSequence := svc.recovery.evidenceSequence + 1
    state := state
    failureCode := failureCode
    pendingReboot := svc.status.pendingReboot
    targetBuildHash := svc.status.targetBuildHash
    imageSize := svc.status.imageSize
    bytesReceived := svc.status.bytesReceived
    progressPercent := svc.status.progressPercent }

def persistState (state : State) (failureCode : Bytes) : OtaProg StoreResult := do
  let svc ← get
  if svc.recovery.deploymentId = [] ∨ svc.recovery.releaseId = [] then return .identityMismatch
  if svc.recovery.evidenceSequence = 0xFFFFFFFFFFFFFFFF then return .evidenceSequenceExhausted
  let record := candidate svc state failureCode
  let saved : StoreResult ← perform (Op.save record)
  if ¬ recoverySaved saved then return saved
  modify fun svc => { svc with recovery := record, recoveryLoadResult := .loaded }
  return saved

/-- The status with a new state. -/
def OtaStatus.enter (status : OtaStatus) (state : State) (result error : Bytes) : OtaStatus :=
  { status with state := state, lastResult := result, lastError := error }

def setState (state : State) (result error : Bytes) (persist report : Bool) : OtaProg StoreResult := do
  modify fun svc => { svc with status := svc.status.enter state result error }
  let persisted ← if persist then persistState state error else pure .notRequired
  if report ∧ persist ∧ recoverySaved persisted ∧ state ≠ .idle ∧ state ≠ .manifestUnavailable then
    modify fun svc => { svc with reportPending := true }
  return persisted

/-- The running image waits for verification, as far as its state can be read. -/
def runningImagePendingVerification : OtaProg Bool := do
  let state : Option ImageState ← perform Op.imageState
  return state == some .pendingVerify

end PowerMonitor.Ota.Recovery
