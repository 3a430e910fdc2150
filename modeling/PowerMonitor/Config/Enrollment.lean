import PowerMonitor.Config.AtomicConfigStore
import PowerMonitor.Lib.Component
import PowerMonitor.Reset.Policy
import PowerMonitor.Security.Crypto
import PowerMonitor.Storage.Segment

/-! # Enrollment

The enrollment of a device is one record in a two-slot store; beside it the preferences hold the cursors,
a token and the copies of an older format. Starting a re-enrollment (`beginReenrollment`) clears the cursors
and then commits a record with the token; a boot (`loadOrMigrateEnrollment`) loads the record in force, and
refuses one that is bound to an activation whose floors the cursors have not reached. -/

namespace PowerMonitor.Config.Enrollment

open PowerMonitor.Lib.Binary PowerMonitor.Lib.Json PowerMonitor.Lib.Program PowerMonitor.Lib.Component
open PowerMonitor.Config.AtomicConfigStore (BlobProg Store LoadResult CommitResult)
open PowerMonitor.Reset.Policy (maximumResetBoundary)
open PowerMonitor.Security.Crypto (hexEncode constantTimeEqual)
open PowerMonitor.Storage.Segment (cString View.unsigned32)

/-! ### The preferences -/

inductive NumberKey
  | serverAck | serverMax | removeSeq | eventAck | serverCfg | dataGen | resetFloor
  deriving DecidableEq, Repr

inductive BytesKey
  | enrollTok | deviceId | enrollSec | otaPub
  deriving DecidableEq, Repr

/-- The store of the record, and the preferences. -/
structure Nvs where
  blob : Store := fun _ => none
  number : NumberKey → Option ℕ := fun _ => none
  bytes : BytesKey → Option Bytes := fun _ => none

inductive Op
  | blob (o : AtomicConfigStore.Op)
  | putNumber (key : NumberKey) (value : ℕ)
  | getNumber (key : NumberKey)
  | putBytes (key : BytesKey) (value : Bytes)
  | getBytes (key : BytesKey)
  | isKey (key : BytesKey)
  | remove (key : BytesKey)
  deriving DecidableEq

abbrev Ans : Op → Type
  | .blob o => AtomicConfigStore.Ans o
  | .putNumber _ _ => Bool
  | .getNumber _ => Option ℕ
  | .putBytes _ _ => Bool
  | .getBytes _ => Option Bytes
  | .isKey _ => Bool
  | .remove _ => Bool

/-- What the environment does to a write: it is done, or it is done or not and reports what it likes. -/
inductive Event
  | done
  | faulty (reported effective : Bool)
  deriving DecidableEq

def Event.effective : Event → Bool
  | .done => true
  | .faulty _ effective => effective

def Event.reported : Event → Bool
  | .done => true
  | .faulty reported _ => reported

/-- The event as one of the store of the record. -/
def Event.toBlob : Event → AtomicConfigStore.Op → Store → AtomicConfigStore.Event
  | .faulty reported effective, .write key value, s => .faulty reported (if effective then some value else s key)
  | _, _, _ => .done

def device : Device Op Ans Event Nvs where
  act
    | .blob o, e, s =>
      let out := AtomicConfigStore.device.act o (e.toBlob o s.blob) s.blob
      ({ s with blob := out.1 }, out.2)
    | .putNumber key value, e, s =>
      (if e.effective then { s with number := Function.update s.number key (some value) } else s, e.reported)
    | .getNumber key, _, s => (s, s.number key)
    | .putBytes key value, e, s =>
      (if e.effective then { s with bytes := Function.update s.bytes key (some value) } else s, e.reported)
    | .getBytes key, _, s => (s, s.bytes key)
    | .isKey key, _, s => (s, (s.bytes key).isSome)
    | .remove key, e, s =>
      (if e.effective then { s with bytes := Function.update s.bytes key none } else s, e.reported)

abbrev NvsProg := Prog Op Ans

/-- The store of the record as a component. -/
def blobPart : Inclusion AtomicConfigStore.Op Op AtomicConfigStore.Ans Ans where
  op := .blob
  answer _ r := r

def putNumber (key : NumberKey) (value : ℕ) : NvsProg Bool := Prog.op (Op.putNumber key value)
def getNumber (key : NumberKey) : NvsProg (Option ℕ) := Prog.op (Op.getNumber key)
def putBytes (key : BytesKey) (value : Bytes) : NvsProg Bool := Prog.op (Op.putBytes key value)
def getBytes (key : BytesKey) : NvsProg (Option Bytes) := Prog.op (Op.getBytes key)
def isKey (key : BytesKey) : NvsProg Bool := Prog.op (Op.isKey key)
def remove (key : BytesKey) : NvsProg Bool := Prog.op (Op.remove key)

def loadActive : NvsProg (Option LoadResult) := component blobPart AtomicConfigStore.loadActive
def loadPrevious (generation : ℕ) : NvsProg (Option LoadResult) :=
  component blobPart (AtomicConfigStore.loadPrevious generation)
def rollbackToPrevious (generation : ℕ) : NvsProg (Option LoadResult) :=
  component blobPart (AtomicConfigStore.rollbackToPrevious generation)
def commit (payload : Bytes) : NvsProg (Option CommitResult) := component blobPart (AtomicConfigStore.commit payload)
def anyDataPresent : NvsProg Bool := component blobPart AtomicConfigStore.anyDataPresent

/-- A step that is taken if those before it succeeded. -/
def andThen (c : Bool) (p : NvsProg Bool) : NvsProg Bool := if c then p else return false

/-- A write that is read back; for 64 and for 32 bits. -/
def writeChecked (key : NumberKey) (value : ℕ) : NvsProg Bool := do
  let written ← putNumber key value
  if !written then return false
  else
    let readback ← getNumber key
    return readback = some value

def writeULong64Checked : NumberKey → ℕ → NvsProg Bool := writeChecked
def writeUIntChecked : NumberKey → ℕ → NvsProg Bool := writeChecked

def writeBytesChecked (key : BytesKey) (value : Bytes) : NvsProg Bool :=
  if value = [] then return false
  else do
    let written ← putBytes key value
    if !written then return false
    else
      let readback ← getBytes key
      return readback = some value

def erasePreferenceChecked (key : BytesKey) : NvsProg Bool := do
  let present ← isKey key
  if !present then return true
  else
    let removed ← remove key
    if !removed then return false
    else
      let present ← isKey key
      return !present

def erasePreferencesChecked : List BytesKey → NvsProg Bool
  | [] => return true
  | key :: keys => do
    let erased ← erasePreferenceChecked key
    let others ← erasePreferencesChecked keys
    return erased && others

def eraseLegacyEnrollmentCopies : NvsProg Bool := erasePreferencesChecked [.deviceId, .enrollSec, .otaPub]

def setEnrollmentToken (frozen : Bool) (token : Bytes) : NvsProg Bool :=
  if frozen || decide (token.length < 32) || decide (256 < token.length) then return false
  else writeBytesChecked .enrollTok token

def clearEnrollmentToken (frozen : Bool) : NvsProg Bool :=
  if frozen then return false else erasePreferenceChecked .enrollTok

/-! ### The record -/

def hexNibble (c : UInt8) : Option UInt8 :=
  if 48 ≤ c ∧ c ≤ 57 then some (c - 48)
  else if 97 ≤ c ∧ c ≤ 102 then some (c - 97 + 10)
  else if 65 ≤ c ∧ c ≤ 70 then some (c - 65 + 10)
  else none

def hexDecode : Bytes → Option Bytes
  | [] => some []
  | [_] => none
  | high :: low :: rest => do
    let high ← hexNibble high
    let low ← hexNibble low
    let rest ← hexDecode rest
    return ((high <<< 4) ||| low) :: rest

/-- An activation the record is bound to. -/
structure EnrollmentActivationInfo where
  policyBound : Bool := false
  pending : Bool := false
  operationId : Bytes := []
  deviceId : Bytes := []
  sourceCardDeviceId : Bytes := []
  sourceCardGeneration : UInt64 := 0
  sourceDataGeneration : UInt64 := 0
  targetDataGeneration : UInt64 := 0
  resetBoundary : UInt64 := 0
  sequenceFloor : UInt64 := 0
  deriving DecidableEq

structure EnrollmentRecord where
  deviceId : Bytes := []
  enrollmentSecret : Bytes := []
  otaPublicKey : Bytes := []
  pendingReenrollmentToken : Bytes := []
  reenrollmentGeneration : UInt64 := 0
  activation : EnrollmentActivationInfo := {}
  deriving DecidableEq

/-- The secret of a record, if it has a permitted length. -/
def recordSecret (text : Option Bytes) : Option Bytes :=
  (text.bind fun secretHex => hexDecode (cString secretHex)).filter
    fun secret => 32 ≤ secret.length ∧ secret.length ≤ 64

def parseActivation (document : Bytes → View) (pending : Bool) : Option EnrollmentActivationInfo := do
  let unsignedAt (name : String) : UInt64 := (document (ascii name)).asUnsigned
  let operationId ← (document (ascii "activation_operation_id")).text
  let deviceId ← (document (ascii "device_id")).text
  let source ← (document (ascii "source_card_device_id")).text
  let activation : EnrollmentActivationInfo := {
    policyBound := true
    pending := pending
    operationId := cString operationId
    deviceId := cString deviceId
    sourceCardDeviceId := cString source
    sourceCardGeneration := unsignedAt "source_card_generation"
    sourceDataGeneration := unsignedAt "source_data_generation"
    targetDataGeneration := unsignedAt "target_data_generation"
    resetBoundary := unsignedAt "reset_boundary"
    sequenceFloor := unsignedAt "sequence_floor" }
  if (document (ascii "activation_policy_bound")).booleanOr false &&
      (document (ascii "source_card_generation")).isUnsigned &&
      (document (ascii "source_data_generation")).isUnsigned &&
      (document (ascii "target_data_generation")).isUnsigned &&
      (document (ascii "reset_boundary")).isUnsigned && (document (ascii "sequence_floor")).isUnsigned &&
      Reset.Policy.lowercaseUuid activation.operationId && Reset.Policy.lowercaseUuid activation.deviceId &&
      Reset.Policy.boundedPrintable activation.sourceCardDeviceId 64 && activation.sourceCardGeneration > 0 &&
      activation.targetDataGeneration ≥ activation.sourceDataGeneration &&
      activation.targetDataGeneration ≤ maximumResetBoundary && activation.resetBoundary ≤ maximumResetBoundary &&
      (if pending then decide (activation.sequenceFloor = 0)
        else decide (activation.sequenceFloor ≥ activation.resetBoundary)) then
    some activation
  else none

/-- A record that waits for its activation. -/
def loadPending (document : Bytes → View) (tokenIsNull : Bool) (generation : UInt64) : Option EnrollmentRecord := do
  if (document (ascii "enrolled")).booleanOr false || !tokenIsNull then none
  else
    let otaPublicKey ← (document (ascii "ota_public_key")).text
    let activation ← parseActivation document true
    let secret ← recordSecret (document (ascii "secret_hex")).text
    if 4096 < (cString otaPublicKey).length then none
    else return {
      deviceId := activation.deviceId
      enrollmentSecret := secret
      otaPublicKey := cString otaPublicKey
      reenrollmentGeneration := generation
      activation := activation }

/-- A record without an identity, perhaps with the token of a re-enrollment. -/
def loadUnenrolled (document : Bytes → View) (tokenIsNull : Bool) (generation : UInt64) :
    Option EnrollmentRecord :=
  if tokenIsNull then some { reenrollmentGeneration := generation }
  else do
    let token ← (document (ascii "pending_reenrollment_token")).text
    if (cString token).length < 32 ∨ 256 < (cString token).length ∨ generation = 0 then none
    else return { pendingReenrollmentToken := cString token, reenrollmentGeneration := generation }

def loadEnrolled (document : Bytes → View) (schema : ℕ) (tokenIsNull : Bool) (generation : UInt64) :
    Option EnrollmentRecord := do
  if !tokenIsNull then none
  else
    let deviceId ← (document (ascii "device_id")).text
    let secret ← recordSecret (document (ascii "secret_hex")).text
    let otaPublicKey ← (document (ascii "ota_public_key")).text
    let record : EnrollmentRecord := {
      deviceId := cString deviceId
      enrollmentSecret := secret
      otaPublicKey := cString otaPublicKey
      reenrollmentGeneration := generation }
    if record.deviceId.length ≠ 36 ∨ 4096 < record.otaPublicKey.length then none
    else if schema = 2 ∧ (document (ascii "activation_policy_bound")).booleanOr false = true then
      if (document (ascii "activation_pending")).booleanOr false then none
      else
        let activation ← parseActivation document false
        if activation.deviceId ≠ record.deviceId then none else return { record with activation := activation }
    else return record

def loadEnrollmentRecord (j : NullableLibrary) (payload : Bytes) : Option EnrollmentRecord := do
  let document ← j.deserialize payload
  let schema := View.unsigned32 (document (ascii "record_schema_version"))
  let tokenIsNull := j.isNull payload (ascii "pending_reenrollment_token")
  let generationIsNull := j.isNull payload (ascii "reenrollment_generation")
  let enrolled ← (document (ascii "enrolled")).boolean
  if schema ≠ 1 ∧ schema ≠ 2 then none
  else if !generationIsNull && !(document (ascii "reenrollment_generation")).isUnsigned then none
  else
    let generation := if generationIsNull then 0 else (document (ascii "reenrollment_generation")).asUnsigned
    if schema = 2 ∧ (document (ascii "activation_pending")).booleanOr false = true then
      loadPending document tokenIsNull generation
    else if !enrolled then loadUnenrolled document tokenIsNull generation
    else loadEnrolled document schema tokenIsNull generation

/-! ### Starting a re-enrollment -/

def reenrollmentPrerequisitesReady (tokenVerified ackCursorVerified configCursorVerified : Bool) : Bool :=
  tokenVerified && ackCursorVerified && configCursorVerified

/-- The token and the cursors before the record is committed. -/
def prepareReenrollment (frozen : Bool) (token : Bytes) : NvsProg Bool := do
  let tokenVerified ← setEnrollmentToken frozen token
  let ackCursorVerified ← andThen tokenVerified (writeULong64Checked .serverAck 0)
  let maximumCursorVerified ← andThen ackCursorVerified (writeULong64Checked .serverMax 0)
  let removalCursorVerified ← andThen maximumCursorVerified (writeULong64Checked .removeSeq 0)
  let eventCursorVerified ← andThen removalCursorVerified (writeULong64Checked .eventAck 0)
  let configCursorVerified ← andThen eventCursorVerified (writeUIntChecked .serverCfg 0)
  return reenrollmentPrerequisitesReady tokenVerified ackCursorVerified configCursorVerified

def reenrollmentDocument (token : Bytes) (generation : UInt64) : Document :=
  [(ascii "record_schema_version", .scalar (.unsigned 1)),
    (ascii "enrolled", .scalar (.boolean false)),
    (ascii "pending_reenrollment_token", .scalar (.text token)),
    (ascii "reenrollment_generation", .scalar (.unsigned generation))]

/-- The record that was committed, if it is the one in force. -/
def committedRecord (j : NullableLibrary) (payload : Bytes) : NvsProg (Option EnrollmentRecord) := do
  let committed ← commit payload
  match committed with
  | none => return none
  | some committed =>
    let verified ← loadActive
    return (verified.filter fun v => v.generation = committed.generation).bind fun v =>
      loadEnrollmentRecord j v.payload

def commitReenrollmentPending (j : NullableLibrary) (token : Bytes) (generation : UInt64) : NvsProg Bool :=
  if token.length < 32 ∨ 256 < token.length ∨ generation = 0 then return false
  else do
    let record ← committedRecord j (j.serialize (reenrollmentDocument token generation))
    return record.any fun r => r.deviceId = [] && r.enrollmentSecret = [] && r.otaPublicKey = [] &&
      r.reenrollmentGeneration = generation && constantTimeEqual r.pendingReenrollmentToken token

def beginReenrollment (j : NullableLibrary) (frozen : Bool) (currentGeneration : UInt64) (token : Bytes) :
    NvsProg Bool :=
  if frozen || decide (token.length < 32) || decide (256 < token.length) then return false
  else if currentGeneration.toNat = 2 ^ 64 - 1 then return false
  else do
    let prepared ← prepareReenrollment frozen token
    if !prepared then return false
    else
      let committed ← commitReenrollmentPending j token (currentGeneration + 1)
      if !committed then return false
      else
        let _ ← clearEnrollmentToken frozen
        return true

/-! ### Booting -/

/-- The enrollment a boot publishes. -/
structure PublishedEnrollment where
  deviceId : Bytes := []
  enrolled : Bool := false
  enrollmentSecret : Bytes := []
  otaPublicKey : Bytes := []
  pendingReenrollmentToken : Bytes := []
  reenrollmentGeneration : UInt64 := 0
  activation : EnrollmentActivationInfo := {}
  deriving DecidableEq

/-- An identity counts once its activation is not pending. -/
def EnrollmentRecord.published (r : EnrollmentRecord) : PublishedEnrollment where
  deviceId := if r.activation.pending then [] else r.deviceId
  enrolled := !r.activation.pending && r.deviceId ≠ []
  enrollmentSecret := r.enrollmentSecret
  otaPublicKey := r.otaPublicKey
  pendingReenrollmentToken := r.pendingReenrollmentToken
  reenrollmentGeneration := r.reenrollmentGeneration
  activation := if r.activation.pending then r.activation else {}

/-- The record in force; one that cannot be read is rolled back. -/
def loadRecordInForce (j : NullableLibrary) : NvsProg (Option EnrollmentRecord) := do
  let loaded ← loadActive
  match loaded with
  | none => return none
  | some loaded =>
    match loadEnrollmentRecord j loaded.payload with
    | some record => return some record
    | none =>
      let previous ← loadPrevious loaded.generation
      match previous with
      | none => return none
      | some previous =>
        match loadEnrollmentRecord j previous.payload with
        | none => return none
        | some record =>
          let activated ← rollbackToPrevious loaded.generation
          return (activated.filter fun a =>
            a.generation = previous.generation ∧ a.payload = previous.payload).map fun _ => record

/-- The cursors have reached the floors of the activation the record is bound to. -/
def activationReached (activation : EnrollmentActivationInfo) : NvsProg Bool := do
  let dataGen ← getNumber .dataGen
  let resetFloor ← getNumber .resetFloor
  let serverAck ← getNumber .serverAck
  let serverMax ← getNumber .serverMax
  let removeSeq ← getNumber .removeSeq
  return !(activation.policyBound && !activation.pending &&
    (decide (dataGen.getD 0 < activation.targetDataGeneration.toNat) ||
      decide (resetFloor.getD 0 < activation.resetBoundary.toNat) ||
      decide (serverAck.getD 0 < activation.sequenceFloor.toNat) ||
      decide (serverMax.getD 0 < activation.sequenceFloor.toNat) ||
      decide (removeSeq.getD 0 < activation.sequenceFloor.toNat)))

/-- The token beside the record: it may stay beside a pending one, but not beside an identity. -/
def clearTokenAfter (frozen : Bool) (record : EnrollmentRecord) : NvsProg Bool := do
  if record.pendingReenrollmentToken ≠ [] then
    let _ ← clearEnrollmentToken frozen
    return true
  else if record.published.enrolled || record.activation.pending then clearEnrollmentToken frozen
  else return true

/-- A re-enrollment that was started prepares the cursors again. -/
def resumeReenrollment (frozen : Bool) (token : Bytes) : NvsProg Bool :=
  if token ≠ [] then prepareReenrollment frozen token else return true

def restoreEnrollment (frozen : Bool) (record : EnrollmentRecord) : NvsProg (Option PublishedEnrollment) := do
  let prepared ← resumeReenrollment frozen record.pendingReenrollmentToken
  if !prepared then return none
  else
    let reached ← activationReached record.activation
    if !reached then return none
    else
      let cleared ← clearTokenAfter frozen record
      if !cleared then return none
      else
        let erased ← eraseLegacyEnrollmentCopies
        if !erased then return none else return some record.published

def enrollmentDocument (deviceId enrollmentSecret otaPublicKey : Bytes) (generation : UInt64) : Document :=
  [(ascii "record_schema_version", .scalar (.unsigned 1)),
    (ascii "enrolled", .scalar (.boolean true)),
    (ascii "device_id", .scalar (.text deviceId)),
    (ascii "secret_hex", .scalar (.text (hexEncode enrollmentSecret))),
    (ascii "ota_public_key", .scalar (.text otaPublicKey)),
    (ascii "reenrollment_generation", .scalar (.unsigned generation))]

def commitEnrollmentRecord (j : NullableLibrary) (deviceId enrollmentSecret otaPublicKey : Bytes)
    (generation : UInt64) : NvsProg Bool :=
  if deviceId.length ≠ 36 ∨ enrollmentSecret.length < 32 ∨ 64 < enrollmentSecret.length ∨
      4096 < otaPublicKey.length then return false
  else do
    let record ← committedRecord j (j.serialize (enrollmentDocument deviceId enrollmentSecret otaPublicKey generation))
    return record.any fun r => r.deviceId = deviceId && r.otaPublicKey = otaPublicKey &&
      r.pendingReenrollmentToken = [] && r.reenrollmentGeneration = generation &&
      r.enrollmentSecret.length = enrollmentSecret.length &&
      constantTimeEqual (hexEncode r.enrollmentSecret) (hexEncode enrollmentSecret)

def tombstoneDocument (generation : UInt64) : Document :=
  [(ascii "record_schema_version", .scalar (.unsigned 1)),
    (ascii "enrolled", .scalar (.boolean false)),
    (ascii "reenrollment_generation", .scalar (.unsigned generation))]

def commitEnrollmentTombstone (j : NullableLibrary) (generation : UInt64) : NvsProg Bool := do
  let record ← committedRecord j (j.serialize (tombstoneDocument generation))
  return record.any fun r => r.deviceId = [] && r.enrollmentSecret = [] && r.otaPublicKey = [] &&
    r.pendingReenrollmentToken = [] && r.reenrollmentGeneration = generation

/-- A store without a record: the copies of the older format, or no identity. -/
def migrateLegacyEnrollment (j : NullableLibrary) (frozen : Bool) : NvsProg (Option PublishedEnrollment) := do
  let device ← getBytes .deviceId
  let secret ← getBytes .enrollSec
  let publicKey ← getBytes .otaPub
  let device := cString (device.getD [])
  let secret := secret.getD []
  let publicKey := cString (publicKey.getD [])
  if device.length = 36 ∧ 32 ≤ secret.length ∧ secret.length ≤ 64 ∧ publicKey.length ≤ 4096 then do
    let committed ← commitEnrollmentRecord j device secret publicKey 0
    if !committed then return none
    else
      let erased ← eraseLegacyEnrollmentCopies
      if !erased then return none
      else
        let cleared ← clearEnrollmentToken frozen
        if !cleared then return none
        else return some { deviceId := device, enrolled := true, enrollmentSecret := secret, otaPublicKey := publicKey }
  else do
    let committed ← commitEnrollmentTombstone j 0
    if !committed then return none
    else
      let erased ← eraseLegacyEnrollmentCopies
      if !erased then return none else return some {}

def loadOrMigrateEnrollment (j : NullableLibrary) (frozen : Bool) : NvsProg (Option PublishedEnrollment) := do
  let record ← loadRecordInForce j
  match record with
  | some record => restoreEnrollment frozen record
  | none =>
    let present ← anyDataPresent
    if present then return none else migrateLegacyEnrollment j frozen

end PowerMonitor.Config.Enrollment
