import PowerMonitor.Config.ProvisioningTransaction
import PowerMonitor.Config.Rollback
import PowerMonitor.Lib.Component
import PowerMonitor.Security.Crypto

/-! # Provisioning

A provisioning replaces the enrollment token, the salt and the hash of the administrator and the configuration, one
write after another. It writes a journal first and removes it last; a recovery that finds the journal rolls the
configuration back if it was replaced, and restores the three credentials. -/

namespace PowerMonitor.Config.Provisioning

open PowerMonitor.Lib.Binary PowerMonitor.Lib.Program PowerMonitor.Lib.Component
open PowerMonitor.Config.AtomicConfigStore (Store LoadResult CommitResult)
open PowerMonitor.Config.ProvisioningTransaction
open PowerMonitor.Security.Crypto (constantTimeEqual)

/-! ### The keys -/

inductive BytesKey
  | provisionTxn | enrollTok | adminSalt | adminHash
  deriving DecidableEq, Repr

/-- The slots of the configuration, and the other keys. -/
structure Nvs where
  config : Store := fun _ => none
  bytes : BytesKey → Option Bytes := fun _ => none

inductive Op
  | config (o : AtomicConfigStore.Op)
  | putBytes (key : BytesKey) (value : Bytes)
  | getBytes (key : BytesKey)
  | isKey (key : BytesKey)
  | remove (key : BytesKey)
  deriving DecidableEq

abbrev Ans : Op → Type
  | .config o => AtomicConfigStore.Ans o
  | .putBytes _ _ => Bool
  | .getBytes _ => Option Bytes
  | .isKey _ => Bool
  | .remove _ => Bool

/-- An operation is done, unless the power is lost before it. -/
inductive Event
  | done
  deriving DecidableEq

def device : Device Op Ans Event Nvs where
  act
    | .config o, _, s =>
      let out := AtomicConfigStore.device.act o .done s.config
      ({ s with config := out.1 }, out.2)
    | .putBytes key value, _, s => ({ s with bytes := Function.update s.bytes key (some value) }, true)
    | .getBytes key, _, s => (s, s.bytes key)
    | .isKey key, _, s => (s, (s.bytes key).isSome)
    | .remove key, _, s => ({ s with bytes := Function.update s.bytes key none }, true)

abbrev NvsProg := Prog Op Ans

/-- The slots of the configuration as a component. -/
def configPart : Inclusion AtomicConfigStore.Op Op AtomicConfigStore.Ans Ans where
  op := .config
  answer _ r := r

def putBytes (key : BytesKey) (value : Bytes) : NvsProg Bool := Prog.op (Op.putBytes key value)
def getBytes (key : BytesKey) : NvsProg (Option Bytes) := Prog.op (Op.getBytes key)
def isKey (key : BytesKey) : NvsProg Bool := Prog.op (Op.isKey key)
def remove (key : BytesKey) : NvsProg Bool := Prog.op (Op.remove key)

def loadActive : NvsProg (Option LoadResult) := component configPart AtomicConfigStore.loadActive
def loadPrevious (generation : ℕ) : NvsProg (Option LoadResult) :=
  component configPart (AtomicConfigStore.loadPrevious generation)
def rollbackToPrevious (generation : ℕ) : NvsProg (Option LoadResult) :=
  component configPart (AtomicConfigStore.rollbackToPrevious generation)
def commit (payload : Bytes) : NvsProg (Option CommitResult) := component configPart (AtomicConfigStore.commit payload)

/-- The value of a key; an empty one is none. -/
def read (key : BytesKey) : NvsProg (Option Bytes) := do
  let value ← getBytes key
  return value.filter (· ≠ [])

def write (key : BytesKey) (value : Bytes) : NvsProg Bool :=
  if value = [] then return false else putBytes key value

def erase (key : BytesKey) : NvsProg Bool := do
  let present ← isKey key
  if !present then return true else remove key

def writeBytesChecked (key : BytesKey) (value : Bytes) : NvsProg Bool :=
  if value = [] then return false
  else do
    let written ← putBytes key value
    if !written then return false
    else
      let readback ← getBytes key
      return readback = some value

def erasePreferenceChecked (key : BytesKey) : NvsProg Bool := do
  let present ← isKey key
  if !present then return true
  else
    let removed ← remove key
    if !removed then return false
    else
      let present ← isKey key
      return !present

/-! ### The configuration -/

/-- The configuration as the service uses it: its checks, its format and the hash of a password. -/
structure ConfigLibrary (γ : Type) where
  normalize : γ → γ
  validate : γ → Bool
  wifiSsid : γ → Bytes
  configVersion : γ → UInt32
  withVersion : UInt32 → γ → γ
  serializePersistentConfig : γ → Bytes → Bytes
  parsePersistentConfig : Bytes → Option (γ × Bytes)
  passwordHash : Bytes → Bytes → Option Bytes

variable {γ : Type} (lib : ConfigLibrary γ)

/-- The configuration in force with its password and its generation. One that does not parse is rolled back. -/
def loadPersistentConfig : NvsProg (Option (γ × Bytes × ℕ)) := do
  let loaded ← loadActive
  match loaded with
  | none => return none
  | some loaded =>
    match lib.parsePersistentConfig loaded.payload with
    | some (value, wifiPassword) => return some (value, wifiPassword, loaded.generation)
    | none =>
      let previous ← loadPrevious loaded.generation
      match previous with
      | none => return none
      | some previous =>
        match lib.parsePersistentConfig previous.payload with
        | none => return none
        | some (value, wifiPassword) =>
          let activated ← rollbackToPrevious loaded.generation
          match activated with
          | none => return none
          | some activated =>
            if activated.generation ≠ previous.generation ∨ activated.payload ≠ previous.payload then return none
            else return some (value, wifiPassword, activated.generation)

/-- The network and its password are both given or both absent. -/
def wifiPairValid (wifiSsid wifiPassword : Bytes) : Bool :=
  if wifiSsid = [] then wifiPassword = [] else 8 ≤ wifiPassword.length && wifiPassword.length ≤ 63

def commitPersistentConfig (value : γ) (wifiPassword : Bytes) : NvsProg (Option ℕ) :=
  if !lib.validate value || !wifiPairValid (lib.wifiSsid value) wifiPassword then return none
  else if lib.serializePersistentConfig value wifiPassword = [] then return none
  else do
    let committed ← commit (lib.serializePersistentConfig value wifiPassword)
    return committed.map CommitResult.generation

def verifyPersistentConfig (expected : γ) (expectedPassword : Bytes) : NvsProg Bool := do
  let persisted ← loadPersistentConfig lib
  match persisted with
  | none => return false
  | some (value, wifiPassword, _) =>
    return lib.serializePersistentConfig value [] = lib.serializePersistentConfig expected [] &&
      constantTimeEqual wifiPassword expectedPassword

/-! ### The recovery -/

def clearProvisioningTransaction : NvsProg Bool := do
  let erased ← erase .provisionTxn
  if !erased then return false
  else
    let present ← isKey .provisionTxn
    return !present

/-- A credential as the journal has it. -/
def restoreCredential (key : BytesKey) (value : Bytes) : NvsProg Bool :=
  if value = [] then erasePreferenceChecked key else writeBytesChecked key value

def restoreCredentials (journal : Journal) : NvsProg Bool := do
  let token ← restoreCredential .enrollTok journal.enrollmentToken
  if !token then return false
  else
    let salt ← restoreCredential .adminSalt journal.adminSalt
    if !salt then return false
    else restoreCredential .adminHash journal.adminHash

/-- The configuration is that of the journal again. -/
def rollbackConfig (journal : Journal) (activeGeneration : ℕ) : NvsProg Bool :=
  match recoveryAction journal.previousConfigGeneration activeGeneration with
  | .conflict => return false
  | .restoreCredentials => return true
  | .rollbackConfigAndRestoreCredentials => do
    let restored ← rollbackToPrevious activeGeneration
    return restored.any fun r => r.generation = journal.previousConfigGeneration.toNat

/-- True if there is no journal (any more); false is fail-closed. -/
def recoverIncompleteProvisioning : NvsProg Bool := do
  let present ← isKey .provisionTxn
  if !present then return true
  else
    let encoded ← read .provisionTxn
    match encoded.bind decode with
    | none => return false
    | some journal =>
      let active ← loadPersistentConfig lib
      match active with
      | none => return false
      | some (_, _, activeGeneration) =>
        let rolledBack ← rollbackConfig journal activeGeneration
        if !rolledBack then return false
        else
          let restored ← restoreCredentials journal
          if !restored then return false else clearProvisioningTransaction

/-! ### The provisioning -/

/-- The arguments. -/
structure Request (γ : Type) where
  candidate : γ
  wifiPassword : Bytes
  enrollmentToken : Bytes
  adminPassword : Bytes

/-- What a call finds outside of the store: the locks it gets, the gate of a reset, the configuration in memory and
its generation, and the random salt. -/
structure Circumstances where
  locked : Bool := true
  frozen : Bool := false
  persistentGeneration : UInt64
  configVersion : UInt32 := 0
  tokenAllowed : Bool := true
  adminAllowed : Bool := true
  stateLocked : Bool := true
  published : Bool := true
  republished : Bool := true
  salt : Bytes

/-- The journal is written and read back; one that does not fit the format is not. -/
def writeJournal (journal : Journal) : NvsProg Bool :=
  if encode journal = [] then return false
  else do
    let written ← write .provisionTxn (encode journal)
    if !written then do
      let _ ← erase .provisionTxn
      return false
    else
      let readback ← read .provisionTxn
      if readback = some (encode journal) ∧ readback.bind decode = some journal then return true
      else do
        let _ ← erase .provisionTxn
        return false

def prepareProvisioningTransaction (persistentGeneration : UInt64) : NvsProg Bool :=
  if persistentGeneration = 0 then return false
  else do
    let token ← getBytes .enrollTok
    let salt ← getBytes .adminSalt
    let hash ← getBytes .adminHash
    writeJournal {
      previousConfigGeneration := persistentGeneration
      enrollmentToken := token.getD []
      adminSalt := salt.getD []
      adminHash := hash.getD [] }

def setEnrollmentToken (allowed : Bool) (token : Bytes) : NvsProg Bool :=
  if allowed && 32 ≤ token.length && token.length ≤ 256 then writeBytesChecked .enrollTok token else return false

def saveCredential (salt password : Bytes) : NvsProg Bool :=
  match lib.passwordHash password salt with
  | none => return false
  | some hash => do
    let saved ← writeBytesChecked .adminSalt salt
    if !saved then return false else writeBytesChecked .adminHash hash

def persistAdminVerifier (now : Circumstances) (password : Bytes) : NvsProg Bool :=
  if !now.adminAllowed || decide (password.length < 12) || decide (128 < password.length) then return false
  else do
    let saved ← saveCredential lib now.salt password
    return saved && now.stateLocked

/-- The arguments are accepted. -/
def accepts (request : Request γ) : Bool :=
  lib.validate (lib.normalize request.candidate) && lib.wifiSsid (lib.normalize request.candidate) ≠ [] &&
    8 ≤ request.wifiPassword.length && request.wifiPassword.length ≤ 63 && 32 ≤ request.enrollmentToken.length &&
    request.enrollmentToken.length ≤ 256 && 12 ≤ request.adminPassword.length && request.adminPassword.length ≤ 128

/-- The configuration with its new version. -/
def committedConfig (now : Circumstances) (request : Request γ) : γ :=
  lib.withVersion (max (now.configVersion + 1) (lib.configVersion (lib.normalize request.candidate)))
    (lib.normalize request.candidate)

/-- The writes after the journal, and its removal. -/
def applyProvisioning (now : Circumstances) (request : Request γ) : NvsProg Bool := do
  let token ← setEnrollmentToken now.tokenAllowed request.enrollmentToken
  if !token then return false
  else
    let admin ← persistAdminVerifier lib now request.adminPassword
    if !admin then return false
    else
      let committed ← commitPersistentConfig lib (committedConfig lib now request) request.wifiPassword
      if committed.isNone then return false
      else
        let verified ← verifyPersistentConfig lib (committedConfig lib now request) request.wifiPassword
        if !verified || !now.published then return false else clearProvisioningTransaction

def publishRecoveredProvisioningState (now : Circumstances) : NvsProg Bool := do
  let recovered ← loadPersistentConfig lib
  return recovered.isSome && now.republished

def commitProvisioning (now : Circumstances) (request : Request γ) : NvsProg Bool :=
  if !now.locked || now.frozen || !accepts lib request then return false
  else do
    let prepared ← prepareProvisioningTransaction now.persistentGeneration
    let applied ← if prepared then applyProvisioning lib now request else pure false
    if applied then return true
    else
      let recovered ← recoverIncompleteProvisioning lib
      let _ ← if recovered then publishRecoveredProvisioningState lib now else pure false
      return false

end PowerMonitor.Config.Provisioning
