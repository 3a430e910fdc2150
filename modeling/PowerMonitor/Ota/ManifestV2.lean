import PowerMonitor.Lib.Scan
import PowerMonitor.Security.Crypto

/-! # The update manifest

The manifest of an update, the checks on its fields, the canonical text its keyed digest covers, and the policy that
compares it with the device: the device it names, its validity window, project, hardware, protocol and version.
Parsing the JSON document is left to the library; the manifest here is the decoded one.

* `compareSemver_self`: a version is not newer or older than itself.
* `version_ne_of_verifyManifest`: **an accepted manifest names another version** than the one that runs. -/

namespace PowerMonitor.Ota.ManifestV2

open PowerMonitor.Lib.Binary PowerMonitor.Lib.Scan PowerMonitor.Security.Crypto

structure Manifest where
  schemaVersion : Bytes
  protocolVersion : Bytes
  deploymentId : Bytes
  releaseId : Bytes
  deviceId : Bytes
  version : Bytes
  projectName : Bytes
  hardwareTarget : Bytes
  protocolMin : Bytes
  protocolMax : Bytes
  sizeBytes : UInt32
  sha256 : Bytes
  buildHash : Bytes
  notBefore : Bytes
  expiresAt : Bytes
  allowDowngrade : Bool
  attempt : UInt32
  hmacAlgorithm : Bytes
  hmacKeyContext : Bytes
  manifestHmac : Bytes
  downloadPath : Bytes
deriving DecidableEq

structure PolicyContext where
  deviceId : Bytes
  currentVersion : Bytes
  currentProtocol : Bytes
  hardwareTarget : Bytes
  projectName : Bytes := ascii "power-monitor-sensor"
  nowUnixSeconds : ℤ
  partitionSizeBytes : UInt32

/-! ### Texts -/

def isLowerHex (b : UInt8) : Bool := isDigit b || (97 ≤ b && b ≤ 102)

def isAlphanumeric (b : UInt8) : Bool := isDigit b || (65 ≤ b && b ≤ 90) || (97 ≤ b && b ≤ 122)

def printable (b : UInt8) : Bool := 0x20 ≤ b && b ≤ 0x7E

def printableAscii (value : Bytes) (maximum : ℕ) : Bool :=
  value.length ≤ maximum && value ≠ [] && value.all printable

def lowercase (value : Bytes) : Bytes := value.map fun b => if 65 ≤ b && b ≤ 90 then b + 32 else b

def compatibleHardware (manifestTarget localTarget : Bytes) : Bool :=
  let offered := lowercase manifestTarget
  let own := lowercase localTarget
  offered == own || (offered == ascii "esp32-s3" && (ascii "esp32-s3").isPrefixOf own)

def lowercaseHex (value : Bytes) (length : ℕ) : Bool := value.length == length && value.all isLowerHex

def lowercaseUuid (value : Bytes) : Bool :=
  value.length == 36 && value.zipIdx.all fun (b, i) =>
    if i = 8 ∨ i = 13 ∨ i = 18 ∨ i = 23 then b == 45 else isLowerHex b

def base64UrlSha256 (value : Bytes) : Bool :=
  value.length == 43 && value.all fun b => isAlphanumeric b || b == 45 || b == 95

/-- The text before the first `c`, and the text after it. -/
def cutAt (c : UInt8) (value : Bytes) : Bytes × Option Bytes :=
  let head := value.takeWhile (· != c)
  (head, if head.length < value.length then some (value.drop (head.length + 1)) else none)

/-! ### Times -/

def leapYear (year : ℕ) : Bool := year % 4 == 0 && (year % 100 != 0 || year % 400 == 0)

/-- The days from 1970-01-01, for a year that is no older. -/
def daysFromCivil (year month day : ℕ) : ℤ :=
  let year := if month ≤ 2 then year - 1 else year
  let era := year / 400
  let yearOfEra := year - era * 400
  let dayOfYear := (153 * (if month > 2 then month - 3 else month + 9) + 2) / 5 + day - 1
  let dayOfEra := yearOfEra * 365 + yearOfEra / 4 - yearOfEra / 100 + dayOfYear
  (era * 146097 + dayOfEra : ℕ) - 719468

def monthDays : List ℕ := [31, 28, 31, 30, 31, 30, 31, 31, 30, 31, 30, 31]

/-- The field of `count` digits at `start`. -/
def digitsAt (value : Bytes) (start count : ℕ) : ℕ := decimalValue ((value.drop start).take count)

/-- `YYYY-MM-DDThh:mm:ssZ`. -/
def parseUtcTimestamp (value : Bytes) : Option ℤ :=
  let punctuation := [(4, 45), (7, 45), (10, 84), (13, 58), (16, 58), (19, 90)]
  if value.length ≠ 20 ∨ ¬ punctuation.all (fun (i, b) => value[i]? == some b) ∨
      ¬ [0, 1, 2, 3, 5, 6, 8, 9, 11, 12, 14, 15, 17, 18].all (fun i => value[i]?.any isDigit) then none
  else
    let year := digitsAt value 0 4
    let month := digitsAt value 5 2
    let day := digitsAt value 8 2
    let hour := digitsAt value 11 2
    let minute := digitsAt value 14 2
    let second := digitsAt value 17 2
    if year < 2020 ∨ year > 2200 ∨ month = 0 ∨ month > 12 ∨ day = 0 ∨
        day > monthDays.getD (month - 1) 0 + (if month = 2 ∧ leapYear year then 1 else 0) ∨
        hour > 23 ∨ minute > 59 ∨ second > 59 then none
    else some (daysFromCivil year month day * 86400 + (hour * 3600 + minute * 60 + second : ℕ))

/-! ### Versions -/

def parseUnsignedComponent (component : Bytes) : Option ℕ :=
  if component = [] ∨ component.length > 10 ∨ (component.length > 1 ∧ component.head? = some 48) ∨
      ¬ component.all isDigit ∨ decimalValue component > 0xFFFFFFFF then none
  else some (decimalValue component)

structure Semver where
  core : List ℕ
  prerelease : List Bytes

def validIdentifier (identifier : Bytes) (prerelease : Bool) : Bool :=
  identifier ≠ [] && identifier.all (fun b => isAlphanumeric b || b == 45) &&
    (!prerelease || !identifier.all isDigit || identifier.length == 1 || identifier.head? != some 48)

def splitIdentifiers (value : Bytes) (prerelease : Bool) : Option (List Bytes) :=
  let identifiers := value.splitOn 46
  if identifiers.all (validIdentifier · prerelease) then some identifiers else none

def parseSemver (value : Bytes) : Option Semver := do
  if value = [] ∨ value.length > 80 then none
  let (precedence, build) := cutAt 43 value
  if let some build := build then
    if build.contains 43 then none
    let _ ← splitIdentifiers build false
  let (core, suffix) := cutAt 45 precedence
  let prerelease ← match suffix with
    | some suffix => splitIdentifiers suffix true
    | none => some []
  let parts := core.splitOn 46
  if parts.length ≠ 3 then none
  let core ← parts.mapM parseUnsignedComponent
  return { core, prerelease }

def validSemver (value : Bytes) : Bool := (parseSemver value).isSome

/-- The order of two strings. -/
def compareBytes (left right : Bytes) : Ordering :=
  if left = right then .eq else if bytesLe left right then .lt else .gt

def numericIdentifier (value : Bytes) : Bool := value.all isDigit

def compareNumericIdentifier (left right : Bytes) : Ordering :=
  if left.length ≠ right.length then (if left.length < right.length then .lt else .gt)
  else compareBytes left right

def compareIdentifier (left right : Bytes) : Ordering :=
  if numericIdentifier left ≠ numericIdentifier right then (if numericIdentifier left then .lt else .gt)
  else if numericIdentifier left then compareNumericIdentifier left right
  else compareBytes left right

def comparePrerelease : List Bytes → List Bytes → Ordering
  | [], [] => .eq
  | [], _ :: _ => .lt
  | _ :: _, [] => .gt
  | l :: ls, r :: rs => if l = r then comparePrerelease ls rs else compareIdentifier l r

def compareCore : List ℕ → List ℕ → Ordering
  | l :: ls, r :: rs => if l < r then .lt else if l > r then .gt else compareCore ls rs
  | _, _ => .eq

def compareSemver (left right : Bytes) : Ordering :=
  match parseSemver left, parseSemver right with
  | some l, some r =>
    match compareCore l.core r.core with
    | .eq =>
      -- a release is newer than its previews
      if l.prerelease = [] ∨ r.prerelease = [] then
        if l.prerelease = [] ∧ r.prerelease = [] then .eq else if l.prerelease = [] then .gt else .lt
      else comparePrerelease l.prerelease r.prerelease
    | order => order
  | _, _ => compareBytes left right

theorem compareCore_self (core : List ℕ) : compareCore core core = .eq := by
  induction core with
  | nil => rfl
  | cons n core ih => simp [compareCore, ih]

theorem comparePrerelease_self (identifiers : List Bytes) : comparePrerelease identifiers identifiers = .eq := by
  induction identifiers with
  | nil => rfl
  | cons identifier identifiers ih => simp [comparePrerelease, ih]

/-- **A version is as new as itself**, well formed or not. -/
theorem compareSemver_self (version : Bytes) : compareSemver version version = .eq := by
  unfold compareSemver
  cases parseSemver version with
  | none => simp [compareBytes]
  | some semver =>
    by_cases hrelease : semver.prerelease = []
    · simp [compareCore_self, hrelease]
    · simp [compareCore_self, comparePrerelease_self, hrelease]

/-! ### The manifest's fields -/

def boundedDownloadPath (path releaseId deploymentId : Bytes) : Bool :=
  let expected := ascii "/api/v1/device-firmware/" ++ releaseId ++ ascii "/download?deployment_id=" ++ deploymentId
  printableAscii path 256 && path == expected

/-- The checks `parseManifest` makes on the decoded fields. -/
def manifestFieldsValid (m : Manifest) : Bool :=
  m.schemaVersion == ascii "pm-ota-manifest/2" && m.hmacAlgorithm == ascii "HMAC-SHA256" &&
    m.hmacKeyContext == ascii "pm-ota-manifest-v2/server-to-device" && lowercaseUuid m.deploymentId &&
    lowercaseUuid m.releaseId && lowercaseUuid m.deviceId && validSemver m.version &&
    printableAscii m.protocolVersion 64 && printableAscii m.projectName 64 && printableAscii m.hardwareTarget 64 &&
    printableAscii m.protocolMin 64 && printableAscii m.protocolMax 64 && m.sizeBytes != 0 &&
    lowercaseHex m.sha256 64 && lowercaseHex m.buildHash 64 &&
    (match parseUtcTimestamp m.notBefore, parseUtcTimestamp m.expiresAt with
      | some notBefore, some expiresAt => decide (notBefore < expiresAt)
      | _, _ => false) &&
    m.attempt != 0 && base64UrlSha256 m.manifestHmac &&
    boundedDownloadPath m.downloadPath m.releaseId m.deploymentId

def jsonString (value : Bytes) : Bytes :=
  ascii "\"" ++ value.flatMap (fun b => if b = 34 ∨ b = 92 then [92, b] else [b]) ++ ascii "\""

def stringField (name : String) (value : Bytes) : Bytes := ascii ",\"" ++ ascii name ++ ascii "\":" ++ jsonString value

/-- The strings of the canonical text before the size, in its order. -/
def canonicalStrings (m : Manifest) : List (String × Bytes) :=
  [("build_hash", m.buildHash), ("deployment_id", m.deploymentId), ("device_id", m.deviceId),
    ("download_path", m.downloadPath), ("expires_at", m.expiresAt), ("hardware_target", m.hardwareTarget),
    ("hmac_algorithm", m.hmacAlgorithm), ("hmac_key_context", m.hmacKeyContext), ("not_before", m.notBefore),
    ("project_name", m.projectName), ("protocol_max", m.protocolMax), ("protocol_min", m.protocolMin),
    ("protocol_version", m.protocolVersion), ("release_id", m.releaseId), ("schema_version", m.schemaVersion),
    ("sha256", m.sha256)]

/-- The text the digest covers, empty if a field has a character that is not printable. -/
def canonicalManifest (m : Manifest) : Bytes :=
  if ((canonicalStrings m).map Prod.snd ++ [m.version]).all (fun value => value.all printable) then
    ascii "\x7b\"allow_downgrade\":" ++ ascii (if m.allowDowngrade then "true" else "false") ++
      ascii ",\"attempt\":" ++ decimal m.attempt.toNat ++
      (canonicalStrings m).flatMap (fun (name, value) => stringField name value) ++
      ascii ",\"size_bytes\":" ++ decimal m.sizeBytes.toNat ++ stringField "version" m.version ++ ascii "\x7d"
  else []

/-! ### What a manifest must satisfy -/

def validatePolicy (m : Manifest) (context : PolicyContext) : Except Bytes Unit := do
  if m.deviceId ≠ context.deviceId then throw (ascii "ota_manifest_device_mismatch")
  match parseUtcTimestamp m.notBefore, parseUtcTimestamp m.expiresAt with
  | some notBefore, some expiresAt =>
    if context.nowUnixSeconds < notBefore then throw (ascii "ota_manifest_not_yet_valid")
    if context.nowUnixSeconds ≥ expiresAt then throw (ascii "ota_manifest_expired")
  | _, _ => throw (ascii "ota_manifest_not_yet_valid")
  if m.projectName ≠ context.projectName then throw (ascii "ota_project_incompatible")
  if ¬ compatibleHardware m.hardwareTarget context.hardwareTarget then throw (ascii "ota_hardware_incompatible")
  if m.protocolVersion ≠ context.currentProtocol ∨ m.protocolMin ≠ context.currentProtocol ∨
      m.protocolMax ≠ context.currentProtocol then throw (ascii "ota_protocol_incompatible")
  match compareSemver m.version context.currentVersion with
  | .eq => throw (ascii "ota_same_version_rejected")
  | .lt => if ¬ m.allowDowngrade then throw (ascii "ota_downgrade_rejected")
  | .gt => pure ()
  if context.partitionSizeBytes = 0 ∨ m.sizeBytes > context.partitionSizeBytes then
    throw (ascii "ota_partition_too_small")

/-- The digit of the URL-safe alphabet. -/
def base64UrlDigit (n : ℕ) : UInt8 :=
  (ascii "ABCDEFGHIJKLMNOPQRSTUVWXYZabcdefghijklmnopqrstuvwxyz0123456789-_").getD (n % 64) 0

/-- Base64 for URLs, without padding. -/
def base64UrlEncode : Bytes → Bytes
  | a :: b :: c :: rest =>
    let n := a.toNat * 65536 + b.toNat * 256 + c.toNat
    [base64UrlDigit (n / 262144), base64UrlDigit (n / 4096), base64UrlDigit (n / 64), base64UrlDigit n] ++
      base64UrlEncode rest
  | [a, b] =>
    let n := (a.toNat * 256 + b.toNat) * 4
    [base64UrlDigit (n / 4096), base64UrlDigit (n / 64), base64UrlDigit n]
  | [a] =>
    let n := a.toNat * 16
    [base64UrlDigit (n / 64), base64UrlDigit n]
  | [] => []

def verifyManifest (c : Primitives) (key : Option Key32) (context : PolicyContext) (m : Manifest) :
    Except Bytes Unit := do
  let some key := key | throw (ascii "ota_manifest_key_unavailable")
  let canonical := canonicalManifest m
  let expected := base64UrlEncode (c.hmacSha256 key.toList canonical).toList
  if canonical = [] ∨ ¬ constantTimeEqual expected m.manifestHmac then throw (ascii "ota_manifest_hmac_invalid")
  validatePolicy m context

theorem version_ne_of_validatePolicy {m : Manifest} {context : PolicyContext} (h : validatePolicy m context = .ok ()) :
    m.version ≠ context.currentVersion := by
  intro hversion
  simp only [validatePolicy, hversion, compareSemver_self, bind, Except.bind, throw, throwThe, MonadExceptOf.throw] at h
  -- the device, then the window; whatever follows, nothing accepts
  split at h
  · cases h
  split at h
  · split_ifs at h
  · cases h

/-- **An accepted manifest names another version** than the one that runs. -/
theorem version_ne_of_verifyManifest {c : Primitives} {key : Option Key32} {context : PolicyContext} {m : Manifest}
    (h : verifyManifest c key context m = .ok ()) : m.version ≠ context.currentVersion := by
  unfold verifyManifest at h
  cases key with
  | none => cases h
  | some key =>
    simp only [bind, Except.bind, throw, throwThe, MonadExceptOf.throw] at h
    split_ifs at h
    exact version_ne_of_validatePolicy h

end PowerMonitor.Ota.ManifestV2
