import PowerMonitor.Ota.Attempts
import PowerMonitor.Ota.ProtocolMarker

/-! # Updates: the download of an image

The image comes as a stream of bytes that the network cuts anyhow: first its header and its descriptor, which are
checked before anything is written, then the rest in chunks, each written to the other slot, hashed and searched for the
protocol marker. The ledger, which outlives a reset, tells how far it came. What the platform answers in one pass of a
loop is a `Look`; what the server sends is any sequence of bytes. The layout of the header and of the descriptor is the
platform's and stays a parameter (`Format`). -/

namespace PowerMonitor.Ota.Download

open PowerMonitor.Lib.Binary PowerMonitor.Security.Crypto
open PowerMonitor.Ota.ManifestV2 PowerMonitor.Ota.ProtocolMarker PowerMonitor.Ota.Recovery
open PowerMonitor.Ota.Attempts (sampleManifest)

/-! ### The stream's length -/

inductive StreamFailure
  | none | timeout | connectionReset | truncated | extraBytes | sha256Mismatch | partitionWriteFailure
deriving DecidableEq

def streamFailureCode : StreamFailure → Bytes
  | .none => []
  | .timeout => ascii "ota_image_stream_timeout"
  | .connectionReset => ascii "ota_image_connection_reset"
  | .truncated => ascii "ota_image_truncated"
  | .extraBytes => ascii "ota_image_extra_bytes"
  | .sha256Mismatch => ascii "ota_image_sha256_mismatch"
  | .partitionWriteFailure => ascii "ota_partition_write_failed"

structure StreamTracker where
  expectedSize : UInt32
  received : UInt32 := 0
  failure : StreamFailure := .none
deriving DecidableEq

/-- The first failure is kept. -/
def StreamTracker.fail (t : StreamTracker) (failure : StreamFailure) : StreamTracker :=
  if t.failure = .none then { t with failure := failure } else t

def StreamTracker.accept (t : StreamTracker) (bytes : ℕ) (partitionWriteSucceeded : Bool) : StreamTracker × Bool :=
  if t.failure ≠ .none then (t, false)
  else if ¬ partitionWriteSucceeded then (t.fail .partitionWriteFailure, false)
  else if bytes > 0xFFFFFFFF - t.received.toNat ∨ t.received + UInt32.ofNat bytes > t.expectedSize then
    (t.fail .extraBytes, false)
  else ({ t with received := t.received + UInt32.ofNat bytes }, true)

def StreamTracker.timeout (t : StreamTracker) : StreamTracker := t.fail .timeout

def StreamTracker.connectionReset (t : StreamTracker) : StreamTracker := t.fail .connectionReset

def StreamTracker.finish (t : StreamTracker) (sha256Matches extraBytes : Bool) : StreamTracker × Bool :=
  if t.failure ≠ .none then (t, false)
  else
    let t := if extraBytes then t.fail .extraBytes
      else if t.received ≠ t.expectedSize then t.fail .truncated
      else if ¬ sha256Matches then t.fail .sha256Mismatch
      else t
    (t, t.failure == .none)

/-! ### The image's descriptor -/

/-- The fields of the header, of the first segment and of the descriptor that are read. -/
structure Metadata where
  magic : UInt8
  chipId : UInt16
  segmentCount : UInt8
  dataLen : UInt32
  magicWord : UInt32
  projectName : Bytes
  version : Bytes
  appElfSha256 : Key32

/-- How the platform lays an image out. -/
structure Format where
  /-- `kImageMetadataBytes`. -/
  metadataBytes : ℕ
  metadataBytes_pos : 0 < metadataBytes
  /-- The size of the descriptor. -/
  descriptorBytes : ℕ
  headerMagic : UInt8
  descriptorMagic : UInt32
  decode : Bytes → Metadata

def esp32S3ChipId : UInt16 := 9

/-- The text up to the first zero byte, which a field must have. -/
def boundedDescriptorString (value : Bytes) : Option Bytes :=
  let text := value.takeWhile (· ≠ 0)
  if text.length = 0 ∨ text.length = value.length then none else some text

def validateImageMetadata (f : Format) (m : Manifest) (metadata : Bytes) : Except Bytes Unit :=
  let d := f.decode metadata
  if d.magic ≠ f.headerMagic ∨ d.chipId ≠ esp32S3ChipId ∨ d.segmentCount = 0 ∨ d.dataLen.toNat < f.descriptorBytes ∨
      d.magicWord ≠ f.descriptorMagic then .error (ascii "ota_image_metadata_invalid")
  else
    match boundedDescriptorString d.projectName, boundedDescriptorString d.version with
    | some projectName, some firmwareVersion =>
      if projectName ≠ m.projectName then .error (ascii "ota_image_project_mismatch")
      else if firmwareVersion ≠ m.version then .error (ascii "ota_image_version_mismatch")
      else if ¬ constantTimeEqual (hexEncode d.appElfSha256.toList) m.buildHash then
        .error (ascii "ota_image_build_hash_mismatch")
      else .ok ()
    | _, _ => .error (ascii "ota_image_descriptor_invalid")

/-- What the boot loader reads of an image. -/
def Format.read (f : Format) (image : Bytes) : Image :=
  let d := f.decode (image.take f.metadataBytes)
  { version := (boundedDescriptorString d.version).getD [], buildHash := hexEncode d.appElfSha256.toList }

/-! ### Injected faults -/

/-- The points of a download at which a test build may let it fail. -/
inductive Point
  | beforeFirstByte | afterMetadata | afterUpdateBegin | halfwayThroughDownload | afterCompleteDownload
  | beforeUpdateEnd
deriving DecidableEq

def failureCode : Point → Bytes
  | .beforeFirstByte => ascii "ota_fault_before_first_byte"
  | .afterMetadata => ascii "ota_fault_after_metadata"
  | .afterUpdateBegin => ascii "ota_fault_after_update_begin"
  | .halfwayThroughDownload => ascii "ota_fault_mid_download"
  | .afterCompleteDownload => ascii "ota_fault_after_download"
  | .beforeUpdateEnd => ascii "ota_fault_before_update_end"

/-! ### The ledger -/

/-- The stages of a download that the ledger tells. -/
inductive Stage
  | imageMetadataReceived | imageMetadataValidated | updateBeginCompleted | firstBytesWritten | streaming | shaFinalized
  | streamComplete | httpTransportDestroyed | hashVerified | protocolMarkerVerified | updateEndBeginning
  | updateEndCompleted
deriving DecidableEq

/-- What is kept over a reset. -/
structure Entry where
  stage : Stage
  bytesReceived : UInt32
  imageSize : UInt32
  updateOpen : Bool := false
  rebootExpected : Bool := false
deriving DecidableEq

/-! ### The transfer -/

/-- What the platform answers in one pass. -/
structure Look where
  /-- Bytes that can be read, zero if there are none. -/
  available : ℕ
  connected : Bool
  /-- The same, asked again. -/
  stillConnected : Bool
  millis : UInt32
  /-- At most so many bytes are read. -/
  count : ℕ
  /-- The time after the chunk. -/
  progressMillis : UInt32
  /-- The stream buffer is allocated. -/
  streamBuffer : Bool
  /-- The update begins. -/
  begun : Bool
  /-- The chunk is written whole. -/
  written : Bool
  /-- The status can be changed. -/
  shown : Bool
  /-- The update ends, with its slot selected for the next boot. -/
  ended : Bool
  isFinished : Bool

/-- `Update`, with what was written to the other slot. -/
inductive Updater
  | closed
  | writing (written : Bytes)
  | ended (written : Bytes)
deriving DecidableEq

inductive Phase
  | metadata | streaming | finishing | verified | ended
  | failed (error : Bytes)
deriving DecidableEq

structure Transfer where
  phase : Phase := .metadata
  /-- What the server still sends. -/
  rest : Bytes
  metadata : Bytes := []
  lastProgressMs : UInt64
  updateOpen : Bool := false
  update : Updater := .closed
  /-- What the digest is of. -/
  hashed : Bytes := []
  scan : Scan := {}
  received : UInt32 := 0
  streamTracker : StreamTracker
  halfwayFaultChecked : Bool := false
  bytesReceived : UInt32 := 0
  progressPercent : UInt8 := 0
  /-- What the ledger showed, one entry after the other. -/
  ledger : List Entry

/-- What a download is of: the manifest, the image format and the build's injected fault, if any. -/
structure Job where
  format : Format
  primitives : Primitives
  manifest : Manifest
  fault : Option Point := none

def Job.entry (j : Job) (stage : Stage) (bytesReceived : UInt32) : Entry :=
  { stage := stage, bytesReceived := bytesReceived, imageSize := j.manifest.sizeBytes }

/-- The download begins, after the reply's headers. -/
def Job.start (j : Job) (stream : Bytes) (millis : UInt32) : Transfer where
  rest := stream
  lastProgressMs := millis.toUInt64
  streamTracker := { expectedSize := j.manifest.sizeBytes }
  ledger := [j.entry .imageMetadataReceived 0]

/-- Entries of an update that is open. -/
def Job.record (j : Job) (stages : List Stage) (bytesReceived : UInt32) (t : Transfer) : Transfer :=
  { t with ledger := t.ledger ++ stages.map fun stage => { j.entry stage bytesReceived with updateOpen := true } }

def Transfer.failUpdate (t : Transfer) : Transfer :=
  if t.updateOpen then { t with update := .closed, updateOpen := false } else t

def Transfer.fail (t : Transfer) (error : Bytes) : Transfer := { t with phase := .failed error }

/-- Nothing to read, and no hope of more. -/
def Transfer.stalled (t : Transfer) (l : Look) : Bool :=
  ¬ l.connected || l.millis.toUInt64 - t.lastProgressMs > 15000

def Updater.write (written : Bool) (data : Bytes) : Updater → Updater
  | .writing before => .writing (if written then before ++ data else before)
  | update => update

/-- Bytes are given to `Update`, counted, hashed and searched; then the download goes on. -/
def Transfer.accept (t : Transfer) (data : Bytes) (written : Bool) (next : Transfer → Transfer) : Transfer :=
  let t := { t with update := t.update.write written data }
  let (streamTracker, accepted) := t.streamTracker.accept data.length written
  let t := { t with streamTracker := streamTracker }
  if ¬ accepted then t.failUpdate.fail (streamFailureCode streamTracker.failure)
  else
    next { t with
      hashed := t.hashed ++ data
      scan := scanProtocol t.scan data
      received := t.received + UInt32.ofNat data.length }

/-- The loop goes on until all bytes are received. -/
def Job.proceed (j : Job) (t : Transfer) : Transfer :=
  if t.received < j.manifest.sizeBytes then { t with phase := .streaming }
  else j.record [.shaFinalized, .streamComplete] t.received { t with phase := .finishing }

/-- The metadata is the first that is written. -/
def Job.begin (j : Job) (l : Look) (t : Transfer) : Transfer :=
  match validateImageMetadata j.format j.manifest t.metadata with
  | .error error => t.fail error
  | .ok _ =>
    let t := { t with ledger := t.ledger ++ [j.entry .imageMetadataValidated 0] }
    if j.fault = some .afterMetadata then t.fail (failureCode .afterMetadata)
    else if ¬ l.streamBuffer then t.fail (ascii "ota_internal_stream_buffer_unavailable")
    else if ¬ l.begun then t.fail (ascii "ota_partition_unavailable")
    else
      let t := j.record [.updateBeginCompleted] (UInt32.ofNat t.metadata.length)
        { t with update := .writing [], updateOpen := true }
      if j.fault = some .afterUpdateBegin then t.failUpdate.fail (failureCode .afterUpdateBegin)
      else
        t.accept t.metadata (j.fault ≠ some .beforeFirstByte && l.written) fun t =>
          j.proceed (j.record [.firstBytesWritten] t.received t)

def Job.metadataLook (j : Job) (l : Look) (t : Transfer) : Transfer :=
  if l.available = 0 then
    if t.stalled l then t.fail (ascii "ota_image_stream_interrupted") else t
  else
    let wanted := min (j.format.metadataBytes - t.metadata.length) l.available
    let data := t.rest.take (min l.count wanted)
    if data = [] then t.fail (ascii "ota_image_stream_interrupted")
    else
      let t := { t with
        rest := t.rest.drop data.length
        metadata := t.metadata ++ data
        lastProgressMs := l.progressMillis.toUInt64 }
      if t.metadata.length < j.format.metadataBytes then t else j.begin l t

/-- After a chunk of so many bytes: the fault halfway, the time of the last progress, the ledger and the status. -/
def Job.progress (j : Job) (l : Look) (count : ℕ) (t : Transfer) : Transfer :=
  let halfway := ¬ t.halfwayFaultChecked && t.received ≥ j.manifest.sizeBytes / 2
  let t := { t with halfwayFaultChecked := t.halfwayFaultChecked || halfway }
  if halfway ∧ j.fault = some .halfwayThroughDownload then t.failUpdate.fail (failureCode .halfwayThroughDownload)
  else
    let t := { t with lastProgressMs := l.progressMillis.toUInt64 }
    let told := t.received &&& 0xFFFF < UInt32.ofNat count || t.received = j.manifest.sizeBytes
    let t := if told then j.record [.streaming] t.received t else t
    let t := if l.shown then
        { t with
          bytesReceived := t.received
          progressPercent := (t.received.toUInt64 * 100 / j.manifest.sizeBytes.toUInt64).toUInt8 }
      else t
    j.proceed t

def Job.streamingLook (j : Job) (l : Look) (t : Transfer) : Transfer :=
  if l.available = 0 then
    if t.stalled l then
      let streamTracker := if l.stillConnected then t.streamTracker.timeout else t.streamTracker.connectionReset
      { t with streamTracker := streamTracker }.failUpdate.fail (streamFailureCode streamTracker.failure)
    else t
  else
    let wanted := min 4096 (min l.available (j.manifest.sizeBytes - t.received).toNat)
    let data := t.rest.take (min l.count wanted)
    let t := { t with rest := t.rest.drop data.length }
    if data = [] then t.failUpdate.fail (ascii "ota_image_connection_reset")
    else t.accept data l.written (j.progress l data.length)

/-- What is checked after the transport is gone. -/
def Job.verify (j : Job) (extraBytes : Bool) (t : Transfer) : Transfer :=
  let hashMatches := constantTimeEqual (sha256Hex j.primitives t.hashed) j.manifest.sha256
  let (streamTracker, finished) := t.streamTracker.finish hashMatches extraBytes
  let t := { t with streamTracker := streamTracker }
  if ¬ finished then t.failUpdate.fail (streamFailureCode streamTracker.failure)
  else if ¬ t.scan.protocolSeen then t.failUpdate.fail (ascii "ota_image_protocol_marker_missing")
  else
    let t := j.record [.hashVerified, .protocolMarkerVerified, .updateEndBeginning] t.received t
    if j.fault = some .beforeUpdateEnd then t.failUpdate.fail (failureCode .beforeUpdateEnd)
    else { t with phase := .verified }

/-- All bytes are received. -/
def Job.finishingLook (j : Job) (l : Look) (t : Transfer) : Transfer :=
  if j.fault = some .afterCompleteDownload then t.failUpdate.fail (failureCode .afterCompleteDownload)
  else j.verify (0 < l.available) (j.record [.httpTransportDestroyed] t.received t)

/-- The update's end, which selects the slot for the next boot. -/
def Updater.finish (ended : Bool) : Updater → Updater
  | .writing written => if ended then .ended written else .closed
  | update => update

def Job.verifiedLook (j : Job) (l : Look) (t : Transfer) : Transfer :=
  let t := { t with update := t.update.finish l.ended, updateOpen := false }
  if ¬ l.ended ∨ ¬ l.isFinished then t.fail (ascii "ota_finalize_failed")
  else
    { t with
      phase := .ended
      ledger := t.ledger ++ [{ j.entry .updateEndCompleted t.received with rebootExpected := true }] }

/-- **One pass.** -/
def Job.look (j : Job) (t : Transfer) (l : Look) : Transfer :=
  match t.phase with
  | .metadata => j.metadataLook l t
  | .streaming => j.streamingLook l t
  | .finishing => j.finishingLook l t
  | .verified => j.verifiedLook l t
  | .ended | .failed _ => t

def Job.run (j : Job) (t : Transfer) (looks : List Look) : Transfer := looks.foldl j.look t

/-! ### A download -/

def le16 (data : Bytes) (i : ℕ) : UInt16 := (data.getD i 0).toUInt16 + (data.getD (i + 1) 0).toUInt16 * 256

def le32 (data : Bytes) (i : ℕ) : UInt32 := (le16 data i).toUInt32 + (le16 data (i + 2)).toUInt32 * 65536

/-- A header of 24 bytes, a segment's of 8 and a descriptor of 256. -/
def sampleFormat : Format where
  metadataBytes := 288
  metadataBytes_pos := by decide
  descriptorBytes := 256
  headerMagic := 0xE9
  descriptorMagic := 0xABCD5432
  decode data :=
    { magic := data.getD 0 0
      chipId := le16 data 12
      segmentCount := data.getD 1 0
      dataLen := le32 data 28
      magicWord := le32 data 32
      version := (data.drop 48).take 32
      projectName := (data.drop 80).take 32
      appElfSha256 := Vector.ofFn fun i : Fin 32 => data.getD (176 + i) 0 }

/-- The header, the descriptor and nothing but the marker. -/
def sampleImage : Bytes :=
  [0xE9, 1] ++ List.replicate 10 0 ++ [9] ++ List.replicate 16 0 ++ [1, 0, 0] ++ [0x32, 0x54, 0xCD, 0xAB] ++
    List.replicate 12 0 ++ ascii "1.1.0" ++ List.replicate 27 0 ++ ascii "power-monitor-sensor" ++
    List.replicate 76 0 ++ List.replicate 32 0x11 ++ List.replicate 80 0 ++ marker

def sampleJob : Job where
  format := sampleFormat
  primitives :=
    { sha256 := fun data => if data = sampleImage then
        #v[0x6b, 0xc7, 0x84, 0x3f, 0x9c, 0x1f, 0x9d, 0x86, 0x8e, 0xb7, 0xe0, 0x00, 0xed, 0x2d, 0x35, 0x7f,
        0xd9, 0x05, 0x2a, 0x9c, 0x13, 0x19, 0xfb, 0x11, 0x5f, 0x18, 0x57, 0x76, 0x90, 0xcd, 0x4b, 0xe6] else default
      hmacSha256 := fun _ _ => default }
  manifest :=
    { sampleManifest "aaaaaaaa" "1" "UBLmMZxELn1zffFdOzboNVmvUJ9D80eeJDXGKxRydyM" with
      sizeBytes := 305
      sha256 := ascii "6bc7843f9c1f9d868eb7e000ed2d357fd9052a9c1319fb115f18577690cd4be6" }

/-- A pass in which so many bytes can be read, and all goes well. -/
def sampleLook (available : ℕ) (connected : Bool) : Look where
  available := available
  connected := connected
  stillConnected := connected
  millis := 1000
  count := 4096
  progressMillis := 1000
  streamBuffer := true
  begun := true
  written := true
  shown := true
  ended := true
  isFinished := true

def sampleLooks : List Look :=
  [sampleLook 200 true, sampleLook 105 true, sampleLook 10 true, sampleLook 7 true, sampleLook 0 true,
    sampleLook 0 true]

/-- What the ledger shows last. -/
def sampleEntry : Entry :=
  { stage := .updateEndCompleted, bytesReceived := 305, imageSize := 305, rebootExpected := true }

theorem run_sampleLooks : (sampleJob.run (sampleJob.start sampleImage 0) sampleLooks).update = .ended sampleImage ∧
    sampleEntry ∈ (sampleJob.run (sampleJob.start sampleImage 0) sampleLooks).ledger := by
  decide +kernel

end PowerMonitor.Ota.Download
