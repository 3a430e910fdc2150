import PowerMonitor.Storage.ReadPage

/-! # The operations of the storage

Appending a reading, reserving the sequences of readings that were dropped, raising the sequence floor
and recovering a card, as programs over the card. The variables of the storage are passed along; what
they are when the power is lost does not matter.

A caller may be bound to a card: the manifest must then name its generation and device before, during
and after the operation. -/

namespace PowerMonitor.Storage.SdStorage

open PowerMonitor.Lib.Binary PowerMonitor.Lib.Lines PowerMonitor.Lib.Scan PowerMonitor.Lib.Json
open PowerMonitor.Lib.Program
open PowerMonitor.Storage.RecordFormat PowerMonitor.Storage.Reading PowerMonitor.Storage.Media
open PowerMonitor.Storage.Segment PowerMonitor.Storage.ReadPage

/-- Runs a program if the condition holds. -/
def runIf (c : Bool) (p : CardProg Bool) (otherwise : Bool) : CardProg Bool :=
  if c then p else return otherwise

/-! ### The manifest -/

def manifestPath : Bytes := ascii "/POWERMON/manifest.json"

/-- The card a caller is bound to; generation zero binds to none. -/
structure CardBinding where
  generation : UInt64 := 0
  deviceId : Bytes := []
  deriving DecidableEq

def resetCardBindingMatches (actualGeneration : UInt64) (actualDeviceId : Bytes) (expected : CardBinding) :
    Bool :=
  expected.generation ≠ 0 && expected.deviceId ≠ [] && actualGeneration = expected.generation &&
    actualDeviceId = expected.deviceId

def resetManifestBindingMatches (schemaVersion : ℕ) (actualGeneration : UInt64)
    (actualDeviceId actualFingerprint : Bytes) (expected : CardBinding) (expectedFingerprint : Bytes) :
    Bool :=
  schemaVersion = 2 && expectedFingerprint ≠ [] && actualFingerprint = expectedFingerprint &&
    resetCardBindingMatches actualGeneration actualDeviceId expected

/-- The manifest's text names the card. -/
def manifestMatches (j : JsonLibrary) (fingerprint : Bytes) (expected : CardBinding)
    (manifest : Option Bytes) : Bool :=
  match manifest.bind j.deserialize with
  | none => false
  | some document =>
    let stored := (document (ascii "hardware_id_fingerprint")).text.orElse
      fun _ => (document (ascii "hardware_fingerprint")).text
    match stored, (document (ascii "device_id")).text with
    | some storedFingerprint, some deviceId =>
      (document (ascii "schema_version")).isUnsigned && (document (ascii "card_generation")).isUnsigned &&
        resetManifestBindingMatches (View.unsigned32 (document (ascii "schema_version")))
          (document (ascii "card_generation")).asUnsigned (cString deviceId) (cString storedFingerprint)
          expected fingerprint
    | _, _ => false

def currentCardManifestMatchesReset (j : JsonLibrary) (fingerprint : Bytes) (expected : CardBinding) :
    CardProg Bool := do
  let present ← fileExists manifestPath
  if !present then return false
  else
    let manifest ← readFile manifestPath
    return manifestMatches j fingerprint expected manifest

/-- The card is the one the caller is bound to. -/
def bindingHolds (j : JsonLibrary) (fingerprint : Bytes) (binding : CardBinding) : CardProg Bool :=
  if binding.generation = 0 then return true
  else currentCardManifestMatchesReset j fingerprint binding

/-! ### The sequence journal -/

def journalPath : Bytes := ascii "/POWERMON/state/sequence.journal"
def journalTemporary : Bytes := ascii "/POWERMON/state/sequence.journal.tmp"
def journalBackup : Bytes := ascii "/POWERMON/state/sequence.journal.bak"

/-- The number a journal's first line holds. -/
def parseJournal (content : Bytes) : Option ℕ :=
  match scanUnsigned (cString (content.takeWhile (· ≠ 10))) with
  | none => none
  | some (value, rest) => if rest = [] ∨ rest.head? = some 13 then some value else none

def loadSequenceJournal (path : Bytes) : CardProg (Option ℕ) := do
  let content ← readFile path
  return content.bind parseJournal

/-- Puts the backup back in the journal's place. -/
def restoreBackup (hadTarget : Bool) : CardProg Bool :=
  if hadTarget then do
    let _ ← renameFile journalBackup journalPath
    return false
  else return false

/-- Removes the temporary file of a journal that is not installed. -/
def discardTemporary : CardProg Bool := do
  let _ ← removeFile journalTemporary
  return false

/-- The verified temporary file takes the journal's place. -/
def installSequence (committedSequence : ℕ) : CardProg Bool := do
  let hadTarget ← fileExists journalPath
  let backed ← runIf hadTarget (renameFile journalPath journalBackup) true
  if !backed then discardTemporary
  else
    let renamed ← renameFile journalTemporary journalPath
    if !renamed then restoreBackup hadTarget
    else
      let installed ← loadSequenceJournal journalPath
      if installed = some committedSequence then do
        let _ ← removeFile journalBackup
        return true
      else
        let _ ← removeFile journalPath
        restoreBackup hadTarget

/-- Removes a file that is there. -/
def removeIfPresent (path : Bytes) : CardProg Bool := do
  let present ← fileExists path
  if present then removeFile path else return true

def persistSequence (committedSequence : ℕ) : CardProg Bool := do
  let cleared ← removeIfPresent journalTemporary
  if !cleared then return false
  else
    let value := decimal committedSequence ++ [10]
    let written ← writeFile journalTemporary value
    if written ≠ some value.length then discardTemporary
    else
      let verified ← loadSequenceJournal journalTemporary
      if verified ≠ some committedSequence then discardTemporary
      else
        let unbacked ← removeIfPresent journalBackup
        if !unbacked then discardTemporary
        else installSequence committedSequence

/-! ### Appending -/

def conservativeWriteReserveBytes (recordBytes : ℕ) : ℕ :=
  recordBytes + 128 + 1024 + 4096 + 64 * 1024 + 256 * 1024

/-- The directory of a path. -/
def directoryOf (path : Bytes) : Bytes :=
  path.take (path.length - 1 - (path.reverse.findIdx (· == 47)))

def appendIndex (path : Bytes) (sequence utcMs offset : ℕ) (payloadCrc : UInt32) : CardProg Bool := do
  let directory ← ensureDirectory (directoryOf path)
  if !directory then return false
  else
    let row := indexRow sequence utcMs offset payloadCrc
    -- a row that does not fit its buffer is not written
    if 96 ≤ row.length then return false
    else
      let written ← appendFile path row
      return written.map Prod.snd = some row.length

/-- The smaller of two sequences, where zero is none. -/
def oldest (current sequence : ℕ) : ℕ := if current = 0 then sequence else min current sequence

/-- The variables after a record is stored. -/
def Ram.appended (ram : Ram) (record : IntervalRecord) : Ram :=
  let sequence := ram.nextSequence
  let health := { ram.health with oldestSequence := oldest ram.health.oldestSequence sequence }
  let health := if syncableRecord record then
      { health with
        oldestSyncableSequence := oldest health.oldestSyncableSequence sequence
        newestSyncableSequence := max health.newestSyncableSequence sequence }
    else health
  { nextSequence := sequence + 1
    health := { health with
      newestSequence := sequence
      localRecordCount := health.localRecordCount + 1
      sequenceFloor := sequence
      nextSequence := sequence + 1
      sequenceFloorReady := true } }

/-- The record with the sequence it is stored under. -/
def assigned (ram : Ram) (record : IntervalRecord) : IntervalRecord :=
  { record with sequence := UInt64.ofNat ram.nextSequence }

/-- Once the envelope is written: its index row, the journal and the variables. -/
def finishAppend (j : JsonLibrary) (fingerprint : Bytes) (record : IntervalRecord) (binding : CardBinding)
    (ram : Ram) (offset : ℕ) : CardProg (Ram × Bool) := do
  let payload := serializeRecord j (assigned ram record)
  let _ ← appendIndex (indexPath record) ram.nextSequence record.startUtcMs.toNat offset (crc32 payload)
  let bound ← bindingHolds j fingerprint binding
  let persisted ← runIf bound (persistSequence ram.nextSequence) false
  if !persisted && binding.generation ≠ 0 then return (ram, false)
  else
    let bound ← bindingHolds j fingerprint binding
    if !bound then return (ram, false)
    else
      let _ ← freeBytes
      return (Ram.appended ram record, true)

def append (j : JsonLibrary) (fingerprint : Bytes) (record : IntervalRecord) (binding : CardBinding)
    (ram : Ram) : CardProg (Ram × Bool) := do
  if !ram.health.mounted || !ram.health.writable || ram.health.preparedForRemoval ||
      !ram.health.sequenceFloorReady || ram.nextSequence = 2 ^ 64 - 1 then return (ram, false)
  else
    let bound ← bindingHolds j fingerprint binding
    if !bound then return (ram, false)
    else
      let envelope := recordEnvelope j (assigned ram record)
      let free ← freeBytes
      if free < conservativeWriteReserveBytes envelope.length then return (ram, false)
      else
        let path := recordPath record
        let bound ← bindingHolds j fingerprint binding
        if !bound then return (ram, false)
        else
          let directory ← ensureDirectory (directoryOf path)
          if !directory then return (ram, false)
          else
            let written ← appendFile path envelope
            match written with
            | none => return (ram, false)
            | some (offset, reported) =>
              if reported ≠ envelope.length then
                return ({ ram with health := { ram.health with writable := false } }, false)
              else finishAppend j fingerprint record binding ram offset

/-! ### Sequences without a record -/

/-- Persists a sequence between two checks of the binding. -/
def persistBound (j : JsonLibrary) (fingerprint : Bytes) (binding : CardBinding) (sequence : ℕ) :
    CardProg Bool := do
  let bound ← bindingHolds j fingerprint binding
  let persisted ← runIf bound (persistSequence sequence) false
  runIf persisted (bindingHolds j fingerprint binding) false

/-- The variables after some sequences are reserved; the next sequence the health reports stays. -/
def Ram.reserved (ram : Ram) (count : ℕ) : Ram where
  nextSequence := ram.nextSequence + count
  health := { ram.health with
    newestSequence := max ram.health.newestSequence (ram.nextSequence + count - 1)
    droppedIntervalCount := ram.health.droppedIntervalCount + count }

def reserveUnavailableIntervals (j : JsonLibrary) (fingerprint : Bytes) (count : ℕ) (binding : CardBinding)
    (ram : Ram) : CardProg (Ram × Bool) := do
  if count = 0 then return (ram, true)
  else if !ram.health.mounted || !ram.health.writable || ram.health.preparedForRemoval ||
      2 ^ 64 - 1 - ram.nextSequence < count then return (ram, false)
  else
    let bound ← bindingHolds j fingerprint binding
    if !bound then return (ram, false)
    else
      let free ← freeBytes
      if free < conservativeWriteReserveBytes 0 then return (ram, false)
      else
        let persisted ← persistBound j fingerprint binding (ram.nextSequence + count - 1)
        if !persisted then return (ram, false) else return (Ram.reserved ram count, true)

/-- The flags of a floor that is not advanced. -/
def Ram.floorChecked (ram : Ram) (conflict ready inProgress : Bool) : Ram :=
  { ram with health := { ram.health with
      sequenceConflict := conflict
      sequenceFloorReady := ready
      sequenceReconciliationInProgress := inProgress
      sequenceFloor := ram.nextSequence - 1
      nextSequence := ram.nextSequence } }

/-- The variables after the floor is advanced. -/
def Ram.advanced (ram : Ram) (acknowledgedSequence : ℕ) : Ram where
  nextSequence := acknowledgedSequence + 1
  health := { ram.health with
    sequenceFloor := acknowledgedSequence
    nextSequence := acknowledgedSequence + 1
    sequenceFloorReady := true
    sequenceReconciliationInProgress := false
    sequenceConflict := false }

/-- The variables after the floor could not be persisted. -/
def Ram.unreconciled (ram : Ram) : Ram :=
  { ram with health := { ram.health with
      sequenceFloorReady := false
      sequenceReconciliationInProgress := true } }

def advanceSequenceFloor (j : JsonLibrary) (fingerprint : Bytes) (acknowledgedSequence : ℕ)
    (binding : CardBinding) (ram : Ram) : CardProg (Ram × Bool) := do
  let available := ram.health.mounted && ram.health.writable
  let bound ← bindingHolds j fingerprint binding
  if !bound then return (ram, false)
  -- a floor is a lower bound: one that is already passed is reconciled
  else if available ∧ acknowledgedSequence ≤ ram.nextSequence - 1 then
    return (Ram.floorChecked ram false true false, true)
  else if !(available && decide (ram.health.newestSequence ≤ acknowledgedSequence) &&
      acknowledgedSequence ≠ 2 ^ 64 - 1) then
    return (Ram.floorChecked ram available false (!available), false)
  else
    let persisted ← persistBound j fingerprint binding acknowledgedSequence
    if persisted then return (Ram.advanced ram acknowledgedSequence, true)
    else return (Ram.unreconciled ram, false)

/-! ### Recovering -/

/-- What a recovery counts. -/
structure Tally where
  maximumSequence : ℕ := 0
  oldestSequence : ℕ := 0
  oldestSyncableSequence : ℕ := 0
  newestSyncableSequence : ℕ := 0
  localRecordCount : ℕ := 0
  deriving DecidableEq, Repr

def Tally.addRecord (t : Tally) (e : Entry) : Tally where
  maximumSequence := max t.maximumSequence e.sequence
  oldestSequence := oldest t.oldestSequence e.sequence
  oldestSyncableSequence :=
    if e.syncable then oldest t.oldestSyncableSequence e.sequence else t.oldestSyncableSequence
  newestSyncableSequence :=
    if e.syncable then max t.newestSyncableSequence e.sequence else t.newestSyncableSequence
  localRecordCount := t.localRecordCount + 1

/-- A closed segment, by its sidecar. -/
def Tally.addSegment (t : Tally) (metadata : SegmentMetadata) : Tally where
  maximumSequence := max t.maximumSequence metadata.lastSequence
  oldestSequence := oldest t.oldestSequence metadata.firstSequence
  oldestSyncableSequence := oldest t.oldestSyncableSequence metadata.firstSequence
  newestSyncableSequence := max t.newestSyncableSequence metadata.lastSequence
  localRecordCount := t.localRecordCount + metadata.recordCount

/-- How the reading of a file ends: at its end, at a line that does not decode, or at a line without an
end, after so many bytes of good lines. -/
inductive Ending
  | complete
  | corrupt
  | torn (validEnd : ℕ)
  deriving DecidableEq, Repr

/-- The lines of a file and what follows them, after `validEnd` bytes. -/
def recoverLines (j : JsonLibrary) (rest : Bytes) : List Bytes → ℕ → Tally → Tally × Ending
  | [], validEnd, t => (t, if rest = [] then .complete else .torn validEnd)
  | line :: ls, validEnd, t =>
    if 8193 < line.length then (t, .torn validEnd)
    else
      match decodeLine j .readings line with
      | .error _ => (t, .corrupt)
      | .ok e => recoverLines j rest ls (validEnd + line.length) (t.addRecord e)

def repairPath (path : Bytes) : Bytes := path ++ ascii ".repair"

/-- Keeps the first bytes of a file. -/
def repairFile (path : Bytes) (validEnd : ℕ) : CardProg Unit := do
  let _ ← removeFile (repairPath path)
  let source ← readFile path
  let kept := (source.getD []).take validEnd
  let written ← writeFile (repairPath path) kept
  if source = none ∨ kept.length ≠ validEnd ∨ written ≠ some validEnd then do
    let _ ← removeFile (repairPath path)
    return ()
  else
    let removed ← removeFile path
    if !removed then return ()
    else do
      let _ ← renameFile (repairPath path) path
      return ()

def recoverFile (j : JsonLibrary) (path : Bytes) (t : Tally) : CardProg Tally := do
  let content ← readFile path
  match content with
  | none => return t
  | some content =>
    let (t, ending) := recoverLines j (unterminated content) (lines content) 0 t
    match ending with
    | .torn validEnd => do
      repairFile path validEnd
      return t
    | _ => return t

def recoverSegment (j : JsonLibrary) (t : Tally) (path : Bytes) : CardProg Tally := do
  let sidecar ← readFile (metadataPath path)
  let record ← readFile path
  let index ← readFile (pairedIndexPath path)
  match acceptMetadata j .readings path sidecar (record.map List.length) (index.map List.length) with
  | none => recoverFile j path t
  | some metadata => if metadata.allTimesTrusted then return t.addSegment metadata else recoverFile j path t

def recoverSegments (j : JsonLibrary) : List Bytes → Tally → CardProg Tally
  | [], t => return t
  | path :: paths, t => do
    let t ← recoverSegment j t path
    recoverSegments j paths t

def Ram.tallied (ram : Ram) (t : Tally) : Ram :=
  { ram with health := { ram.health with
      oldestSequence := t.oldestSequence
      oldestSyncableSequence := t.oldestSyncableSequence
      newestSyncableSequence := t.newestSyncableSequence
      localRecordCount := t.localRecordCount } }

/-- The journals, and the variables a recovery leaves. -/
def recoverFloor (t : Tally) (ram : Ram) : CardProg (Ram × Bool) := do
  let journal ← loadSequenceJournal journalPath
  let temporary ← loadSequenceJournal journalTemporary
  let backup ← loadSequenceJournal journalBackup
  let journalSequence := max (journal.getD 0) (max (temporary.getD 0) (backup.getD 0))
  let persisted ← runIf (temporary.getD 0 ≠ 0 ∨ backup.getD 0 ≠ 0) (persistSequence journalSequence) true
  if !persisted then return (ram, false)
  else
    let committed := max t.maximumSequence journalSequence
    if committed = 2 ^ 64 - 1 then
      return ({ ram with health := { ram.health with sequenceConflict := true } }, false)
    else return ({
      nextSequence := committed + 1
      health := { ram.health with
        sequenceFloor := committed
        nextSequence := committed + 1
        newestSequence := t.maximumSequence } }, true)

def recover (j : JsonLibrary) (ram : Ram) : CardProg (Ram × Bool) := do
  let files ← listFiles (ascii "/POWERMON/records/") (ascii ".pmr")
  let t ← recoverSegments j (files.insertionSort fun a b => decide (a ≤ b)) {}
  recoverFloor t (Ram.tallied ram t)

/-! ### Mounting -/

/-- A repaired file takes its place, unless the file is there. -/
def recoverRepair (temporary : Bytes) : CardProg Bool := do
  let target := temporary.take (temporary.length - 7)
  let present ← fileExists target
  if present then removeFile temporary else renameFile temporary target

def recoverRepairs : List Bytes → CardProg Bool
  | [] => return true
  | temporary :: rest => do
    let done ← recoverRepair temporary
    let others ← recoverRepairs rest
    return done && others

/-- The variables while a card is mounted. -/
def Ram.mounting (ram : Ram) : Ram :=
  { ram with health := { ram.health with
      mounted := true
      writable := false
      preparedForRemoval := false
      sequenceFloorReady := false
      sequenceReconciliationInProgress := false
      sequenceConflict := false } }

/-- The flags of a mounted card. -/
def Ram.mounted (ram : Ram) (ready : Bool) : Ram :=
  { ram with health := { ram.health with
      sequenceFloorReady := ready
      sequenceReconciliationInProgress := !ready } }

/-- Mounts a card whose layout and self-test are good. -/
def remountPreferred (j : JsonLibrary) (fingerprint : Bytes) (requiredSequenceFloor : ℕ) (ram : Ram) :
    CardProg (Ram × Bool) := do
  let ram := Ram.mounting ram
  let repairs ← listFiles (ascii "/POWERMON/records/") (ascii ".repair")
  let repaired ← recoverRepairs repairs
  if !repaired then return (ram, false)
  else
    let (ram, recovered) ← recover j ram
    if !recovered then return (ram, false)
    else
      let ram := { ram with health := { ram.health with writable := true } }
      if requiredSequenceFloor ≤ ram.health.sequenceFloor then return (Ram.mounted ram true, true)
      else
        let ram := { ram with health := { ram.health with sequenceReconciliationInProgress := true } }
        let (ram, ready) ← advanceSequenceFloor j fingerprint requiredSequenceFloor {} ram
        return (Ram.mounted ram ready, true)

end PowerMonitor.Storage.SdStorage
