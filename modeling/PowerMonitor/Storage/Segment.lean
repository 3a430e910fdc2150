import PowerMonitor.Storage.Media

/-! # Segments

A segment is a file of records with its index rows and, once it is closed, a sidecar that states its
bounds. A sidecar counts only if it describes the files as they are (`acceptMetadata`). A reader
asks the index rows where the sequences it wants start (`searchIndex`). -/

namespace PowerMonitor.Storage.Segment

open PowerMonitor.Lib.Binary PowerMonitor.Lib.Lines PowerMonitor.Lib.Scan PowerMonitor.Lib.Json
open PowerMonitor.Storage.RecordFormat PowerMonitor.Storage.Reading PowerMonitor.Storage.Media

/-! ### Sidecars -/

/-- What a file holds: readings, or events. -/
inductive SegmentKind
  | readings
  | events
  deriving DecidableEq, Repr

def SegmentKind.sequenceField : SegmentKind → Bytes
  | .readings => ascii "sequence"
  | .events => ascii "event_sequence"

/-- The bounds of a closed segment, as far as a reader or a recovery uses them. -/
structure SegmentMetadata where
  firstSequence : ℕ
  lastSequence : ℕ
  recordCount : ℕ
  allTimesTrusted : Bool
  deriving DecidableEq, Repr

/-- The first line of a file, its newline included, if it is not too long. -/
def readEnvelopeLine (content : Bytes) : Option Bytes :=
  match lines content with
  | [] => none
  | line :: _ => if line.length ≤ 8193 then some line else none

/-- A text as the C library compares it, up to the first zero byte. -/
def cString (s : Bytes) : Bytes := s.takeWhile (· ≠ 0)

theorem cString_of_notMem {t : Bytes} (h : 0 ∉ t) : cString t = t := by
  unfold cString
  rw [List.takeWhile_eq_self_iff]
  intro b hb
  have hne : b ≠ 0 := by
    rintro rfl
    exact h hb
  simpa using hne

def View.textIs (v : View) (expected : Bytes) : Bool := cString (v.text.getD []) = expected

/-- An unsigned integer of 32 bits, or zero. -/
def View.unsigned32 (v : View) : ℕ :=
  let n := (v.unsignedOr 0).toNat
  if n < 2 ^ 32 then n else 0

/-- The bounds a sidecar's document states, if it describes a segment whose file has `recordSize` bytes
and whose index has `indexSize` bytes. A file that does not open has no size. -/
def acceptDocument (kind : SegmentKind) (path : Bytes) (document : Bytes → View)
    (recordSize indexSize : Option ℕ) : Option SegmentMetadata :=
  let unsignedAt (name : String) : ℕ := ((document (ascii name)).unsignedOr 0).toNat
  let booleanAt (name : String) : Bool := (document (ascii name)).booleanOr false
  let expectedIndex := match kind with
    | .readings => pairedIndexPath path
    | .events => []
  let metadata : SegmentMetadata := {
    firstSequence := unsignedAt "first_sequence"
    lastSequence := unsignedAt "last_sequence"
    recordCount := View.unsigned32 (document (ascii "record_count"))
    allTimesTrusted := booleanAt "all_times_trusted" }
  if unsignedAt "schema_version" ≠ 1 ∨ !View.textIs (document (ascii "record_path")) path ∨
      !booleanAt "closed" ∨ !booleanAt "complete" then none
  else if !View.textIs (document (ascii "index_path")) expectedIndex then none
  else if unsignedAt "payload_bytes" = 0 ∨ recordSize ≠ some (unsignedAt "payload_bytes") then none
  else if kind = .readings ∧ (!booleanAt "index_valid" ∨ indexSize ≠ some (unsignedAt "index_bytes")) then
    none
  else if metadata.recordCount > 0 ∧ metadata.firstSequence > 0 ∧
      metadata.lastSequence ≥ metadata.firstSequence then some metadata
  else none

/-- The bounds a sidecar states, if it is whole and describes the files. -/
def acceptMetadata (j : JsonLibrary) (kind : SegmentKind) (path : Bytes) (sidecar : Option Bytes)
    (recordSize indexSize : Option ℕ) : Option SegmentMetadata :=
  match (sidecar.bind readEnvelopeLine).bind decodeEnvelope with
  | none => none
  | some (payload, _) =>
    match j.deserialize payload with
    | none => none
    | some document => acceptDocument kind path document recordSize indexSize

/-! ### Index rows -/

/-- The row of a record that starts at `offset`. -/
def indexRow (sequence utcMs offset : ℕ) (payloadCrc : UInt32) : Bytes :=
  decimal sequence ++ (44 :: (decimal utcMs ++ (44 :: (decimal offset ++ (44 ::
    (hexText 8 payloadCrc.toNat ++ [10]))))))

/-- The rest of a text after a comma. -/
def comma : Bytes → Option Bytes
  | 44 :: rest => some rest
  | _ => none

/-- The sequence and the offset of a row. -/
def parseIndexRow (raw : Bytes) : Option (ℕ × ℕ) := do
  let (sequence, rest) ← scanUnsigned raw
  let rest ← comma rest
  let (_, rest) ← scanUnsigned rest
  let rest ← comma rest
  let (offset, rest) ← scanUnsigned rest
  let rest ← comma rest
  let _ ← scanHex rest.length rest
  return (sequence, offset)

/-- The rows of an index file, without their newlines. -/
def indexRows (content : Bytes) : List Bytes :=
  (lines content).map List.dropLast ++ if unterminated content = [] then [] else [unterminated content]

/-- What the index rows say of the wanted sequences: nothing to rely on, none is in the segment, or the
first is at an offset. -/
inductive IndexAnswer
  | unusable
  | outside
  | start (offset : ℕ)
  deriving DecidableEq, Repr

/-- The rows that are left, after `read` of them. -/
def searchRows (after ceiling : ℕ) : ℕ → List Bytes → IndexAnswer
  | read, [] => if 0 < read then .outside else .unusable
  | read, raw :: rows =>
    match parseIndexRow raw with
    | none => .unusable
    | some (sequence, offset) =>
      if after < sequence ∧ sequence ≤ ceiling then .start offset
      else if ceiling < sequence then .outside
      else searchRows after ceiling (read + 1) rows

/-- What an index file says; nothing, if it does not open. -/
def searchIndex (after ceiling : ℕ) : Option Bytes → IndexAnswer
  | none => .unusable
  | some content => searchRows after ceiling 0 (indexRows content)

end PowerMonitor.Storage.Segment
