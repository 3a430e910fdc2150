import PowerMonitor.Storage.CalmOperations

/-! # Inspecting a segment

A closed segment is read once, line by line and row by row (`inspectSegment`), and what was found is stored in its
sidecar (`persistSegmentMetadata`). A sidecar that counts later says what the inspection found
(`accepted_sidecar`). -/

namespace PowerMonitor.Storage.Inspection

open PowerMonitor.Lib.Binary PowerMonitor.Lib.Lines PowerMonitor.Lib.Json PowerMonitor.Lib.Program
open PowerMonitor.Storage.RecordFormat PowerMonitor.Storage.Reading PowerMonitor.Storage.Media
open PowerMonitor.Storage.Segment PowerMonitor.Storage.ReadPage PowerMonitor.Storage.SdStorage
open PowerMonitor.Storage.Intact PowerMonitor.Storage.Layout

/-! ### What is found -/

structure InspectedSegment where
  recordPath : Bytes
  indexPath : Bytes
  firstSequence : ℕ := 0
  lastSequence : ℕ := 0
  firstUtcMs : ℕ := 0
  lastUtcMs : ℕ := 0
  payloadBytes : ℕ := 0
  indexBytes : ℕ := 0
  recordCount : ℕ := 0
  integrityCrc : UInt32 := 0
  allTimesTrusted : Bool := false
  complete : Bool := false
  indexValid : Bool := false
  closed : Bool := false
  deriving DecidableEq

/-- The document of a line and its checksum, if the line is good and its sequence an unsigned integer. -/
def inspectLine (j : JsonLibrary) (line : Bytes) : Option ((Bytes → View) × UInt32) :=
  if 8193 < line.length then none
  else do
    let (payload, checksum) ← decodeEnvelope line
    let document ← j.deserialize payload
    if (document (ascii "sequence")).isUnsigned then return (document, checksum) else none

def InspectedSegment.addRecord (m : InspectedSegment) (document : Bytes → View) (checksum : UInt32) :
    InspectedSegment :=
  let sequence := (document (ascii "sequence")).asUnsigned.toNat
  let start := ((document (ascii "start_utc_ms")).unsignedOr 0).toNat
  let finish := ((document (ascii "end_utc_ms")).unsignedOr 0).toNat
  { m with
    firstSequence := oldest m.firstSequence sequence
    lastSequence := max m.lastSequence sequence
    firstUtcMs := if start = 0 then m.firstUtcMs else oldest m.firstUtcMs start
    lastUtcMs := max m.lastUtcMs finish
    allTimesTrusted := m.allTimesTrusted && (document (ascii "time_trusted")).booleanOr false
    integrityCrc := m.integrityCrc ^^^ checksum
    recordCount := (m.recordCount + 1) % 2 ^ 32 }

/-- The lines, up to the first bad one. -/
def inspectLines (j : JsonLibrary) : List Bytes → InspectedSegment → InspectedSegment
  | [], m => m
  | line :: ls, m =>
    match inspectLine j line with
    | none => { m with complete := false }
    | some (document, checksum) => inspectLines j ls (m.addRecord document checksum)

/-- What the index rows say. -/
structure InspectedIndex where
  count : ℕ := 0
  first : ℕ := 0
  last : ℕ := 0
  wellFormed : Bool := true
  deriving DecidableEq, Repr

def inspectRows : List Bytes → InspectedIndex → InspectedIndex
  | [], i => i
  | raw :: rows, i =>
    match parseIndexRow raw with
    | none => { i with wellFormed := false }
    | some (sequence, _) => inspectRows rows { i with
        count := (i.count + 1) % 2 ^ 32
        first := oldest i.first sequence
        last := max i.last sequence }

/-- Before the first line is read. -/
def InspectedSegment.opened (path : Bytes) (content : Option Bytes) : InspectedSegment where
  recordPath := path
  indexPath := pairedIndexPath path
  complete := content.isSome
  allTimesTrusted := true
  closed := true
  payloadBytes := (content.getD []).length

/-- What is found in a file of records and its index file; one that does not open has no content. -/
def inspectSegment (j : JsonLibrary) (path : Bytes) (content index : Option Bytes) : InspectedSegment :=
  let read := inspectLines j (lines (content.getD [])) (.opened path content)
  let rows : InspectedIndex := match index with
    | none => { wellFormed := false }
    | some index => inspectRows (indexRows index) {}
  { read with
    complete := read.complete && unterminated (content.getD []) = [] && decide (0 < read.recordCount)
    indexBytes := (index.getD []).length
    indexValid := rows.wellFormed && rows.count = read.recordCount && rows.first = read.firstSequence &&
      rows.last = read.lastSequence }

theorem recordPath_inspectLines (j : JsonLibrary) (ls : List Bytes) :
    ∀ m : InspectedSegment, (inspectLines j ls m).recordPath = m.recordPath := by
  induction ls with
  | nil => exact fun m => rfl
  | cons line ls ih =>
    intro m
    unfold inspectLines
    split
    · rfl
    · exact ih _

theorem recordPath_inspectSegment (j : JsonLibrary) (path : Bytes) (content index : Option Bytes) :
    (inspectSegment j path content index).recordPath = path := recordPath_inspectLines j _ _

/-! ### The sidecar -/

def sidecarDocument (m : InspectedSegment) : Document :=
  [(ascii "schema_version", unsigned 1),
    (ascii "record_path", text m.recordPath),
    (ascii "index_path", text m.indexPath),
    (ascii "first_sequence", unsigned (UInt64.ofNat m.firstSequence)),
    (ascii "last_sequence", unsigned (UInt64.ofNat m.lastSequence)),
    (ascii "first_utc_ms", unsigned (UInt64.ofNat m.firstUtcMs)),
    (ascii "last_utc_ms", unsigned (UInt64.ofNat m.lastUtcMs)),
    (ascii "payload_bytes", unsigned (UInt64.ofNat m.payloadBytes)),
    (ascii "index_bytes", unsigned (UInt64.ofNat m.indexBytes)),
    (ascii "record_count", unsigned (UInt64.ofNat m.recordCount)),
    (ascii "integrity_crc", unsigned m.integrityCrc.toUInt64),
    (ascii "all_times_trusted", .scalar (.boolean m.allTimesTrusted)),
    (ascii "complete", .scalar (.boolean m.complete)),
    (ascii "index_valid", .scalar (.boolean m.indexValid)),
    (ascii "closed", .scalar (.boolean m.closed))]

def sidecarEnvelope (j : JsonLibrary) (m : InspectedSegment) : Bytes := encodeEnvelope (j.serialize (sidecarDocument m))

/-- Stores the sidecar: a temporary file is written, read back and moved to its place. -/
def persistSegmentMetadata (j : JsonLibrary) (m : InspectedSegment) : CardProg Bool := do
  let payload := j.serialize (sidecarDocument m)
  let target := metadataPath m.recordPath
  let temporary := target ++ ascii ".tmp"
  let _ ← removeFile temporary
  let written ← writeFile temporary (encodeEnvelope payload)
  if written ≠ some (encodeEnvelope payload).length then do
    let _ ← removeFile temporary
    return false
  else
    let verified ← readFile temporary
    if ((verified.bind readEnvelopeLine).bind decodeEnvelope).map Prod.fst ≠ some payload then do
      let _ ← removeFile temporary
      return false
    else do
      let _ ← removeFile target
      renameFile temporary target

variable {j : JsonLibrary} {path : Bytes} {m : InspectedSegment}

theorem nodup_sidecarDocument (m : InspectedSegment) : ((sidecarDocument m).map Prod.fst).Nodup := by
  have h : (sidecarDocument m).map Prod.fst =
      (sidecarDocument { recordPath := [], indexPath := [] }).map Prod.fst := rfl
  rw [h]
  decide

/-- What holds of a document that is accepted. -/
theorem acceptDocument_eq_some {document : Bytes → View} {recordSize indexSize : Option ℕ} {metadata : SegmentMetadata}
    (h : acceptDocument .readings path document recordSize indexSize = some metadata) :
    View.textIs (document (ascii "record_path")) path = true ∧
      (document (ascii "complete")).booleanOr false = true ∧
      (document (ascii "index_valid")).booleanOr false = true ∧
      recordSize = some ((document (ascii "payload_bytes")).unsignedOr 0).toNat ∧
      indexSize = some ((document (ascii "index_bytes")).unsignedOr 0).toNat ∧
      metadata = {
        firstSequence := ((document (ascii "first_sequence")).unsignedOr 0).toNat
        lastSequence := ((document (ascii "last_sequence")).unsignedOr 0).toNat
        recordCount := View.unsigned32 (document (ascii "record_count"))
        allTimesTrusted := (document (ascii "all_times_trusted")).booleanOr false } ∧
      0 < metadata.firstSequence ∧ metadata.firstSequence ≤ metadata.lastSequence := by
  unfold acceptDocument at h
  simp only at h
  split_ifs at h with hheader hindex hsize hvalid hbounds
  simp only [Bool.not_eq_true', not_or, Bool.not_eq_false, not_not] at hheader
  simp only [not_or, not_not] at hsize
  simp only [true_and, Bool.not_eq_true', not_or, Bool.not_eq_false, not_not] at hvalid
  cases h
  exact ⟨hheader.2.1, hheader.2.2.2, hvalid.1, hsize.2, hvalid.2, rfl, hbounds.2.1, hbounds.2.2⟩

/-- What a sidecar states, if it counts. -/
structure Accepted (m : InspectedSegment) (path : Bytes) (recordSize indexSize : Option ℕ)
    (metadata : SegmentMetadata) : Prop where
  path : cString m.recordPath = path
  complete : m.complete = true
  indexValid : m.indexValid = true
  recordSize : recordSize = some (UInt64.ofNat m.payloadBytes).toNat
  indexSize : indexSize = some (UInt64.ofNat m.indexBytes).toNat
  first : metadata.firstSequence = (UInt64.ofNat m.firstSequence).toNat
  last : metadata.lastSequence = (UInt64.ofNat m.lastSequence).toNat
  count : metadata.recordCount = (if (UInt64.ofNat m.recordCount).toNat < 2 ^ 32 then
    (UInt64.ofNat m.recordCount).toNat else 0)
  trusted : metadata.allTimesTrusted = m.allTimesTrusted
  positive : 0 < metadata.firstSequence
  ordered : metadata.firstSequence ≤ metadata.lastSequence

/-- **A sidecar that counts says what the inspection found.** -/
theorem accepted_sidecar (hj : j.Lawful) {recordSize indexSize : Option ℕ} {metadata : SegmentMetadata}
    (h : acceptMetadata j .readings path (some (sidecarEnvelope j m)) recordSize indexSize = some metadata) :
    Accepted m path recordSize indexSize metadata := by
  obtain ⟨view, hview, hshows⟩ := hj.readsBack _ (nodup_sidecarDocument m)
  obtain ⟨init, hinit, hnewline⟩ := encodeEnvelope_line (hj.newline (sidecarDocument m))
  have hlines : lines (sidecarEnvelope j m) = [sidecarEnvelope j m] := by
    unfold sidecarEnvelope
    rw [hinit, (lines_line hnewline []).1]
    rfl
  have hdocument : acceptDocument .readings path view recordSize indexSize = some metadata := by
    unfold acceptMetadata readEnvelopeLine at h
    rw [Option.bind_some, hlines] at h
    simp only at h
    by_cases hlength : (sidecarEnvelope j m).length ≤ 8193
    · rw [if_pos hlength, Option.bind_some, sidecarEnvelope, decodeEnvelope_encodeEnvelope] at h
      simpa only [hview] using h
    · rw [if_neg hlength] at h
      cases h
  have hunsigned (name : Bytes) (n : UInt64) (hmem : (name, unsigned n) ∈ sidecarDocument m) :
      (view name).unsignedOr 0 = n := by
    have hshown := hshows name _ hmem
    simp only [Shows, unsigned] at hshown
    simp [View.unsignedOr, hshown]
  have hboolean (name : Bytes) (b : Bool) (hmem : (name, Value.scalar (.boolean b)) ∈ sidecarDocument m) :
      (view name).booleanOr false = b := by
    have hshown := hshows name _ hmem
    simp only [Shows] at hshown
    simp [View.booleanOr, hshown]
  have hpath : (view (ascii "record_path")).text = some m.recordPath :=
    hshows _ (text m.recordPath) (by simp [sidecarDocument])
  obtain ⟨h1, h2, h3, h4, h5, rfl, h7, h8⟩ := acceptDocument_eq_some hdocument
  rw [View.textIs, hpath, Option.getD_some, decide_eq_true_eq] at h1
  rw [hboolean _ m.complete (by simp [sidecarDocument])] at h2
  rw [hboolean _ m.indexValid (by simp [sidecarDocument])] at h3
  rw [hunsigned _ (UInt64.ofNat m.payloadBytes) (by simp [sidecarDocument])] at h4
  rw [hunsigned _ (UInt64.ofNat m.indexBytes) (by simp [sidecarDocument])] at h5
  have hfirst := hunsigned (ascii "first_sequence") (UInt64.ofNat m.firstSequence) (by simp [sidecarDocument])
  have hlast := hunsigned (ascii "last_sequence") (UInt64.ofNat m.lastSequence) (by simp [sidecarDocument])
  have hcount := hunsigned (ascii "record_count") (UInt64.ofNat m.recordCount) (by simp [sidecarDocument])
  refine ⟨h1, h2, h3, h4, h5, ?_, ?_, ?_, ?_, h7, h8⟩
  · simp only [hfirst]
  · simp only [hlast]
  · simp only [View.unsigned32, hcount]
  · exact hboolean _ m.allTimesTrusted (by simp [sidecarDocument])

end PowerMonitor.Storage.Inspection
