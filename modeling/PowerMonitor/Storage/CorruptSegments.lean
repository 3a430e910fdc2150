import PowerMonitor.Storage.Recovery
import PowerMonitor.Storage.Unavailable

/-! # Corrupt segments

A recovery keeps a segment with a line that does not decode, and succeeds. A page is then delivered only
if the walk reads no such line: `progress_iff` says that, after a successful recovery and with a reading
in the window in an intact segment, a page gets past its cursor exactly when the cursor is not expired
and every segment that is read, is readable from where it is read. -/

namespace PowerMonitor.Storage.CorruptSegments

open PowerMonitor.Lib.Binary PowerMonitor.Lib.Lines PowerMonitor.Lib.Json PowerMonitor.Lib.Program
open PowerMonitor.Lib.Walk
open PowerMonitor.Storage.Reading PowerMonitor.Storage.Media PowerMonitor.Storage.Segment
open PowerMonitor.Storage.SyncCoverage PowerMonitor.Storage.ReadPage PowerMonitor.Storage.PageSpec
open PowerMonitor.Storage.SdStorage PowerMonitor.Storage.Frames PowerMonitor.Storage.Intact
open PowerMonitor.Storage.Recovery PowerMonitor.Storage.Unavailable

/-- A page is delivered and gets past the cursor. -/
def Progress (page : HistoryPage) (after : UInt64) : Prop :=
  page.ok = true ∧ after.toNat < page.lastSequence

instance (page : HistoryPage) (after : UInt64) : Decidable (Progress page after) :=
  inferInstanceAs (Decidable (_ ∧ _))

/-- The walk does not read the segment, or it reads complete lines that decode. -/
def Readable (j : JsonLibrary) (card : Card) (q : HistoryQuery) (path : Bytes) : Prop :=
  ∀ content, visitSegment j card {} .readings q path = .read content → unterminated content = [] ∧
    ∀ line ∈ lines content, line.length ≤ maximumLine ∧ ∃ e, decodeLine j .readings line = .ok e

variable {j : JsonLibrary} {card : Card} {health : Health} {q : HistoryQuery}

theorem visitSegment_ne_seekFailed (path : Bytes) :
    visitSegment j card {} .readings q path ≠ .seekFailed := by
  unfold visitSegment
  split
  · simp
  · split <;> simp

theorem segmentEntries_isSome_iff (path : Bytes) :
    (segmentEntries j card {} .readings q path).isSome ↔ Readable j card q path := by
  unfold segmentEntries Readable
  have hseek := @visitSegment_ne_seekFailed j card q path
  cases hvisit : visitSegment j card {} .readings q path with
  | skip => simp
  | seekFailed => exact absurd hvisit hseek
  | read content =>
    simp only [if_true, contentEntries, Visit.read.injEq, forall_eq']
    split_ifs with hrest
    · rw [gather_isSome]
      simp only [hrest, true_and]
      refine forall₂_congr fun line _ => ?_
      rw [Option.isSome_iff_exists]
      constructor
      · rintro ⟨es, h⟩
        obtain ⟨hlen, e, he, -⟩ := lineEntries_eq_some.mp h
        exact ⟨hlen, e, he⟩
      · rintro ⟨hlen, e, he⟩
        exact ⟨[e], lineEntries_eq_some.mpr ⟨hlen, e, he, rfl⟩⟩
    · simp [hrest]

/-- A delivered page has read only readable segments. -/
theorem readable_of_visible {es : List Entry} (h : visibleEntries j card {} q = some es) :
    ∀ path ∈ recordFiles card, Readable j card q path := by
  obtain ⟨all, hall, -⟩ := Option.map_eq_some_iff.mp h
  intro path hpath
  exact (segmentEntries_isSome_iff path).mp (gather_isSome.mp (by rw [hall]; rfl) path hpath)

theorem visible_of_readable (h : ∀ path ∈ recordFiles card, Readable j card q path) :
    ∃ all, gather (segmentEntries j card {} .readings q) (recordFiles card) = some all ∧
      visibleEntries j card {} q = some (all.filter q.wants) := by
  obtain ⟨all, hall⟩ := Option.isSome_iff_exists.mp (gather_isSome.mpr fun path hpath =>
    (segmentEntries_isSome_iff path).mpr (h path hpath))
  exact ⟨all, hall, by rw [visibleEntries, hall]; rfl⟩

/-- **A page gets past its cursor** when some sequence after it is counted, and each visible entry fits
on it. -/
theorem progress_of_visible (hsync : q.requireSyncable = true) (hlimit : 0 < q.pageLimit)
    (hbytes : maximumLine ≤ q.maximumPayloadBytes.toNat) (hfresh : historyExpired health q = false)
    {es : List Entry} (hvisible : visibleEntries j card {} q = some es)
    (hscan : q.afterSequence.toNat < maximumScanned health q) :
    Progress (readPage j card {} health q) q.afterSequence := by
  have hfits : ∀ e ∈ es, e.payload.length ≤ q.maximumPayloadBytes.toNat := fun e he =>
    (visible_payload_le hvisible e he).trans hbytes
  have hafter : ∀ e ∈ es, q.afterSequence.toNat < e.sequence := fun e he => (visible_after hvisible e he).1
  obtain ⟨hpage, hok⟩ : readPage j card {} health q = pageOf health q es ∧ (pageOf health q es).ok = true :=
    (readPage_ok_iff hsync _).mpr ⟨hfresh, es, hvisible, hfits, rfl⟩
  obtain ⟨covered, hacc⟩ := accounts_pageOf health hsync hafter
  rw [hpage]
  refine ⟨hok, (hacc.last ?_).1⟩
  by_contra hstuck
  have hcovered : covered = q.afterSequence.toNat := by have := hacc.start; omega
  rcases hacc.stop hscan with h | ⟨h, hnot⟩ | ⟨-, h⟩
  · have hdesired : q.afterSequence.toNat < desiredEnd (maximumScanned health q) (chosen q es) := by
      unfold desiredEnd
      cases hmax : (chosen q es).max? with
      | none => exact hscan
      | some m =>
        obtain ⟨c, hc, rfl⟩ := mem_chosen (List.max?_mem hmax)
        have := hafter c hc
        simp only
        omega
    omega
  · -- the sequence after the cursor is the smallest, so it is a candidate
    obtain ⟨e, he, heq⟩ := List.mem_map.mp h
    obtain ⟨c, hc, hmin⟩ := candidatesOf_min hlimit (List.ne_nil_of_mem he) hfits
    have h1 := hmin e he
    have h2 := hafter c (mem_candidatesOf hc)
    exact hnot (List.mem_map.mpr ⟨c, hc, by omega⟩)
  · omega

theorem contentEntries_sequence_lt {content : Bytes} {es : List Entry}
    (h : contentEntries j .readings content = some es) : ∀ e ∈ es, e.sequence < 2 ^ 64 := by
  unfold contentEntries at h
  split_ifs at h
  intro e he
  obtain ⟨line, -, first, hfirst, he⟩ := (mem_of_gather h e).mp he
  obtain ⟨-, e', hdecode, rfl⟩ := lineEntries_eq_some.mp hfirst
  rw [List.mem_singleton.mp he]
  exact decodeLine_sequence_lt hdecode

/-- **After a successful recovery, with a reading in the window of the cursor in an intact segment**, a
page gets past the cursor exactly when the cursor is not expired and every segment that is read is
readable. -/
theorem progress_iff {ram ram' : Ram} {events rest : List Event}
    (hcalm : Along device Calm (recover j ram) events card)
    (hrun : (run device (recover j ram) events card).2 = some ((ram', true), rest))
    {path content : Bytes} {es : List Entry} {e : Entry} (hpath : isRecordFile path = true)
    (hfile : (run device (recover j ram) events card).1.lookup path = some content)
    (hintact : contentEntries j .readings content = some es)
    (htrue : TruthfulSidecar j (run device (recover j ram) events card).1 path es)
    (he : e ∈ es) {after : UInt64} (hafter : after.toNat < e.sequence)
    (hwindow : e.sequence ≤ after.toNat + kSyncCoverageWindow) :
    Progress (readPage j (run device (recover j ram) events card).1 {} ram'.health
        { afterSequence := after, requireSyncable := true }) after ↔
      historyExpired ram'.health { afterSequence := after, requireSyncable := true } = false ∧
        ∀ p ∈ recordFiles (run device (recover j ram) events card).1,
          Readable j (run device (recover j ram) events card).1
            { afterSequence := after, requireSyncable := true } p := by
  have hcounts := (wp_run (recover_counts ram) hcalm).of_result hrun
  generalize (run device (recover j ram) events card).1 = card' at *
  generalize hq : ({ afterSequence := after, requireSyncable := true } : HistoryQuery) = q
  have hsync : q.requireSyncable = true := by rw [← hq]
  have hcursor : q.afterSequence = after := by rw [← hq]
  constructor
  · rintro ⟨hok, -⟩
    obtain ⟨hfresh, es', hvisible, -⟩ := (readPage_ok_iff hsync _).mp ⟨rfl, hok⟩
    exact ⟨hfresh, readable_of_visible hvisible⟩
  · rintro ⟨hfresh, hreadable⟩
    obtain ⟨all, hall, hvisible⟩ := visible_of_readable hreadable
    rw [← hcursor]
    have hnewest := hcounts rfl path content es hpath hfile hintact htrue e he
    have hsmall := contentEntries_sequence_lt hintact e he
    have hlimit : 0 < q.pageLimit := by
      rw [← hq]
      exact (by decide : 0 < min (100 : UInt16).toNat maxHistoryPage)
    have hbytes : maximumLine ≤ q.maximumPayloadBytes.toNat := by
      rw [← hq]
      exact (by decide : 8192 ≤ (48 * 1024 : UInt32).toNat)
    refine progress_of_visible hsync hlimit hbytes hfresh hvisible ?_
    have hceiling := scanCeiling_eq hsync
    rw [hcursor] at hceiling ⊢
    simp only [kSyncCoverageWindow] at hwindow
    simp only [maximumScanned]
    simp only at hnewest
    omega

/-! ### A corrupt line -/

/-- A day whose file has a line that is no envelope, and a day with a reading. -/
def halfCorrupt : Card :=
  AList.insert (recordPath (minuteReading 2 1700089200000))
    (recordEnvelope textJson (minuteReading 2 1700089200000))
    (AList.insert (recordPath (minuteReading 1 1700002800000)) [63, 10] ∅)

/-- A day with a reading. -/
def oneDay : Card :=
  AList.insert (recordPath (minuteReading 2 1700089200000))
    (recordEnvelope textJson (minuteReading 2 1700089200000)) ∅

/-- The file of a single reading. -/
theorem contentEntries_record {j : JsonLibrary} (hj : j.Lawful) (r : IntervalRecord)
    (hlen : (recordEnvelope j r).length ≤ maximumLine) :
    contentEntries j .readings (recordEnvelope j r) = some [entryOf j r] := by
  obtain ⟨init, hinit, hnewline⟩ := recordEnvelope_line hj r
  obtain ⟨h1, h2⟩ := lines_line hnewline []
  rw [← hinit] at h1 h2
  unfold contentEntries
  rw [h1, h2, lines_nil, unterminated_nil, if_pos rfl]
  simp [gather, lineEntries_eq_some.mpr ⟨hlen, _, decodeLine_recordEnvelope hj r, rfl⟩]

/-- The variables after the recovery of the day with reading 2. -/
def recovered : Ram where
  nextSequence := 3
  health := {
    oldestSequence := 2
    oldestSyncableSequence := 2
    newestSyncableSequence := 2
    newestSequence := 2
    localRecordCount := 1
    sequenceFloor := 2
    nextSequence := 3 }

/-- The recovery of the day alone, and that of the card with a corrupt line in another segment. -/
theorem recovered_days :
    (((run device (recover textJson {}) (List.replicate 20 .done) oneDay).2 =
        some ((recovered, true), List.replicate 12 .done) ∧
      (run device (recover textJson {}) (List.replicate 20 .done) oneDay).1.lookup
        (recordPath (minuteReading 2 1700089200000)) =
        some (recordEnvelope textJson (minuteReading 2 1700089200000)) ∧
      loadSegmentMetadata textJson (run device (recover textJson {}) (List.replicate 20 .done) oneDay).1 {}
        .readings (recordPath (minuteReading 2 1700089200000)) = none ∧
      Progress (readPage textJson (run device (recover textJson {}) (List.replicate 20 .done) oneDay).1 {}
        recovered.health { afterSequence := 1, requireSyncable := true }) 1) ∧
      isRecordFile (recordPath (minuteReading 2 1700089200000)) = true ∧
      (recordEnvelope textJson (minuteReading 2 1700089200000)).length ≤ maximumLine) ∧
    (run device (recover textJson {}) (List.replicate 20 .done) halfCorrupt).2 =
        some ((recovered, true), List.replicate 8 .done) ∧
      (run device (recover textJson {}) (List.replicate 20 .done) halfCorrupt).1.lookup
        (recordPath (minuteReading 2 1700089200000)) =
        some (recordEnvelope textJson (minuteReading 2 1700089200000)) ∧
      ¬ Progress (readPage textJson (run device (recover textJson {}) (List.replicate 20 .done)
        halfCorrupt).1 {} recovered.health { afterSequence := 1, requireSyncable := true }) 1 := by
  decide +kernel

/-- The day's file, alone on the card: the page after cursor 1 gets past it, so the file was readable. -/
theorem oneDay_readable :
    Readable textJson (run device (recover textJson {}) (List.replicate 20 .done) oneDay).1
      { afterSequence := 1, requireSyncable := true } (recordPath (minuteReading 2 1700089200000)) := by
  obtain ⟨⟨⟨hrun, hfile, hsidecar, hprogress⟩, hpath, hlength⟩, -⟩ := recovered_days
  exact ((progress_iff
    (along_of_forall _ _ fun e he o s => Or.inl (List.eq_of_mem_replicate he)) hrun hpath hfile
    (contentEntries_record textJson_lawful _ hlength)
    (fun metadata h => by rw [hsidecar] at h; cases h) (List.mem_singleton_self _) (by decide)
    (by decide)).mp hprogress).2 _ (mem_recordFiles.mpr ⟨⟨_, hfile⟩, hpath⟩)

/-- **A corrupt line in another segment blocks the page**, after a successful recovery and with a reading
in the window in an intact segment. -/
theorem corrupt_line_blocks :
    (run device (recover textJson {}) (List.replicate 20 .done) halfCorrupt).2 =
        some ((recovered, true), List.replicate 8 .done) ∧
      (run device (recover textJson {}) (List.replicate 20 .done) halfCorrupt).1.lookup
        (recordPath (minuteReading 2 1700089200000)) =
        some (recordEnvelope textJson (minuteReading 2 1700089200000)) ∧
      contentEntries textJson .readings (recordEnvelope textJson (minuteReading 2 1700089200000)) =
        some [entryOf textJson (minuteReading 2 1700089200000)] ∧
      (entryOf textJson (minuteReading 2 1700089200000)).syncable = true ∧
      1 < (entryOf textJson (minuteReading 2 1700089200000)).sequence ∧
      (entryOf textJson (minuteReading 2 1700089200000)).sequence ≤ 1 + kSyncCoverageWindow ∧
      ¬ Progress (readPage textJson (run device (recover textJson {}) (List.replicate 20 .done)
        halfCorrupt).1 {} recovered.health { afterSequence := 1, requireSyncable := true }) 1 := by
  obtain ⟨⟨-, -, hlength⟩, hrun, hfile, hprogress⟩ := recovered_days
  exact ⟨hrun, hfile, contentEntries_record textJson_lawful _ hlength, by decide, by decide, by decide, hprogress⟩

end PowerMonitor.Storage.CorruptSegments
