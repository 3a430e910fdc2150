import PowerMonitor.Storage.CalmOperations

/-! # What a recovery of a laid out card counts

On a laid out card a recovery finds the greatest stored sequence (`greatest_cardTally`), if the sidecars
it relies on state the last sequence of their segments, and the greatest sequence of a synchronisable
record (`greatest_syncable`), if there are no sidecars. -/

namespace PowerMonitor.Storage.Counting

open PowerMonitor.Lib.Binary PowerMonitor.Lib.Json PowerMonitor.Lib.Walk
open PowerMonitor.Storage.Reading PowerMonitor.Storage.Media PowerMonitor.Storage.Segment
open PowerMonitor.Storage.ReadPage PowerMonitor.Storage.PageSpec PowerMonitor.Storage.SdStorage
open PowerMonitor.Storage.Frames PowerMonitor.Storage.Intact PowerMonitor.Storage.Recovery
open PowerMonitor.Storage.Layout PowerMonitor.Storage.CalmOperations

variable {j : JsonLibrary} {card : Card} {held : Bytes → List IntervalRecord}

/-! ### Entries -/

theorem isGreatest_insert_max (m n : ℕ) : IsGreatest (insert m {n}) (max m n) := by
  constructor
  · rcases Nat.le_total m n with h | h
    · exact Or.inr (by simp [h])
    · exact Or.inl (by omega)
  · rintro s (rfl | rfl) <;> omega

/-- The greatest sequence of some entries, and of the synchronisable ones. -/
theorem greatest_addRecord (es : List Entry) (t : Tally) :
    IsGreatest (insert t.maximumSequence {n | ∃ e ∈ es, e.sequence = n})
        (es.foldl Tally.addRecord t).maximumSequence ∧
      IsGreatest (insert t.newestSyncableSequence {n | ∃ e ∈ es, e.syncable = true ∧ e.sequence = n})
        (es.foldl Tally.addRecord t).newestSyncableSequence := by
  have hmax : ∀ t : Tally, ∀ e ∈ es, IsGreatest (insert t.maximumSequence {e.sequence})
      (t.addRecord e).maximumSequence := fun t e _ => isGreatest_insert_max _ _
  have hsync : ∀ t : Tally, ∀ e ∈ es, IsGreatest
      (insert t.newestSyncableSequence {n | e.syncable = true ∧ e.sequence = n})
      (t.addRecord e).newestSyncableSequence := by
    intro t e _
    cases hsync : e.syncable with
    | true => simpa [Tally.addRecord, hsync, eq_comm] using
        isGreatest_insert_max t.newestSyncableSequence e.sequence
    | false => simp [Tally.addRecord, hsync]
  constructor
  · simpa [eq_comm] using isGreatest_foldl Tally.maximumSequence (fun e : Entry => {e.sequence}) hmax t
  · exact isGreatest_foldl Tally.newestSyncableSequence _ hsync t

/-! ### Segments -/

/-- The entries of a file, if they can be read. -/
def entriesAt (j : JsonLibrary) (card : Card) (path : Bytes) : List Entry :=
  ((card.lookup path).bind (contentEntries j .readings)).getD []

/-- The sidecar a recovery relies on states the last sequence of its segment. -/
def ExactSidecar (j : JsonLibrary) (card : Card) (path : Bytes) : Prop :=
  ∀ metadata, loadSegmentMetadata j card {} .readings path = some metadata →
    IsGreatest {n | ∃ e ∈ entriesAt j card path, e.sequence = n} metadata.lastSequence

/-- The file of a segment can be read. -/
def Decodable (j : JsonLibrary) (card : Card) (path : Bytes) : Prop :=
  ∀ content, card.lookup path = some content → ∃ es, contentEntries j .readings content = some es

theorem fileTally_eq {path : Bytes} (hdecodes : Decodable j card path) (t : Tally) :
    segmentTally.fileTally j card path t = (entriesAt j card path).foldl Tally.addRecord t := by
  unfold segmentTally.fileTally entriesAt
  cases hfile : card.lookup path with
  | none => rfl
  | some content =>
    obtain ⟨es, hes⟩ := hdecodes content hfile
    simp only [recoverLines_intact hes, Option.bind_some, hes, Option.getD_some]

theorem greatest_segmentTally {path : Bytes} (hdecodes : Decodable j card path)
    (hexact : ExactSidecar j card path) (t : Tally) :
    IsGreatest (insert t.maximumSequence {n | ∃ e ∈ entriesAt j card path, e.sequence = n})
      (segmentTally j card t path).maximumSequence := by
  have hfile : IsGreatest (insert t.maximumSequence {n | ∃ e ∈ entriesAt j card path, e.sequence = n})
      (segmentTally.fileTally j card path t).maximumSequence := by
    rw [fileTally_eq hdecodes]
    exact (greatest_addRecord _ t).1
  unfold segmentTally
  cases hmeta : loadSegmentMetadata j card {} .readings path with
  | none => exact hfile
  | some metadata =>
    simp only
    split
    · -- the sidecar states the greatest sequence of the segment
      obtain ⟨hmem, hbound⟩ := hexact metadata hmeta
      constructor
      · rcases Nat.le_total t.maximumSequence metadata.lastSequence with h | h
        · exact Or.inr (by simpa [Tally.addSegment, h] using hmem)
        · exact Or.inl (by simp [Tally.addSegment, h])
      · rintro n (rfl | hn)
        · exact Nat.le_max_left ..
        · exact (hbound hn).trans (Nat.le_max_right ..)
    · exact hfile

theorem syncable_le_segmentTally {path : Bytes} (hdecodes : Decodable j card path) {t : Tally}
    (ht : t.newestSyncableSequence ≤ t.maximumSequence) :
    (segmentTally j card t path).newestSyncableSequence ≤ (segmentTally j card t path).maximumSequence := by
  have hfile : (segmentTally.fileTally j card path t).newestSyncableSequence ≤
      (segmentTally.fileTally j card path t).maximumSequence := by
    rw [fileTally_eq hdecodes]
    obtain ⟨hmax, hsync⟩ := greatest_addRecord (entriesAt j card path) t
    rcases hsync.1 with h | ⟨e, he, -, h⟩
    · rw [h]
      exact ht.trans (hmax.2 (Set.mem_insert _ _))
    · rw [← h]
      exact hmax.2 (Or.inr ⟨e, he, rfl⟩)
  unfold segmentTally
  cases loadSegmentMetadata j card {} .readings path with
  | none => exact hfile
  | some metadata =>
    simp only
    split
    · simp only [Tally.addSegment]
      omega
    · exact hfile

/-! ### The card -/

/-- The stored sequences. -/
def stored (held : Bytes → List IntervalRecord) : Set ℕ := {n | ∃ x, ∃ r ∈ held x, r.sequence.toNat = n}

/-- The stored sequences of synchronisable records. -/
def storedSyncable (held : Bytes → List IntervalRecord) : Set ℕ :=
  {n | ∃ x, ∃ r ∈ held x, syncableRecord r = true ∧ r.sequence.toNat = n}

theorem entriesAt_recordStem (hj : j.Lawful) (h : LaidOut j card held) (x : Bytes) :
    entriesAt j card (recordStem x) = (held x).map (entryOf j) := by
  unfold entriesAt
  cases hfile : card.lookup (recordStem x) with
  | none => rw [eq_nil_of_fileOf (h.empty_of_missing hfile)]; rfl
  | some content =>
    have := (h.laid x).file
    rw [hfile, Option.getD_some] at this
    rw [Option.bind_some, this, contentEntries_fileOf hj (h.fits x), Option.getD_some]

theorem decodable_of_laidOut (hj : j.Lawful) (h : LaidOut j card held) {path : Bytes}
    (hpath : path ∈ recordFiles card) : Decodable j card path := by
  intro content hfile
  obtain ⟨x, rfl⟩ := h.stems path (isRecordFile_of_mem hpath) (by rw [hfile]; rfl)
  have hcontent := (h.laid x).file
  rw [hfile, Option.getD_some] at hcontent
  rw [hcontent]
  exact ⟨_, contentEntries_fileOf hj (h.fits x)⟩

/-- The entries of all files are those of the stored records. -/
theorem mem_entriesAt_iff (hj : j.Lawful) (h : LaidOut j card held) (e : Entry) :
    (∃ path ∈ recordFiles card, e ∈ entriesAt j card path) ↔ ∃ x, ∃ r ∈ held x, entryOf j r = e := by
  constructor
  · rintro ⟨path, hpath, he⟩
    obtain ⟨⟨content, hfile⟩, hrecord⟩ := mem_recordFiles.mp hpath
    obtain ⟨x, rfl⟩ := h.stems path hrecord (by rw [hfile]; rfl)
    rw [entriesAt_recordStem hj h] at he
    obtain ⟨r, hr, rfl⟩ := List.mem_map.mp he
    exact ⟨x, r, hr, rfl⟩
  · rintro ⟨x, r, hr, rfl⟩
    obtain ⟨content, hfile⟩ := Option.isSome_iff_exists.mp (h.isSome_of_mem hr)
    refine ⟨recordStem x, mem_recordFiles.mpr ⟨⟨content, hfile⟩, isRecordFile_recordStem x⟩, ?_⟩
    rw [entriesAt_recordStem hj h]
    exact List.mem_map_of_mem hr

/-- **A recovery finds the greatest stored sequence.** -/
theorem greatest_cardTally (hj : j.Lawful) (h : LaidOut j card held)
    (hexact : ∀ path ∈ recordFiles card, ExactSidecar j card path) :
    IsGreatest (insert 0 (stored held)) (cardTally j card).maximumSequence := by
  have hfold := isGreatest_foldl Tally.maximumSequence
    (fun path => {n | ∃ e ∈ entriesAt j card path, e.sequence = n}) (fun t path hpath =>
      greatest_segmentTally (decodable_of_laidOut hj h hpath) (hexact path hpath) t) {}
  have hset : {n | ∃ path ∈ recordFiles card, ∃ e ∈ entriesAt j card path, e.sequence = n} = stored held := by
    ext n
    constructor
    · rintro ⟨path, hpath, e, he, rfl⟩
      obtain ⟨x, r, hr, rfl⟩ := (mem_entriesAt_iff hj h e).mp ⟨path, hpath, he⟩
      exact ⟨x, r, hr, rfl⟩
    · rintro ⟨x, r, hr, rfl⟩
      obtain ⟨path, hpath, he⟩ := (mem_entriesAt_iff hj h (entryOf j r)).mpr ⟨x, r, hr, rfl⟩
      exact ⟨path, hpath, _, he, rfl⟩
  rw [← hset]
  exact hfold

theorem syncable_le_cardTally (hj : j.Lawful) (h : LaidOut j card held) :
    (cardTally j card).newestSyncableSequence ≤ (cardTally j card).maximumSequence := by
  have hfold : ∀ (paths : List Bytes) (t : Tally), (∀ path ∈ paths, Decodable j card path) →
      t.newestSyncableSequence ≤ t.maximumSequence →
      (paths.foldl (segmentTally j card) t).newestSyncableSequence ≤
        (paths.foldl (segmentTally j card) t).maximumSequence := by
    intro paths
    induction paths with
    | nil => intro t _ ht; exact ht
    | cons path paths ih =>
      intro t hdecodes ht
      rw [List.forall_mem_cons] at hdecodes
      exact ih _ hdecodes.2 (syncable_le_segmentTally hdecodes.1 ht)
  exact hfold _ {} (fun path hpath => decodable_of_laidOut hj h hpath) (Nat.le_refl 0)

/-- **A recovery without sidecars finds the greatest sequence of a synchronisable record.** -/
theorem greatest_syncable (hj : j.Lawful) (h : LaidOut j card held)
    (hnone : ∀ path ∈ recordFiles card, loadSegmentMetadata j card {} .readings path = none) :
    IsGreatest (insert 0 (storedSyncable held)) (cardTally j card).newestSyncableSequence := by
  have hstep : ∀ t : Tally, ∀ path ∈ recordFiles card, IsGreatest (insert t.newestSyncableSequence
      {n | ∃ e ∈ entriesAt j card path, e.syncable = true ∧ e.sequence = n})
      (segmentTally j card t path).newestSyncableSequence := by
    intro t path hpath
    have hfile : segmentTally j card t path = segmentTally.fileTally j card path t := by
      unfold segmentTally
      rw [hnone path hpath]
    rw [hfile, fileTally_eq (decodable_of_laidOut hj h hpath)]
    exact (greatest_addRecord _ t).2
  have hfold := isGreatest_foldl Tally.newestSyncableSequence _ hstep {}
  have hset : {n | ∃ path ∈ recordFiles card, ∃ e ∈ entriesAt j card path, e.syncable = true ∧
      e.sequence = n} = storedSyncable held := by
    ext n
    constructor
    · rintro ⟨path, hpath, e, he, hsync, rfl⟩
      obtain ⟨x, r, hr, rfl⟩ := (mem_entriesAt_iff hj h e).mp ⟨path, hpath, he⟩
      exact ⟨x, r, hr, hsync, rfl⟩
    · rintro ⟨x, r, hr, hsync, rfl⟩
      obtain ⟨path, hpath, he⟩ := (mem_entriesAt_iff hj h (entryOf j r)).mpr ⟨x, r, hr, rfl⟩
      exact ⟨path, hpath, _, he, hsync, rfl⟩
  rw [← hset]
  exact hfold

end PowerMonitor.Storage.Counting
