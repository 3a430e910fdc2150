import PowerMonitor.Core.IntervalAggregator
import PowerMonitor.Storage.Inspection
import PowerMonitor.Storage.Unavailable

/-! # Recovering from sidecars

A recovery takes the bounds of a closed segment from its sidecar, if all its records are trusted, and counts both
bounds as records that can be synchronized. A scan of the file counts record by record, and a trusted record whose
interval is empty or reversed cannot be synchronized. So the two agree just when the bounds of each such segment lie
between records of the card that can be synchronized (`recoveries_agree_iff`). -/

namespace PowerMonitor.Storage.FastRecovery

open PowerMonitor.Core.IntervalAggregator
open PowerMonitor.Lib.Binary PowerMonitor.Lib.Lines PowerMonitor.Lib.Json PowerMonitor.Lib.Program
open PowerMonitor.Storage.RecordFormat PowerMonitor.Storage.Reading PowerMonitor.Storage.Media
open PowerMonitor.Storage.Segment PowerMonitor.Storage.ReadPage PowerMonitor.Storage.PageSpec
open PowerMonitor.Storage.SdStorage PowerMonitor.Storage.Frames PowerMonitor.Storage.Intact
open PowerMonitor.Storage.Recovery PowerMonitor.Storage.Layout PowerMonitor.Storage.CalmOperations
open PowerMonitor.Storage.Inspection

/-! ### Bounds -/

/-- The smallest of some positive numbers, or zero. -/
def Smallest (S : Set ℕ) (m : ℕ) : Prop := (m = 0 ∧ S = ∅) ∨ (0 < m ∧ IsLeast S m)

/-- The largest of some numbers, or zero. -/
def Largest (S : Set ℕ) (m : ℕ) : Prop := IsGreatest (insert 0 S) m

variable {S T : Set ℕ} {m n : ℕ}

theorem smallest_oldest (h : Smallest S m) (hn : 0 < n) : Smallest (insert n S) (oldest m n) := by
  unfold oldest
  rcases h with ⟨rfl, rfl⟩ | ⟨hpositive, hleast⟩
  · rw [if_pos rfl]
    exact Or.inr ⟨hn, by simp⟩
  · rw [if_neg (by omega), min_comm]
    exact Or.inr ⟨by omega, hleast.insert n⟩

theorem largest_max (h : Largest S m) (n : ℕ) : Largest (insert n S) (max m n) := by
  unfold Largest at h ⊢
  rw [Set.insert_comm, max_comm]
  exact h.insert n

theorem Smallest.le (h : Smallest S m) (hn : n ∈ S) : m ≤ n ∧ 0 < m := by
  rcases h with ⟨rfl, rfl⟩ | ⟨hpositive, hleast⟩
  · cases hn
  · exact ⟨hleast.2 hn, hpositive⟩

theorem Smallest.mem (h : Smallest S m) (hm : 0 < m) : m ∈ S := by
  rcases h with ⟨rfl, -⟩ | ⟨-, hleast⟩
  · exact absurd hm (Nat.lt_irrefl 0)
  · exact hleast.1

theorem Largest.le (h : Largest S m) (hn : n ∈ S) : n ≤ m := h.2 (Set.mem_insert_of_mem _ hn)

theorem Largest.mem (h : Largest S m) (hm : 0 < m) : m ∈ S := h.1.resolve_left (Nat.ne_of_gt hm)

/-- Sets that reach below each other have the same smallest number. -/
theorem Smallest.eq (hS : Smallest S m) (hT : Smallest T n) (hleft : ∀ a ∈ S, ∃ b ∈ T, b ≤ a)
    (hright : ∀ b ∈ T, ∃ a ∈ S, a ≤ b) : m = n := by
  have hle {S T : Set ℕ} {m n : ℕ} (hS : Smallest S m) (hT : Smallest T n) (h : ∀ a ∈ S, ∃ b ∈ T, b ≤ a)
      (hm : 0 < m) : n ≤ m ∧ 0 < n := by
    obtain ⟨b, hb, hba⟩ := h m (hS.mem hm)
    have hn := hT.le hb
    omega
  rcases Nat.eq_zero_or_pos m with hm | hm
  · rcases Nat.eq_zero_or_pos n with hn | hn
    · rw [hm, hn]
    · have hcontra := hle hT hS hright hn
      omega
  · have hn := hle hS hT hleft hm
    have hback := hle hT hS hright hn.2
    omega

theorem Largest.eq (hS : Largest S m) (hT : Largest T n) (hleft : ∀ a ∈ S, ∃ b ∈ T, a ≤ b)
    (hright : ∀ b ∈ T, ∃ a ∈ S, b ≤ a) : m = n := by
  have hle {S T : Set ℕ} {m n : ℕ} (hS : Largest S m) (hT : Largest T n) (h : ∀ a ∈ S, ∃ b ∈ T, a ≤ b) : m ≤ n := by
    rcases Nat.eq_zero_or_pos m with hm | hm
    · omega
    · obtain ⟨b, hb, hab⟩ := h m (hS.mem hm)
      exact hab.trans (hT.le hb)
  exact Nat.le_antisymm (hle hS hT hleft) (hle hT hS hright)

/-- Of two sets the second of which reaches no lower, the smallest numbers are the same if the first does not either. -/
theorem Smallest.eq_iff (hS : Smallest S m) (hT : Smallest T n) (hright : ∀ b ∈ T, ∃ a ∈ S, a ≤ b) :
    m = n ↔ ∀ a ∈ S, ∃ b ∈ T, b ≤ a := by
  constructor
  · rintro rfl a ha
    have hle := hS.le ha
    exact ⟨m, hT.mem hle.2, hle.1⟩
  · intro hleft
    exact hS.eq hT hleft hright

theorem Largest.eq_iff (hS : Largest S m) (hT : Largest T n) (hpositive : ∀ a ∈ S, 0 < a)
    (hright : ∀ b ∈ T, ∃ a ∈ S, b ≤ a) : m = n ↔ ∀ a ∈ S, ∃ b ∈ T, a ≤ b := by
  constructor
  · rintro rfl a ha
    have hle := hS.le ha
    exact ⟨m, hT.mem ((hpositive a ha).trans_le hle), hle⟩
  · intro hleft
    exact hS.eq hT hleft hright

/-! ### What is counted -/

/-- The sequences of some records. -/
def sequences (rs : List IntervalRecord) : Set ℕ := {n | ∃ r ∈ rs, r.sequence.toNat = n}

/-- The tally counts the sequences `A`, and `S` as those that can be synchronized. -/
structure Tells (t : Tally) (A S : Set ℕ) : Prop where
  maximum : Largest A t.maximumSequence
  oldest : Smallest A t.oldestSequence
  oldestSyncable : Smallest S t.oldestSyncableSequence
  newestSyncable : Largest S t.newestSyncableSequence

theorem tells_initial : Tells {} ∅ ∅ where
  maximum := by simp [Largest]
  oldest := Or.inl ⟨rfl, rfl⟩
  oldestSyncable := Or.inl ⟨rfl, rfl⟩
  newestSyncable := by simp [Largest]

theorem Tells.addRecord {t : Tally} {A S : Set ℕ} (h : Tells t A S) {e : Entry} (he : 0 < e.sequence) :
    Tells (t.addRecord e) (insert e.sequence A) (if e.syncable then insert e.sequence S else S) := by
  refine ⟨largest_max h.maximum _, smallest_oldest h.oldest he, ?_, ?_⟩
  · simp only [Tally.addRecord]
    split
    · exact smallest_oldest h.oldestSyncable he
    · exact h.oldestSyncable
  · simp only [Tally.addRecord]
    split
    · exact largest_max h.newestSyncable _
    · exact h.newestSyncable

theorem Smallest.insert_of_le (h : Smallest S m) {a : ℕ} (ha : a ∈ S) (hle : a ≤ n) : Smallest (insert n S) m := by
  obtain ⟨hm, hpositive⟩ := h.le ha
  refine Or.inr ⟨hpositive, Set.mem_insert_of_mem _ (h.mem hpositive), fun b hb => ?_⟩
  rcases hb with rfl | hb
  · omega
  · exact (h.le hb).1

theorem Largest.insert_of_le (h : Largest S m) {a : ℕ} (ha : a ∈ S) (hle : n ≤ a) : Largest (insert n S) m := by
  have hm := h.le ha
  unfold Largest at h ⊢
  rw [Set.insert_comm]
  refine ⟨Set.mem_insert_of_mem _ h.1, fun b hb => ?_⟩
  rcases hb with rfl | hb
  · omega
  · exact h.2 hb

/-- A sidecar tells of its bounds. -/
theorem Tells.addSegment {t : Tally} {A S : Set ℕ} (h : Tells t A S) {metadata : SegmentMetadata}
    (hfirst : 0 < metadata.firstSequence) (hordered : metadata.firstSequence ≤ metadata.lastSequence) :
    Tells (t.addSegment metadata) (insert metadata.lastSequence (insert metadata.firstSequence A))
      (insert metadata.lastSequence (insert metadata.firstSequence S)) := by
  have hsmallest {S : Set ℕ} {m : ℕ} (h : Smallest S m) :
      Smallest (insert metadata.lastSequence (insert metadata.firstSequence S)) (SdStorage.oldest m metadata.firstSequence) :=
    (smallest_oldest h hfirst).insert_of_le (Set.mem_insert _ _) hordered
  have hlargest {S : Set ℕ} {m : ℕ} (h : Largest S m) :
      Largest (insert metadata.lastSequence (insert metadata.firstSequence S)) (max m metadata.lastSequence) := by
    rw [Set.insert_comm]
    exact (largest_max h _).insert_of_le (Set.mem_insert _ _) hordered
  exact ⟨hlargest h.maximum, hsmallest h.oldest, hsmallest h.oldestSyncable, hlargest h.newestSyncable⟩

variable {j : JsonLibrary} {card bare : Card} {held : Bytes → List IntervalRecord} {path : Bytes}

theorem sequences_cons (r : IntervalRecord) (rs : List IntervalRecord) :
    sequences (r :: rs) = insert r.sequence.toNat (sequences rs) := by
  ext n
  simp only [sequences, List.exists_mem_cons_iff, Set.mem_ofPred_eq, Set.mem_insert_iff]
  rw [@eq_comm ℕ n]

/-- **A scan tells of every record.** -/
theorem Tells.addRecords (rs : List IntervalRecord) : ∀ {t : Tally} {A S : Set ℕ}, Tells t A S →
    (∀ r ∈ rs, 0 < r.sequence.toNat) →
    Tells ((rs.map (entryOf j)).foldl Tally.addRecord t) (sequences rs ∪ A) (sequences (rs.filter syncableRecord) ∪ S) ∧
      ((rs.map (entryOf j)).foldl Tally.addRecord t).localRecordCount = t.localRecordCount + rs.length := by
  induction rs with
  | nil =>
    intro t A S h _
    have hnone : sequences [] = ∅ := by simp [sequences]
    rw [List.filter_nil, hnone, Set.empty_union, Set.empty_union]
    exact ⟨h, rfl⟩
  | cons r rs ih =>
    intro t A S h hpositive
    rw [List.forall_mem_cons] at hpositive
    obtain ⟨htells, hcount⟩ := ih (h.addRecord (e := entryOf j r) hpositive.1) hpositive.2
    rw [List.map_cons, List.foldl_cons]
    refine ⟨?_, ?_⟩
    · have hall : sequences (r :: rs) ∪ A = sequences rs ∪ insert (entryOf j r).sequence A := by
        rw [sequences_cons, Set.insert_union, Set.union_insert]
        rfl
      have hsync : sequences ((r :: rs).filter syncableRecord) ∪ S = sequences (rs.filter syncableRecord) ∪
          (if (entryOf j r).syncable = true then insert (entryOf j r).sequence S else S) := by
        rw [List.filter_cons, show (entryOf j r).syncable = syncableRecord r from rfl]
        split
        · rw [sequences_cons, Set.insert_union, Set.union_insert]
          rfl
        · rfl
      rw [hall, hsync]
      exact htells
    · rw [hcount, List.length_cons]
      simp only [Tally.addRecord]
      omega

/-! ### What is inspected -/

/-- What was found so far in a file of records. -/
structure Found (m : InspectedSegment) (rs : List IntervalRecord) : Prop where
  first : Smallest (sequences rs) m.firstSequence
  last : Largest (sequences rs) m.lastSequence
  count : m.recordCount = rs.length % 2 ^ 32
  trusted : m.allTimesTrusted = rs.all IntervalRecord.timeTrusted

theorem sequences_append (rs : List IntervalRecord) (r : IntervalRecord) :
    sequences (rs ++ [r]) = insert r.sequence.toNat (sequences rs) := by
  ext n
  simp only [sequences, List.mem_append, List.mem_singleton, Set.mem_ofPred_eq, Set.mem_insert_iff]
  constructor
  · rintro ⟨s, hs | rfl, hn⟩
    · exact Or.inr ⟨s, hs, hn⟩
    · exact Or.inl hn.symm
  · rintro (rfl | ⟨s, hs, hn⟩)
    · exact ⟨r, Or.inr rfl, rfl⟩
    · exact ⟨s, Or.inl hs, hn⟩

/-- A stored record is a good line. -/
theorem inspectLine_record (hj : j.Lawful) {r : IntervalRecord} (hfits : (recordEnvelope j r).length ≤ maximumLine) :
    ∃ document checksum, inspectLine j (recordEnvelope j r) = some (document, checksum) ∧
      (document (ascii "sequence")).asUnsigned = r.sequence ∧
      (document (ascii "time_trusted")).booleanOr false = r.timeTrusted := by
  obtain ⟨document, hdocument, hshows⟩ := hj.readsBack (recordDocument r) (nodup_recordDocument r)
  have hsequence := hshows (ascii "sequence") (unsigned r.sequence) (by simp [recordDocument])
  have htrusted := hshows (ascii "time_trusted") (.scalar (.boolean r.timeTrusted)) (by simp [recordDocument])
  simp only [Shows, unsigned] at hsequence htrusted
  refine ⟨document, crc32 (serializeRecord j r), ?_, hsequence.1, by simp [View.booleanOr, htrusted]⟩
  unfold inspectLine
  rw [if_neg (by simp only [maximumLine] at hfits; omega), recordEnvelope, decodeEnvelope_encodeEnvelope]
  simp only [Option.bind_eq_bind, Option.bind_some, serializeRecord, hdocument, hsequence.2, if_true]
  rfl

/-- **The inspection of a file of records** finds the bounds of their sequences, their number and whether all are
trusted. -/
theorem inspectLines_found (hj : j.Lawful) (rs : List IntervalRecord) : ∀ (done : List IntervalRecord)
    (m : InspectedSegment), Found m done → (∀ r ∈ rs, (recordEnvelope j r).length ≤ maximumLine) →
    (∀ r ∈ rs, 0 < r.sequence.toNat) → Found (inspectLines j (rs.map (recordEnvelope j)) m) (done ++ rs) := by
  induction rs with
  | nil =>
    intro done m h _ _
    rw [List.append_nil]
    exact h
  | cons r rs ih =>
    intro done m h hfits hpositive
    rw [List.forall_mem_cons] at hfits hpositive
    obtain ⟨document, checksum, hline, hsequence, htrusted⟩ := inspectLine_record hj hfits.1
    have hnext : Found (m.addRecord document checksum) (done ++ [r]) := by
      refine ⟨?_, ?_, ?_, ?_⟩
      · rw [sequences_append]
        simp only [InspectedSegment.addRecord, hsequence]
        exact smallest_oldest h.first hpositive.1
      · rw [sequences_append]
        simp only [InspectedSegment.addRecord, hsequence]
        exact largest_max h.last _
      · simp only [InspectedSegment.addRecord, h.count, List.length_append, List.length_singleton]
        omega
      · simp only [InspectedSegment.addRecord, h.trusted, htrusted, List.all_append, List.all_cons, List.all_nil,
          Bool.and_true]
    have hlater := ih (done ++ [r]) _ hnext hfits.2 hpositive.2
    rw [List.map_cons]
    unfold inspectLines
    rw [hline]
    rw [List.append_assoc, List.singleton_append] at hlater
    exact hlater

/-! ### Cards -/

/-- **The card as it is written**: each file of records holds envelopes of records that have a sequence, and each
sidecar was written after an inspection, of the file as it is or of another. -/
structure Written (j : JsonLibrary) (card : Card) (held : Bytes → List IntervalRecord) : Prop where
  files : ∀ path, isRecordFile path = true → ∀ content, card.lookup path = some content → content = fileOf j (held path)
  fits : ∀ path, ∀ r ∈ held path, (recordEnvelope j r).length ≤ maximumLine
  numbered : ∀ path, ∀ r ∈ held path, 0 < r.sequence.toNat
  size : ∀ path, (held path).length < 2 ^ 32
  sidecars : ∀ path, isRecordFile path = true → ∀ sidecar, card.lookup (metadataPath path) = some sidecar →
    ∃ m, sidecar = sidecarEnvelope j m ∧
      (m = inspectSegment j path (card.lookup path) (card.lookup (pairedIndexPath path)) ∨ cString m.recordPath ≠ path)

/-- The same files of records, and no sidecar. -/
structure Bare (card bare : Card) : Prop where
  files : ∀ path, isRecordFile path = true → bare.lookup path = card.lookup path
  sidecars : ∀ path, isRecordFile path = true → bare.lookup (metadataPath path) = none

/-- The bounds a recovery takes from a sidecar. -/
def fromSidecar (j : JsonLibrary) (card : Card) (path : Bytes) : Option SegmentMetadata :=
  (loadSegmentMetadata j card {} .readings path).filter SegmentMetadata.allTimesTrusted

theorem segmentTally_eq (t : Tally) (path : Bytes) : segmentTally j card t path =
    match fromSidecar j card path with
    | some metadata => t.addSegment metadata
    | none => segmentTally.fileTally j card path t := by
  unfold segmentTally fromSidecar
  cases loadSegmentMetadata j card {} .readings path with
  | none => rfl
  | some metadata =>
    cases htrusted : metadata.allTimesTrusted with
    | false => simp [Option.filter, htrusted]
    | true => simp [Option.filter, htrusted]

/-- What a sidecar that is used says of the records of its file. -/
structure Bounds (metadata : SegmentMetadata) (rs : List IntervalRecord) : Prop where
  first : IsLeast (sequences rs) metadata.firstSequence
  last : IsGreatest (sequences rs) metadata.lastSequence
  count : metadata.recordCount = rs.length
  positive : 0 < metadata.firstSequence
  trusted : ∀ r ∈ rs, r.timeTrusted = true

theorem Written.entries (hj : j.Lawful) (h : Written j card held) (hpath : isRecordFile path = true) {content : Bytes}
    (hcontent : card.lookup path = some content) :
    contentEntries j .readings content = some ((held path).map (entryOf j)) := by
  rw [h.files path hpath content hcontent]
  exact contentEntries_fileOf hj (h.fits path)

/-- **A sidecar that is used states the bounds** of the records of its file. -/
theorem Written.bounds (hj : j.Lawful) (h : Written j card held) (hpath : isRecordFile path = true)
    {metadata : SegmentMetadata} (hmetadata : fromSidecar j card path = some metadata) : Bounds metadata (held path) := by
  obtain ⟨hload, htrusted⟩ := Option.filter_eq_some_iff.mp hmetadata
  unfold loadSegmentMetadata openFile at hload
  simp only [if_true] at hload
  cases hsidecar : card.lookup (metadataPath path) with
  | none =>
    rw [hsidecar] at hload
    cases hload
  | some sidecar =>
    obtain ⟨m, rfl, hm⟩ := h.sidecars path hpath sidecar hsidecar
    rw [hsidecar] at hload
    have haccepted := accepted_sidecar hj hload
    have hinspected := hm.resolve_right fun hne => hne haccepted.path
    obtain ⟨content, hcontent⟩ : ∃ content, card.lookup path = some content := by
      cases hfile : card.lookup path with
      | none =>
        have hsize := haccepted.recordSize
        rw [hfile] at hsize
        cases hsize
      | some content => exact ⟨content, rfl⟩
    have hlines : lines content = (held path).map (recordEnvelope j) := by
      rw [h.files path hpath content hcontent]
      exact (lines_fileOf hj _).1
    have hnone : Found (.opened path (some content)) [] :=
      ⟨Or.inl ⟨rfl, by simp [sequences]⟩, by simp [Largest, sequences, InspectedSegment.opened], rfl, rfl⟩
    have hfound := inspectLines_found hj (held path) [] _ hnone (h.fits path) (h.numbered path)
    rw [List.nil_append, ← hlines] at hfound
    have hread : Found m (held path) := by
      rw [hinspected, hcontent]
      exact ⟨hfound.first, hfound.last, hfound.count, hfound.trusted⟩
    have hsmall {n : ℕ} (hn : n ∈ sequences (held path)) : (UInt64.ofNat n).toNat = n := by
      obtain ⟨r, -, rfl⟩ := hn
      rw [UInt64.ofNat_toNat]
    have hpositive : 0 < m.firstSequence := by
      rcases Nat.eq_zero_or_pos m.firstSequence with hzero | hpos
      · have hfirst := haccepted.first
        rw [hzero] at hfirst
        exact absurd haccepted.positive (by rw [hfirst]; decide)
      · exact hpos
    have hleast := hread.first.mem hpositive
    have hlast : 0 < m.lastSequence := (hread.first.le hleast).2.trans_le (hread.last.le hleast)
    have hgreatest := hread.last.mem hlast
    have hfirst : metadata.firstSequence = m.firstSequence := haccepted.first.trans (hsmall hleast)
    have hlast' : metadata.lastSequence = m.lastSequence := haccepted.last.trans (hsmall hgreatest)
    have hcount : m.recordCount = (held path).length := by
      rw [hread.count, Nat.mod_eq_of_lt (h.size path)]
    have hcount' : (UInt64.ofNat m.recordCount).toNat = m.recordCount := by
      have hsize := h.size path
      rw [UInt64.toNat_ofNat']
      omega
    refine ⟨?_, ?_, ?_, haccepted.positive, ?_⟩
    · rw [hfirst]
      exact ⟨hleast, fun n hn => (hread.first.le hn).1⟩
    · rw [hlast']
      exact ⟨hgreatest, fun n hn => hread.last.le hn⟩
    · rw [haccepted.count, hcount', if_pos (by rw [hcount]; exact h.size path), hcount]
    · rw [haccepted.trusted, hread.trusted, List.all_eq_true] at htrusted
      exact htrusted

/-! ### The figures of a card -/

/-- Steps that each tell of some sequences, one after the other. -/
theorem tells_foldl {step : Tally → Bytes → Tally} {A S : Bytes → Set ℕ} {count : Bytes → ℕ} :
    ∀ (paths : List Bytes), (∀ path ∈ paths, ∀ t A₀ S₀, Tells t A₀ S₀ →
      Tells (step t path) (A path ∪ A₀) (S path ∪ S₀) ∧
        (step t path).localRecordCount = t.localRecordCount + count path) →
    ∀ t A₀ S₀, Tells t A₀ S₀ →
      Tells (paths.foldl step t) ({n | ∃ path ∈ paths, n ∈ A path} ∪ A₀) ({n | ∃ path ∈ paths, n ∈ S path} ∪ S₀) ∧
        (paths.foldl step t).localRecordCount = t.localRecordCount + (paths.map count).sum := by
  intro paths
  induction paths with
  | nil =>
    intro _ t A₀ S₀ h
    have hnone (B : Bytes → Set ℕ) : {n | ∃ path ∈ ([] : List Bytes), n ∈ B path} = ∅ := by simp
    rw [hnone, hnone, Set.empty_union, Set.empty_union]
    exact ⟨h, rfl⟩
  | cons path paths ih =>
    intro hstep t A₀ S₀ h
    rw [List.forall_mem_cons] at hstep
    obtain ⟨hone, hcount⟩ := hstep.1 t A₀ S₀ h
    obtain ⟨hrest, hcounts⟩ := ih hstep.2 _ _ _ hone
    have hcons (B : Bytes → Set ℕ) (B₀ : Set ℕ) : {n | ∃ p ∈ path :: paths, n ∈ B p} ∪ B₀ =
        {n | ∃ p ∈ paths, n ∈ B p} ∪ (B path ∪ B₀) := by
      ext n
      simp only [List.exists_mem_cons_iff, Set.mem_union, Set.mem_ofPred_eq]
      rw [or_assoc, or_left_comm]
    rw [hcons, hcons, List.foldl_cons, List.map_cons, List.sum_cons]
    exact ⟨hrest, by omega⟩

/-- The sequences of the records of a card, and of those that can be synchronized. -/
def stored (card : Card) (held : Bytes → List IntervalRecord) : Set ℕ :=
  {n | ∃ path ∈ recordFiles card, n ∈ sequences (held path)}

def storedSyncable (card : Card) (held : Bytes → List IntervalRecord) : Set ℕ :=
  {n | ∃ path ∈ recordFiles card, n ∈ sequences ((held path).filter syncableRecord)}

/-- What a recovery counts of a file: the bounds its sidecar states, or what a scan finds. -/
def counted (j : JsonLibrary) (card : Card) (path : Bytes) (scanned : Set ℕ) : Set ℕ :=
  match fromSidecar j card path with
  | some metadata => {metadata.lastSequence, metadata.firstSequence}
  | none => scanned

/-- The sequences that a recovery with sidecars counts as those of records that can be synchronized. -/
def countedSyncable (j : JsonLibrary) (card : Card) (held : Bytes → List IntervalRecord) : Set ℕ :=
  {n | ∃ path ∈ recordFiles card, n ∈ counted j card path (sequences ((held path).filter syncableRecord))}

theorem Written.segment (hj : j.Lawful) (h : Written j card held) (hpath : path ∈ recordFiles card) {t : Tally}
    {A S : Set ℕ} (ht : Tells t A S) :
    Tells (segmentTally j card t path) (counted j card path (sequences (held path)) ∪ A)
        (counted j card path (sequences ((held path).filter syncableRecord)) ∪ S) ∧
      (segmentTally j card t path).localRecordCount = t.localRecordCount + (held path).length := by
  obtain ⟨⟨content, hcontent⟩, hrecord⟩ := mem_recordFiles.mp hpath
  rw [segmentTally_eq]
  unfold counted
  cases hsidecar : fromSidecar j card path with
  | none =>
    have hentries := h.entries hj hrecord hcontent
    simp only [segmentTally.fileTally, hcontent, recoverLines_intact hentries]
    exact ht.addRecords (held path) (h.numbered path)
  | some metadata =>
    have hbounds := h.bounds hj hrecord hsidecar
    simp only [Set.insert_union, Set.singleton_union]
    refine ⟨ht.addSegment hbounds.positive (hbounds.first.2 hbounds.last.1), ?_⟩
    rw [Tally.addSegment, hbounds.count]

/-- **What a recovery with sidecars counts.** -/
theorem Written.tells (hj : j.Lawful) (h : Written j card held) :
    Tells (cardTally j card) {n | ∃ path ∈ recordFiles card, n ∈ counted j card path (sequences (held path))}
        (countedSyncable j card held) ∧
      (cardTally j card).localRecordCount = ((recordFiles card).map fun path => (held path).length).sum := by
  obtain ⟨htells, hcount⟩ := tells_foldl (recordFiles card)
    (fun path hpath t A₀ S₀ ht => h.segment hj hpath ht) {} ∅ ∅ tells_initial
  rw [Set.union_empty, Set.union_empty] at htells
  rw [Nat.zero_add] at hcount
  exact ⟨htells, hcount⟩

theorem Bare.mem_recordFiles (h : Bare card bare) : path ∈ recordFiles bare ↔ path ∈ recordFiles card := by
  rw [Media.mem_recordFiles, Media.mem_recordFiles]
  constructor
  · rintro ⟨⟨content, hcontent⟩, hrecord⟩
    exact ⟨⟨content, by rw [← h.files path hrecord, hcontent]⟩, hrecord⟩
  · rintro ⟨⟨content, hcontent⟩, hrecord⟩
    exact ⟨⟨content, by rw [h.files path hrecord, hcontent]⟩, hrecord⟩

theorem Bare.fromSidecar (h : Bare card bare) (hpath : path ∈ recordFiles bare) :
    fromSidecar j bare path = none := by
  have hnone := h.sidecars path (Media.mem_recordFiles.mp hpath).2
  unfold FastRecovery.fromSidecar loadSegmentMetadata openFile
  simp only [if_true]
  rw [hnone]
  rfl

theorem Bare.written (h : Bare card bare) (hwritten : Written j card held) : Written j bare held where
  files := fun path hpath content hcontent => hwritten.files path hpath content (by rw [← h.files path hpath, hcontent])
  fits := hwritten.fits
  numbered := hwritten.numbered
  size := hwritten.size
  sidecars := fun path hpath sidecar hsidecar => by
    rw [h.sidecars path hpath] at hsidecar
    cases hsidecar

/-- What is counted without sidecars. -/
theorem Bare.tells (hj : j.Lawful) (h : Bare card bare) (hwritten : Written j card held) :
    Tells (cardTally j bare) (stored card held) (storedSyncable card held) ∧
      (cardTally j bare).localRecordCount = ((recordFiles card).map fun path => (held path).length).sum := by
  obtain ⟨htells, hcount⟩ := (h.written hwritten).tells hj
  have hscan (scanned : Bytes → Set ℕ) : {n | ∃ path ∈ recordFiles bare, n ∈ counted j bare path (scanned path)} =
      {n | ∃ path ∈ recordFiles card, n ∈ scanned path} := by
    ext n
    simp only [Set.mem_ofPred_eq]
    refine exists_congr fun path => ?_
    rw [← h.mem_recordFiles]
    refine and_congr_right fun hpath => ?_
    rw [counted, h.fromSidecar hpath]
  rw [countedSyncable, hscan, hscan] at htells
  refine ⟨htells, hcount.trans (List.Perm.sum_eq (List.Perm.map _ ?_))⟩
  exact (List.perm_ext_iff_of_nodup (nodup_recordFiles bare) (nodup_recordFiles card)).mpr fun path => h.mem_recordFiles

/-! ### When they agree -/

/-- **The bounds of each segment whose sidecar is used lie between records of the card that can be synchronized.** -/
def BoundsSyncable (j : JsonLibrary) (card : Card) (held : Bytes → List IntervalRecord) : Prop :=
  ∀ path ∈ recordFiles card, (fromSidecar j card path).isSome →
    (∃ n ∈ storedSyncable card held, ∀ r ∈ held path, n ≤ r.sequence.toNat) ∧
      ∃ n ∈ storedSyncable card held, ∀ r ∈ held path, r.sequence.toNat ≤ n

theorem sequences_filter_subset (rs : List IntervalRecord) : sequences (rs.filter syncableRecord) ⊆ sequences rs := by
  rintro n ⟨r, hr, hn⟩
  exact ⟨r, (List.mem_filter.mp hr).1, hn⟩

/-- A segment counts by its sidecar between the same bounds. -/
theorem Written.between (hj : j.Lawful) (h : Written j card held) (hpath : path ∈ recordFiles card) {scanned : Set ℕ}
    (hscanned : scanned ⊆ sequences (held path)) {n : ℕ} (hn : n ∈ scanned) :
    (∃ a ∈ counted j card path scanned, a ≤ n) ∧ ∃ a ∈ counted j card path scanned, n ≤ a := by
  unfold counted
  cases hsidecar : fromSidecar j card path with
  | none => exact ⟨⟨n, hn, le_refl n⟩, n, hn, le_refl n⟩
  | some metadata =>
    have hbounds := h.bounds hj (Media.mem_recordFiles.mp hpath).2 hsidecar
    exact ⟨⟨_, Or.inr rfl, hbounds.first.2 (hscanned hn)⟩, _, Or.inl rfl, hbounds.last.2 (hscanned hn)⟩

/-- What is counted of all records is stored. -/
theorem Written.counted_stored (hj : j.Lawful) (h : Written j card held) (hpath : path ∈ recordFiles card) {n : ℕ}
    (hn : n ∈ counted j card path (sequences (held path))) : n ∈ stored card held := by
  refine ⟨path, hpath, ?_⟩
  unfold counted at hn
  cases hsidecar : fromSidecar j card path with
  | none =>
    rw [hsidecar] at hn
    exact hn
  | some metadata =>
    rw [hsidecar] at hn
    have hbounds := h.bounds hj (Media.mem_recordFiles.mp hpath).2 hsidecar
    rcases hn with rfl | rfl
    · exact hbounds.last.1
    · exact hbounds.first.1

theorem Written.boundsSyncable_iff (hj : j.Lawful) (h : Written j card held) :
    BoundsSyncable j card held ↔
      (∀ a ∈ countedSyncable j card held, ∃ b ∈ storedSyncable card held, b ≤ a) ∧
        ∀ a ∈ countedSyncable j card held, ∃ b ∈ storedSyncable card held, a ≤ b := by
  constructor
  · intro hwithin
    have hboth : ∀ a ∈ countedSyncable j card held,
        (∃ b ∈ storedSyncable card held, b ≤ a) ∧ ∃ b ∈ storedSyncable card held, a ≤ b := by
      rintro a ⟨path, hpath, ha⟩
      unfold counted at ha
      cases hsidecar : fromSidecar j card path with
      | none =>
        rw [hsidecar] at ha
        exact ⟨⟨a, ⟨path, hpath, ha⟩, le_refl a⟩, a, ⟨path, hpath, ha⟩, le_refl a⟩
      | some metadata =>
        rw [hsidecar] at ha
        have hbounds := h.bounds hj (Media.mem_recordFiles.mp hpath).2 hsidecar
        obtain ⟨⟨low, hlow, hbelow⟩, high, hhigh, habove⟩ := hwithin path hpath (by rw [hsidecar]; rfl)
        have hstored : a ∈ sequences (held path) := by
          rcases ha with rfl | rfl
          · exact hbounds.last.1
          · exact hbounds.first.1
        obtain ⟨r, hr, rfl⟩ := hstored
        exact ⟨⟨low, hlow, hbelow r hr⟩, high, hhigh, habove r hr⟩
    exact ⟨fun a ha => (hboth a ha).1, fun a ha => (hboth a ha).2⟩
  · rintro ⟨hlow, hhigh⟩ path hpath hused
    obtain ⟨metadata, hsidecar⟩ := Option.isSome_iff_exists.mp hused
    have hbounds := h.bounds hj (Media.mem_recordFiles.mp hpath).2 hsidecar
    have hcounted {n : ℕ} (hn : n = metadata.lastSequence ∨ n = metadata.firstSequence) :
        n ∈ countedSyncable j card held := by
      refine ⟨path, hpath, ?_⟩
      rw [counted, hsidecar]
      exact hn
    obtain ⟨low, hstored, hle⟩ := hlow metadata.firstSequence (hcounted (Or.inr rfl))
    obtain ⟨high, hstored', hle'⟩ := hhigh metadata.lastSequence (hcounted (Or.inl rfl))
    exact ⟨⟨low, hstored, fun r hr => hle.trans (hbounds.first.2 ⟨r, hr, rfl⟩)⟩,
      high, hstored', fun r hr => (hbounds.last.2 ⟨r, hr, rfl⟩).trans hle'⟩

/-- **The count of a card is that of its records, record by record,** just when the bounds of the segments that are
not scanned lie between records that can be synchronized. -/
theorem cardTally_eq_iff (hj : j.Lawful) (h : Written j card held) (hbare : Bare card bare) :
    cardTally j card = cardTally j bare ↔ BoundsSyncable j card held := by
  obtain ⟨hfast, hfastCount⟩ := h.tells hj
  obtain ⟨hslow, hslowCount⟩ := hbare.tells hj h
  have hmaximum : (cardTally j card).maximumSequence = (cardTally j bare).maximumSequence := by
    refine hfast.maximum.eq hslow.maximum ?_ ?_
    · rintro a ⟨path, hpath, ha⟩
      exact ⟨a, h.counted_stored hj hpath ha, le_refl a⟩
    · rintro b ⟨path, hpath, hb⟩
      obtain ⟨-, a, ha, hba⟩ := h.between hj hpath (Set.Subset.refl _) hb
      exact ⟨a, ⟨path, hpath, ha⟩, hba⟩
  have holdest : (cardTally j card).oldestSequence = (cardTally j bare).oldestSequence := by
    refine hfast.oldest.eq hslow.oldest ?_ ?_
    · rintro a ⟨path, hpath, ha⟩
      exact ⟨a, h.counted_stored hj hpath ha, le_refl a⟩
    · rintro b ⟨path, hpath, hb⟩
      obtain ⟨⟨a, ha, hab⟩, -⟩ := h.between hj hpath (Set.Subset.refl _) hb
      exact ⟨a, ⟨path, hpath, ha⟩, hab⟩
  have hsyncable : ∀ b ∈ storedSyncable card held,
      (∃ a ∈ countedSyncable j card held, a ≤ b) ∧ ∃ a ∈ countedSyncable j card held, b ≤ a := by
    rintro b ⟨path, hpath, hb⟩
    obtain ⟨⟨low, hlow, hle⟩, high, hhigh, hle'⟩ := h.between hj hpath (sequences_filter_subset _) hb
    exact ⟨⟨low, ⟨path, hpath, hlow⟩, hle⟩, high, ⟨path, hpath, hhigh⟩, hle'⟩
  have hpositive : ∀ a ∈ countedSyncable j card held, 0 < a := by
    rintro a ⟨path, hpath, ha⟩
    have hpos {n : ℕ} (hn : n ∈ stored card held) : 0 < n := by
      obtain ⟨p, -, r, hr, rfl⟩ := hn
      exact h.numbered p r hr
    refine hpos (h.counted_stored hj hpath ?_)
    unfold counted at ha ⊢
    cases hsidecar : fromSidecar j card path with
    | none =>
      rw [hsidecar] at ha
      exact sequences_filter_subset _ ha
    | some metadata =>
      rw [hsidecar] at ha
      exact ha
  rw [h.boundsSyncable_iff hj, ← hfast.oldestSyncable.eq_iff hslow.oldestSyncable fun b hb => (hsyncable b hb).1,
    ← hfast.newestSyncable.eq_iff hslow.newestSyncable hpositive fun b hb => (hsyncable b hb).2]
  constructor
  · intro heq
    rw [heq]
    exact ⟨rfl, rfl⟩
  · rintro ⟨hold, hnew⟩
    rw [Tally.mk.injEq]
    exact ⟨hmaximum, holdest, hold, hnew, hfastCount.trans hslowCount.symm⟩

/-! ### Recoveries -/

/-- What a recovery computes of the records. -/
def Agree (a b : Health) : Prop :=
  a.newestSequence = b.newestSequence ∧ a.oldestSequence = b.oldestSequence ∧
    a.oldestSyncableSequence = b.oldestSyncableSequence ∧ a.newestSyncableSequence = b.newestSyncableSequence ∧
    a.localRecordCount = b.localRecordCount

/-- What a recovery that succeeds has computed. -/
theorem Written.reports (hj : j.Lawful) (h : Written j card held) {ram ram' : Ram} {es rest : List Event}
    (hcalm : Along device Calm (recover j ram) es card)
    (hrun : (run device (recover j ram) es card).2 = some ((ram', true), rest)) :
    Tally.mk ram'.health.newestSequence ram'.health.oldestSequence ram'.health.oldestSyncableSequence
      ram'.health.newestSyncableSequence ram'.health.localRecordCount = cardTally j card := by
  have hintact : ∀ path ∈ recordFiles card, ∀ content, card.lookup path = some content →
      ∃ es, contentEntries j .readings content = some es := fun path hpath content hcontent =>
    ⟨_, h.entries hj (Media.mem_recordFiles.mp hpath).2 hcontent⟩
  have hspec := @calm_recover j card ram hintact
  obtain ⟨-, ⟨-, hfalse, -⟩ | ⟨-, hresult⟩⟩ := (wp_run hspec hcalm).of_result hrun
  · cases hfalse
  · cases hresult
    rfl

/-- **A recovery with sidecars and one without agree** just when the bounds of each segment whose sidecar is used lie
between records of the card that can be synchronized. -/
theorem recoveries_agree_iff (hj : j.Lawful) (h : Written j card held) (hbare : Bare card bare)
    {ram ram₁ ram₂ : Ram} {es rest : List Event} (hcalm : Along device Calm (recover j ram) es card)
    (hrun : (run device (recover j ram) es card).2 = some ((ram₁, true), rest)) {es' rest' : List Event}
    (hcalm' : Along device Calm (recover j ram) es' bare)
    (hrun' : (run device (recover j ram) es' bare).2 = some ((ram₂, true), rest')) :
    Agree ram₁.health ram₂.health ↔ BoundsSyncable j card held := by
  rw [← cardTally_eq_iff hj h hbare, ← h.reports hj hcalm hrun, ← (hbare.written h).reports hj hcalm' hrun',
    Tally.mk.injEq]
  exact Iff.rfl

/-! ### A clock that is set back -/

/-- The record of an interval with one trusted sample, as the first that is stored. -/
def firstInterval (startUtcMs sampleUtcMs : UInt64) : IntervalRecord :=
  let samples := (Aggregator.reset startUtcMs 0).add
    { utcMs := sampleUtcMs, monotonicMs := 60000, valid := true, timeTrusted := true }
  assigned { nextSequence := 1 } (samples.finish {} [] [] [] [] sampleUtcMs 60000)

/-- A day with one record and its index row. -/
def openDay (r : IntervalRecord) : Card :=
  AList.insert (indexPath r) (rowOf textJson 0 r) (AList.insert (recordPath r) (fileOf textJson [r]) ∅)

/-- The day with its sidecar. -/
def closedDay (r : IntervalRecord) : Card :=
  AList.insert (metadataPath (recordPath r)) (sidecarEnvelope textJson
    (inspectSegment textJson (recordPath r) (some (fileOf textJson [r])) (some (rowOf textJson 0 r)))) (openDay r)

/-- The records of the day, by file. -/
def heldOn (r : IntervalRecord) (path : Bytes) : List IntervalRecord := if path = recordPath r then [r] else []

variable {r : IntervalRecord}

theorem lookup_openDay (hpath : isRecordFile path = true) :
    (openDay r).lookup path = if path = recordPath r then some (fileOf textJson [r]) else none := by
  have hindex : path ≠ indexPath r := by
    rintro rfl
    rw [indexPath_eq, isRecordFile_indexStem] at hpath
    cases hpath
  rw [openDay, AList.lookup_insert_ne hindex]
  split
  · next heq => rw [heq, AList.lookup_insert]
  · next hne => rw [AList.lookup_insert_ne hne, AList.lookup_empty]

theorem sidecar_openDay (path : Bytes) : (openDay r).lookup (metadataPath path) = none := by
  have hindex : metadataPath path ≠ indexPath r := by
    rw [indexPath_eq]
    exact ne_of_suffix (metadata_suffix path) (indexStem_suffix _) (by decide) (by decide) (by decide)
  have hrecord : metadataPath path ≠ recordPath r := by
    rw [recordPath_eq]
    exact (metadata_ne (isRecordFile_recordStem _)).1
  rw [openDay, AList.lookup_insert_ne hindex, AList.lookup_insert_ne hrecord, AList.lookup_empty]

theorem bare_openDay (r : IntervalRecord) : Bare (closedDay r) (openDay r) where
  files := fun path hpath => by
    rw [closedDay, AList.lookup_insert_ne (metadata_ne hpath).1.symm]
  sidecars := fun path _ => sidecar_openDay path

theorem written_closedDay (hfits : (recordEnvelope textJson r).length ≤ maximumLine) (hnumbered : 0 < r.sequence.toNat)
    (hname : 0 ∉ recordPath r) : Written textJson (closedDay r) (heldOn r) where
  files := fun path hpath content hcontent => by
    rw [← (bare_openDay r).files path hpath, lookup_openDay hpath] at hcontent
    unfold heldOn
    split_ifs at hcontent ⊢ with heq
    · cases hcontent
      rfl
  fits := fun path s hs => by
    unfold heldOn at hs
    split_ifs at hs
    · cases List.mem_singleton.mp hs
      exact hfits
    · cases hs
  numbered := fun path s hs => by
    unfold heldOn at hs
    split_ifs at hs
    · cases List.mem_singleton.mp hs
      exact hnumbered
    · cases hs
  size := fun path => by
    unfold heldOn
    split_ifs <;> simp
  sidecars := fun path hpath sidecar hsidecar => by
    by_cases heq : metadataPath path = metadataPath (recordPath r)
    · rw [heq, closedDay, AList.lookup_insert, Option.some.injEq] at hsidecar
      refine ⟨_, hsidecar.symm, ?_⟩
      by_cases hsame : path = recordPath r
      · left
        have hrecord : (closedDay r).lookup (recordPath r) = some (fileOf textJson [r]) := by
          rw [← (bare_openDay r).files _ (hsame ▸ hpath), lookup_openDay (hsame ▸ hpath), if_pos rfl]
        have hindex : (closedDay r).lookup (pairedIndexPath (recordPath r)) = some (rowOf textJson 0 r) := by
          have hne : indexPath r ≠ metadataPath (recordPath r) := by
            rw [indexPath_eq]
            exact ne_of_suffix (indexStem_suffix _) (metadata_suffix _) (by decide) (by decide) (by decide)
          rw [recordPath_eq, pairedIndexPath_recordStem, ← indexPath_eq, closedDay, AList.lookup_insert_ne hne, openDay,
            AList.lookup_insert]
        rw [hsame, hrecord, hindex]
      · right
        rw [recordPath_inspectSegment, cString_of_notMem hname]
        exact Ne.symm hsame
    · rw [closedDay, AList.lookup_insert_ne heq, sidecar_openDay] at hsidecar
      cases hsidecar

/-- The clock is set back by a second in the interval. -/
def setBack : IntervalRecord := firstInterval 1700002800000 1700002799000

theorem setBack_figures : (recordEnvelope textJson setBack).length ≤ maximumLine ∧
    (run device (recover textJson {}) (List.replicate 10 .done) (closedDay setBack)).2.map
      (fun result => (result.1.2, result.1.1.health.oldestSyncableSequence)) = some (true, 1) ∧
    (run device (recover textJson {}) (List.replicate 10 .done) (openDay setBack)).2.map
      (fun result => (result.1.2, result.1.1.health.oldestSyncableSequence)) = some (true, 0) := by decide +kernel

theorem written_setBack : Written textJson (closedDay setBack) (heldOn setBack) :=
  written_closedDay setBack_figures.1 (by decide) (by decide)

theorem setBack_runs : ∃ ram₁ ram₂ rest₁ rest₂,
    (run device (recover textJson {}) (List.replicate 10 .done) (closedDay setBack)).2 = some ((ram₁, true), rest₁) ∧
    (run device (recover textJson {}) (List.replicate 10 .done) (openDay setBack)).2 = some ((ram₂, true), rest₂) ∧
    ¬ Agree ram₁.health ram₂.health := by
  obtain ⟨-, hclosed, hopen⟩ := setBack_figures
  obtain ⟨⟨⟨ram₁, ok₁⟩, rest₁⟩, hrun₁, hfigures₁⟩ := Option.map_eq_some_iff.mp hclosed
  obtain ⟨⟨⟨ram₂, ok₂⟩, rest₂⟩, hrun₂, hfigures₂⟩ := Option.map_eq_some_iff.mp hopen
  rw [Prod.mk.injEq] at hfigures₁ hfigures₂
  obtain ⟨rfl, holdest₁⟩ := hfigures₁
  obtain ⟨rfl, holdest₂⟩ := hfigures₂
  refine ⟨ram₁, ram₂, rest₁, rest₂, hrun₁, hrun₂, ?_⟩
  rintro ⟨-, -, heq, -⟩
  rw [holdest₁, holdest₂] at heq
  cases heq

/-- **A trusted record whose interval ends before it starts**: with its sidecar the recovery counts it as one that can
be synchronized, without it does not. -/
theorem setBack_differs : Written textJson (closedDay setBack) (heldOn setBack) ∧
    Bare (closedDay setBack) (openDay setBack) ∧ setBack.timeTrusted = true ∧
    ∃ ram₁ ram₂ rest₁ rest₂,
      (run device (recover textJson {}) (List.replicate 10 .done) (closedDay setBack)).2 = some ((ram₁, true), rest₁) ∧
      (run device (recover textJson {}) (List.replicate 10 .done) (openDay setBack)).2 = some ((ram₂, true), rest₂) ∧
      ¬ Agree ram₁.health ram₂.health :=
  ⟨written_setBack, bare_openDay setBack, by decide, setBack_runs⟩

theorem setBack_unbounded : ¬ BoundsSyncable textJson (closedDay setBack) (heldOn setBack) := by
  obtain ⟨ram₁, ram₂, rest₁, rest₂, hrun₁, hrun₂, hdiffer⟩ := setBack_runs
  have hdone (card : Card) : Along device Calm (recover textJson {}) (List.replicate 10 .done) card :=
    along_of_forall _ card fun e he _ _ => Or.inl (List.eq_of_mem_replicate he)
  exact fun hbounds => hdiffer ((recoveries_agree_iff textJson_lawful written_setBack (bare_openDay setBack) (hdone _)
    hrun₁ (hdone _) hrun₂).mpr hbounds)

end PowerMonitor.Storage.FastRecovery
