import PowerMonitor.Storage.Runs
import PowerMonitor.Storage.Unavailable

/-! # Acknowledgements of what was sent

A server acknowledges the last sequence of a page, and the storage accepts an acknowledgement up to the
newest sequence that can be synchronised. In a run without sidecars that sequence is the greatest of a
stored record that can be synchronised (`Synced`), and no page that is not empty ends after it
(`full_acknowledgement_accepted`), although a page may declare sequences unavailable up to the newest
one. -/

namespace PowerMonitor.Storage.Acknowledgement

open PowerMonitor.Lib.Binary PowerMonitor.Lib.Json PowerMonitor.Lib.Program PowerMonitor.Lib.Walk
open PowerMonitor.Storage.RecordFormat PowerMonitor.Storage.Reading PowerMonitor.Storage.Media
open PowerMonitor.Storage.Segment PowerMonitor.Storage.SyncCoverage PowerMonitor.Storage.ReadPage
open PowerMonitor.Storage.PageSpec PowerMonitor.Storage.SdStorage PowerMonitor.Storage.Frames
open PowerMonitor.Storage.Intact PowerMonitor.Storage.Layout PowerMonitor.Storage.CalmOperations
open PowerMonitor.Storage.Counting PowerMonitor.Storage.Runs PowerMonitor.Storage.Unavailable

variable {j : JsonLibrary} {fingerprint : Bytes} {s s' : State} {held : Bytes → List IntervalRecord}

/-! ### The newest sequence that can be synchronised -/

/-- There are no sidecars, and the newest sequence that can be synchronised is the greatest stored one. -/
structure Synced (s : State) (held : Bytes → List IntervalRecord) : Prop where
  unclosed : ∀ x, s.card.lookup (metadataPath (recordStem x)) = none
  greatest : s.ram.health.newestSyncableSequence ≠ 0 →
    IsGreatest (storedSyncable held) s.ram.health.newestSyncableSequence

theorem loadSegmentMetadata_of_unclosed (hk : Kept j s held) (hs : Synced s held) :
    ∀ path ∈ recordFiles s.card, loadSegmentMetadata j s.card {} .readings path = none := by
  intro path hpath
  obtain ⟨⟨content, hfile⟩, hrecord⟩ := mem_recordFiles.mp hpath
  obtain ⟨x, rfl⟩ := hk.laidOut.stems path hrecord (by rw [hfile]; rfl)
  have hmissing : openFile s.card {} .metadata (metadataPath (recordStem x)) = none := by
    simp [openFile, hs.unclosed x]
  unfold loadSegmentMetadata
  rw [hmissing]
  rfl

theorem Synced.journaled (hs : Synced s held) (hjournals : Journaled s.card s'.card)
    (hgreatest : s'.ram.health.newestSyncableSequence ≠ 0 →
      IsGreatest (storedSyncable held) s'.ram.health.newestSyncableSequence) : Synced s' held where
  unclosed x := by
    rw [hjournals.same _ (metadata_notMem_journalPaths _)]
    exact hs.unclosed x
  greatest := hgreatest

theorem Synced.change (hj : j.Lawful) (hk : Kept j s held) (hs : Synced s held) (hchange : Change j s s') :
    Synced s' held := by
  have htally : ∀ n, n = (cardTally j s.card).newestSyncableSequence → n ≠ 0 →
      IsGreatest (storedSyncable held) n := by
    intro n hn hne
    have hgreatest := greatest_syncable hj hk.laidOut (loadSegmentMetadata_of_unclosed hk hs)
    rw [← hn] at hgreatest
    exact ⟨hgreatest.1.resolve_left hne, fun m hm => hgreatest.2 (Or.inr hm)⟩
  cases hchange with
  | flags hjournals hflags =>
    refine hs.journaled hjournals ?_
    rw [hflags.newestSyncable]
    exact hs.greatest
  | restarted => exact hs.journaled (Journaled.refl _) fun h => absurd rfl h
  | reserved hjournals hroom => exact hs.journaled hjournals hs.greatest
  | advanced hjournals hnext hnewest hlast => exact hs.journaled hjournals hs.greatest
  | recovered hjournals hcommitted hnext hnewest hsyncable => exact hs.journaled hjournals (htally _ hsyncable)
  | exhausted hjournals hcommitted hnext hwritable hsyncable =>
    exact hs.journaled hjournals (htally _ hsyncable)

theorem mem_storedSyncable_heldWith {r : IntervalRecord} {n : ℕ} :
    n ∈ storedSyncable (heldWith held r) ↔
      n ∈ storedSyncable held ∨ (syncableRecord r = true ∧ n = r.sequence.toNat) := by
  constructor
  · rintro ⟨x, t, ht, hsync, rfl⟩
    rcases mem_heldWith.mp ht with ht | ⟨-, rfl⟩
    · exact Or.inl ⟨x, t, ht, hsync, rfl⟩
    · exact Or.inr ⟨hsync, rfl⟩
  · rintro (⟨x, t, ht, hsync, rfl⟩ | ⟨hsync, rfl⟩)
    · exact ⟨x, t, mem_heldWith.mpr (Or.inl ht), hsync, rfl⟩
    · exact ⟨stem r, r, mem_heldWith.mpr (Or.inr ⟨rfl, rfl⟩), hsync, rfl⟩

theorem Synced.append (hk : Kept j s held) (hs : Synced s held) {r : IntervalRecord} {card' : Card}
    (haccepts : Accepts s.ram) (hext : Extends j s.card card' (assigned s.ram r)) :
    Synced ⟨card', Ram.appended s.ram r⟩ (heldWith held (assigned s.ram r)) := by
  have hsequence := assigned_sequence hk.next r
  have hfresh : ∀ n ∈ storedSyncable held, n < s.ram.nextSequence := by
    rintro n ⟨x, t, ht, -, rfl⟩
    exact hk.fresh haccepts.2.1 _ ⟨x, t, ht, rfl⟩
  have hle : s.ram.health.newestSyncableSequence < s.ram.nextSequence :=
    Nat.lt_of_le_of_lt hk.syncable hk.newest
  constructor
  · intro x
    have hother := hext.others (metadataPath (recordStem x)) (by
      simp only [List.mem_cons, not_or]
      refine ⟨?_, ?_, metadata_notMem_journalPaths _⟩
      · rw [recordPath_eq]
        exact (metadata_ne (isRecordFile_recordStem _)).1
      · rw [indexPath_eq]
        exact ne_of_suffix (metadata_suffix _) (indexStem_suffix _) (by decide)
          (by decide) (by decide))
    rw [hother]
    exact hs.unclosed x
  · rw [(appended_sequences s.ram r).2.2]
    by_cases hsync : syncableRecord r = true
    · -- the record is the newest
      have hsync' : syncableRecord (assigned s.ram r) = true := hsync
      rw [if_pos hsync, Nat.max_eq_right hle.le]
      refine fun _ => ⟨mem_storedSyncable_heldWith.mpr (Or.inr ⟨hsync', hsequence.symm⟩), ?_⟩
      intro n hn
      rcases mem_storedSyncable_heldWith.mp hn with hn | ⟨-, rfl⟩
      · exact (hfresh n hn).le
      · exact hsequence.le
    · have hsync' : ¬ syncableRecord (assigned s.ram r) = true := hsync
      have hset : storedSyncable (heldWith held (assigned s.ram r)) = storedSyncable held := by
        ext n
        rw [mem_storedSyncable_heldWith]
        simp [hsync']
      rw [if_neg hsync, hset]
      exact hs.greatest

/-- **In every state a run reaches**, the newest sequence that can be synchronised is the greatest stored
one. -/
theorem reachable_synced (hj : j.Lawful) (h : Reachable j fingerprint s) :
    ∃ held, Kept j s held ∧ Synced s held :=
  h.induct hj (fun _ hcard => ⟨fun _ => hcard.sidecar _, fun hne => absurd rfl hne⟩)
    (fun _ _ _ hk hs hchange => hs.change hj hk hchange)
    fun _ _ _ _ hk hs haccepts hext => hs.append hk haccepts hext

/-! ### Pages -/

/-- A reader sees the wanted records. -/
theorem mem_visible_iff (hj : j.Lawful) (hk : Kept j s held) (hs : Synced s held) {q : HistoryQuery}
    {es : List Entry} (hvisible : visibleEntries j s.card {} q = some es) (e : Entry) :
    e ∈ es ↔ q.wants e = true ∧ ∃ x, ∃ r ∈ held x, entryOf j r = e := by
  obtain ⟨all, hall, rfl⟩ := Option.map_eq_some_iff.mp hvisible
  have hseen : ∀ path ∈ recordFiles s.card, ∃ seen, segmentEntries j s.card {} .readings q path = some seen ∧
      seen.filter q.wants = (entriesAt j s.card path).filter q.wants := by
    intro path hpath
    obtain ⟨⟨content, hfile⟩, hrecord⟩ := mem_recordFiles.mp hpath
    obtain ⟨x, rfl⟩ := hk.laidOut.stems path hrecord (by rw [hfile]; rfl)
    rw [entriesAt_recordStem hj hk.laidOut]
    refine segmentEntries_of_intact (hk.laidOut.intact hj (by rw [hfile]; rfl)) fun metadata hmeta => ?_
    rw [loadSegmentMetadata_of_unclosed hk hs _ hpath] at hmeta
    cases hmeta
  rw [List.mem_filter, mem_of_gather hall, ← mem_entriesAt_iff hj hk.laidOut e]
  constructor
  · rintro ⟨⟨path, hpath, first, hfirst, he⟩, hwants⟩
    obtain ⟨seen, hseen, hfilter⟩ := hseen path hpath
    rw [hfirst] at hseen
    cases hseen
    have hmem := List.mem_filter.mpr ⟨he, hwants⟩
    rw [hfilter] at hmem
    exact ⟨hwants, path, hpath, (List.mem_filter.mp hmem).1⟩
  · rintro ⟨hwants, path, hpath, he⟩
    obtain ⟨seen, hseen, hfilter⟩ := hseen path hpath
    have hmem := List.mem_filter.mpr ⟨he, hwants⟩
    rw [← hfilter] at hmem
    exact ⟨⟨path, hpath, seen, hseen, (List.mem_filter.mp hmem).1⟩, hwants⟩

/-- The check of an acknowledgement, against the cursor and the newest sequence that can be
synchronised. -/
def acknowledgementValid (acknowledgement currentAck newestSequence : ℕ) : Bool :=
  currentAck ≤ acknowledgement && acknowledgement ≤ newestSequence

/-- **The acknowledgement of a whole page is accepted**: in every state a run reaches, and for every
cursor below the newest sequence that can be synchronised, a page that is delivered and not empty ends
after the cursor and not after that sequence. -/
theorem full_acknowledgement_accepted (hj : j.Lawful) (hreachable : Reachable j fingerprint s)
    {after : UInt64} (hafter : after.toNat < s.ram.health.newestSyncableSequence) (limit : UInt16)
    (maximumPayloadBytes : UInt32) {page : HistoryPage}
    (hpage : page = readPage j s.card {} s.ram.health (syncPage after 0 0 limit maximumPayloadBytes))
    (hok : page.ok = true) (hne : page.records ≠ [] ∨ page.unavailableSequenceRanges ≠ []) :
    after.toNat < page.lastSequence ∧ page.lastSequence ≤ s.ram.health.newestSyncableSequence ∧
      acknowledgementValid page.lastSequence after.toNat s.ram.health.newestSyncableSequence = true := by
  obtain ⟨held, hk, hs⟩ := reachable_synced hj hreachable
  generalize hq : syncPage after 0 0 limit maximumPayloadBytes = q at hpage
  have hsync : q.requireSyncable = true := by rw [← hq]; rfl
  have hcursor : q.afterSequence = after := by rw [← hq]; rfl
  have hwants : ∀ e : Entry, q.wants e = true ↔
      after.toNat < e.sequence ∧ e.sequence ≤ q.scanCeiling ∧ e.syncable = true := by
    intro e
    rw [wants_iff hsync, hcursor, ← hq]
    simp [syncPage]
  obtain ⟨-, es, hvisible, -, hpageOf⟩ := (readPage_ok_iff hsync page).mp ⟨hpage.symm, hok⟩
  have hmem := mem_visible_iff hj hk hs hvisible
  have hgreatest := hs.greatest (by omega)
  have hbelow : ∀ e ∈ es, e.sequence ≤ s.ram.health.newestSyncableSequence := by
    intro e he
    obtain ⟨hwanted, x, r, hr, rfl⟩ := (hmem e).mp he
    exact hgreatest.2 ⟨x, r, hr, ((hwants _).mp hwanted).2.2, rfl⟩
  obtain ⟨covered, hacc⟩ := accounts_pageOf s.ram.health hsync fun e he => (visible_after hvisible e he).1
  rw [← hpageOf] at hacc
  have hcovered := hacc.nonempty_iff.mp hne
  obtain ⟨hlast1, hlast2⟩ := hacc.last hcovered
  rw [hcursor] at hlast1
  have hend : covered ≤ s.ram.health.newestSyncableSequence := by
    have hbound := hacc.bound hcovered
    unfold desiredEnd at hbound
    cases hmax : (chosen q es).max? with
    | some m =>
      -- the page ends with a record
      rw [hmax] at hbound
      obtain ⟨e, he, rfl⟩ := mem_chosen (List.max?_mem hmax)
      exact (Nat.le_trans hbound (Nat.min_le_right ..)).trans (hbelow e he)
    | none =>
      rw [hmax] at hbound
      have hnone : chosen q es = [] := by simpa using hmax
      cases hes : es with
      | cons e rest =>
        -- the page ends before a record that does not fit
        have he : e ∈ es := by rw [hes]; simp
        have hsent := hacc.sent e he
        rw [hnone] at hsent
        have := hbelow e he
        by_contra hgreater
        exact absurd (hsent (by omega)) List.not_mem_nil
      | nil =>
        -- the newest record is beyond the window
        obtain ⟨x, r, hr, hsyncable, hseq⟩ := hgreatest.1
        have hnot : ¬ q.wants (entryOf j r) = true := fun hwanted => by
          have := (hmem _).mpr ⟨hwanted, x, r, hr, rfl⟩
          rw [hes] at this
          cases this
        rw [hwants] at hnot
        have hbeyond : q.scanCeiling < s.ram.health.newestSyncableSequence := by
          by_contra hle
          exact hnot ⟨by simp only [entryOf]; omega, by simp only [entryOf]; omega, hsyncable⟩
        simp only [maximumScanned] at hbound
        omega
  refine ⟨hlast1, hlast2.trans hend, ?_⟩
  simp only [acknowledgementValid, Bool.and_eq_true, decide_eq_true_eq]
  omega

/-- A blank card, mounted. -/
def mountedBlank : State := State.after textJson [] {} (.remountPreferred 0)

/-- A reading is stored on it. -/
def oneReading : State := mountedBlank.after textJson [] (.append (minuteReading 0 1700002800000) {})

theorem oneReading_state : (Fits textJson mountedBlank (minuteReading 0 1700002800000) ∧
      (run device (SdStorage.append textJson [] (minuteReading 0 1700002800000) {} mountedBlank.ram)
        (List.replicate 100 .done) mountedBlank.card).2.isSome = true) ∧
    (0 : UInt64).toNat < oneReading.ram.health.newestSyncableSequence ∧
      (readPage textJson oneReading.card {} oneReading.ram.health (syncPage 0 0 0 8 8192)).ok = true ∧
        (readPage textJson oneReading.card {} oneReading.ram.health (syncPage 0 0 0 8 8192)).records ≠ [] := by
  rw [Fits]
  decide +kernel

theorem step_mountedBlank : Step textJson [] {} mountedBlank := step_after trivial (by decide)

theorem step_oneReading : Step textJson [] mountedBlank oneReading :=
  step_after oneReading_state.1.1 oneReading_state.1.2

/-- The acknowledgement of the reading is accepted. -/
theorem oneReading_acknowledged :
    (readPage textJson oneReading.card {} oneReading.ram.health (syncPage 0 0 0 8 8192)).records ≠ [] ∧
      0 < (readPage textJson oneReading.card {} oneReading.ram.health (syncPage 0 0 0 8 8192)).lastSequence ∧
      (readPage textJson oneReading.card {} oneReading.ram.health (syncPage 0 0 0 8 8192)).lastSequence ≤
        oneReading.ram.health.newestSyncableSequence := by
  obtain ⟨-, hafter, hok, hrecords⟩ := oneReading_state
  obtain ⟨h1, h2, -⟩ := full_acknowledgement_accepted textJson_lawful
    ⟨∅, fun _ _ => AList.lookup_empty _, (Relation.ReflTransGen.single step_mountedBlank).tail step_oneReading⟩
    hafter 8 8192 rfl hok (Or.inl hrecords)
  exact ⟨hrecords, h1, h2⟩

end PowerMonitor.Storage.Acknowledgement
