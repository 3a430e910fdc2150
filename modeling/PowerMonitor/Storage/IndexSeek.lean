import Mathlib.Data.UInt
import PowerMonitor.Storage.Unavailable
import PowerMonitor.Storage.Layout

/-! # The index as an accelerator

A reader asks the index rows of a file where to start, or whether to read the file at all. It gets the pages of a
reader without an index if and only if every answer of the rows is right (`index_accelerates`): a start is where a
record starts and no wanted record is before it, and a file that is left out holds no wanted record. The rows of all
records give right answers (`right_of_rows`). A row that is missing does not (`missing_row_differs`). -/

namespace PowerMonitor.Storage.IndexSeek

open PowerMonitor.Lib.Binary PowerMonitor.Lib.Lines PowerMonitor.Lib.Scan PowerMonitor.Lib.Json PowerMonitor.Lib.Walk
open PowerMonitor.Storage.RecordFormat PowerMonitor.Storage.Reading PowerMonitor.Storage.Media
open PowerMonitor.Storage.Segment PowerMonitor.Storage.SyncCoverage PowerMonitor.Storage.ReadPage
open PowerMonitor.Storage.PageSpec PowerMonitor.Storage.Intact PowerMonitor.Storage.Layout
open PowerMonitor.Storage.Unavailable

variable {j : JsonLibrary} {card bare : Card} {held : Bytes → List IntervalRecord} {health : Health}
  {q : HistoryQuery} {path content : Bytes} {es : List Entry}

/-! ### The answer of a walk -/

/-- The same records, unavailable ranges, success and next cursor. -/
structure SameAnswer (a b : HistoryPage) : Prop where
  ok : a.ok = b.ok
  records : a.records = b.records
  unavailable : a.unavailableSequenceRanges = b.unavailableSequenceRanges
  nextAfterSequence : a.nextAfterSequence = b.nextAfterSequence

/-- The page of the wanted entries of a walk. -/
def answer (health : Health) (q : HistoryQuery) (wanted : List Entry) : HistoryPage :=
  if ∀ e ∈ wanted, e.payload.length ≤ q.maximumPayloadBytes.toNat then
    finishPage health q (wanted.foldl (observe q) {})
  else {}

theorem readEnvelopeFiles_ok (paths : List Bytes) (scan : Scan) :
    paths.foldlM (scanSegment j card {} .readings q) {} = .ok scan ↔
      ∃ es, gather (segmentEntries j card {} .readings q) paths = some es ∧
        (∀ e ∈ es.filter q.wants, e.payload.length ≤ q.maximumPayloadBytes.toNat) ∧
        scan = (es.filter q.wants).foldl (observe q) {} := by
  simp only [foldlM_eq_ok_iff (@scanSegment_eq_ok j card {} .readings q), processEntries_eq_ok]

/-- **A walk answers with the wanted entries** of the files it can read. -/
theorem sameAnswer_of_gather {paths : List Bytes}
    (h : gather (segmentEntries j card {} .readings q) paths = some es) :
    SameAnswer (readEnvelopeFiles j card {} health paths q .readings) (answer health q (es.filter q.wants)) := by
  unfold readEnvelopeFiles answer
  cases hwalk : paths.foldlM (scanSegment j card {} .readings q) {} with
  | error e =>
    rw [if_neg]
    · exact ⟨rfl, rfl, rfl, rfl⟩
    · intro hfits
      rw [(readEnvelopeFiles_ok paths _).mpr ⟨es, h, hfits, rfl⟩] at hwalk
      cases hwalk
  | ok scan =>
    obtain ⟨es', hes', hfits, rfl⟩ := (readEnvelopeFiles_ok paths scan).mp hwalk
    rw [h, Option.some.injEq] at hes'
    subst hes'
    rw [if_pos hfits]
    exact ⟨rfl, rfl, rfl, rfl⟩

theorem not_ok_of_gather {paths : List Bytes} (h : gather (segmentEntries j card {} .readings q) paths = none) :
    (readEnvelopeFiles j card {} health paths q .readings).ok = false := by
  unfold readEnvelopeFiles
  cases hwalk : paths.foldlM (scanSegment j card {} .readings q) {} with
  | error e => rfl
  | ok scan =>
    obtain ⟨es, hes, -⟩ := (readEnvelopeFiles_ok paths scan).mp hwalk
    rw [h] at hes
    cases hes

/-! ### Cards -/

/-- **The card**: each file of records is a sequence of complete envelopes in the order of their sequences, and a
sidecar that counts states bounds that hold. -/
structure Stored (j : JsonLibrary) (card : Card) (held : Bytes → List IntervalRecord) : Prop where
  files : ∀ path ∈ recordFiles card, card.lookup path = some (fileOf j (held path))
  fits : ∀ path, ∀ r ∈ held path, (recordEnvelope j r).length ≤ maximumLine
  increasing : ∀ path, Increasing ((held path).map (entryOf j))
  sidecars : ∀ path ∈ recordFiles card, TruthfulSidecar j card path ((held path).map (entryOf j))

/-- The same files of records, and no index. -/
structure Unindexed (card bare : Card) : Prop where
  files : ∀ path, isRecordFile path = true → bare.lookup path = card.lookup path
  indexes : ∀ path, isRecordFile path = true → bare.lookup (pairedIndexPath path) = none

/-- A query asks the index of the file: its sidecar does not leave it out. -/
def Consults (j : JsonLibrary) (card : Card) (q : HistoryQuery) (path : Bytes) : Prop :=
  (loadSegmentMetadata j card {} .readings path).any (outsideBounds q) = false

/-- **The answer of the index rows is right**: if it is that the file holds no wanted sequence, no record of the file is
wanted; if it is a start, there starts the `k`-th record, or the file ends, and no record before it is wanted. -/
def Right (content : Bytes) (es : List Entry) (q : HistoryQuery) : IndexAnswer → Prop
  | .unusable => True
  | .outside => ∀ e ∈ es, q.wants e = false
  | .start offset => ∃ k, content.drop (offset % 2 ^ 32) = ((lines content).drop k).flatten ∧
      ∀ e ∈ es.take k, q.wants e = false

/-- **Every answer of every index is right**, for every query that asks for it. -/
def IndexRight (j : JsonLibrary) (card : Card) (held : Bytes → List IntervalRecord) : Prop :=
  ∀ path ∈ recordFiles card, ∀ q, Consults j card q path → ∀ index, card.lookup (pairedIndexPath path) = some index →
    Right (fileOf j (held path)) ((held path).map (entryOf j)) q
      (searchIndex q.afterSequence.toNat q.scanCeiling (some index))

/-- **Every walk answers as it does without an index.** -/
def SamePages (j : JsonLibrary) (card bare : Card) : Prop :=
  ∀ (health : Health) (q : HistoryQuery) (paths : List Bytes), (∀ path ∈ paths, path ∈ recordFiles card) →
    SameAnswer (readEnvelopeFiles j card {} health paths q .readings)
      (readEnvelopeFiles j bare {} health paths q .readings)

theorem Stored.entries (hj : j.Lawful) (h : Stored j card held) (path : Bytes) :
    contentEntries j .readings (fileOf j (held path)) = some ((held path).map (entryOf j)) :=
  contentEntries_fileOf hj (h.fits path)

theorem pairedIndexPath_ne_nil (hpath : isRecordFile path = true) : pairedIndexPath path ≠ [] := by
  obtain ⟨x, rfl⟩ := exists_recordStem hpath
  rw [pairedIndexPath_recordStem]
  exact List.append_ne_nil_of_left_ne_nil (by decide) _

theorem segmentIndex_eq (hpath : isRecordFile path = true) : segmentIndex card {} .readings q path =
    searchIndex q.afterSequence.toNat q.scanCeiling (card.lookup (pairedIndexPath path)) := by
  unfold segmentIndex
  simp only [openFile, if_true, if_neg (pairedIndexPath_ne_nil hpath)]

/-- No sidecar counts without an index. -/
theorem acceptMetadata_no_index (path : Bytes) (sidecar : Option Bytes) (size : Option ℕ) :
    acceptMetadata j .readings path sidecar size none = none := by
  have hdocument (document : Bytes → View) : acceptDocument .readings path document size none = none := by
    unfold acceptDocument
    simp
  unfold acceptMetadata
  split
  · rfl
  · split
    · rfl
    · exact hdocument _

/-- What a reader sees of a file that its sidecar does not leave out. -/
theorem Stored.segmentEntries (h : Stored j card held) (hpath : path ∈ recordFiles card) (hconsults : Consults j card q path) :
    PageSpec.segmentEntries j card {} .readings q path =
      match searchIndex q.afterSequence.toNat q.scanCeiling (card.lookup (pairedIndexPath path)) with
      | .outside => some []
      | .unusable => contentEntries j .readings (fileOf j (held path))
      | .start offset => contentEntries j .readings ((fileOf j (held path)).drop (offset % 2 ^ 32)) := by
  have hopen : openFile card {} .scan path = some (fileOf j (held path)) := by
    simp only [openFile, if_true, h.files path hpath]
  unfold PageSpec.segmentEntries visitSegment
  rw [hconsults, if_neg (by simp), hopen, segmentIndex_eq (mem_recordFiles.mp hpath).2]
  cases searchIndex q.afterSequence.toNat q.scanCeiling (card.lookup (pairedIndexPath path)) with
  | outside => rfl
  | unusable => rfl
  | start offset => rfl

/-- Without an index a file is read as a whole. -/
theorem Unindexed.segmentEntries (hj : j.Lawful) (h : Unindexed card bare) (hstored : Stored j card held)
    (hpath : path ∈ recordFiles card) :
    PageSpec.segmentEntries j bare {} .readings q path = some ((held path).map (entryOf j)) := by
  have hrecord := (mem_recordFiles.mp hpath).2
  have hsidecar : loadSegmentMetadata j bare {} .readings path = none := by
    unfold loadSegmentMetadata openFile
    simp only [if_true]
    rw [h.indexes path hrecord]
    exact acceptMetadata_no_index path _ _
  have hopen : openFile bare {} .scan path = some (fileOf j (held path)) := by
    simp only [openFile, if_true, h.files path hrecord, hstored.files path hpath]
  unfold PageSpec.segmentEntries visitSegment
  rw [hsidecar, hopen, segmentIndex_eq hrecord, h.indexes path hrecord]
  exact hstored.entries hj path

theorem lines_fileOf_drop (hj : j.Lawful) (rs : List IntervalRecord) (k : ℕ) :
    (fileOf j rs).drop ((lines (fileOf j rs)).take k).flatten.length = ((lines (fileOf j rs)).drop k).flatten := by
  obtain ⟨hlines, hrest⟩ := lines_fileOf hj rs
  have hsplit : fileOf j rs = ((lines (fileOf j rs)).take k).flatten ++ ((lines (fileOf j rs)).drop k).flatten := by
    have hwhole := flatten_lines (fileOf j rs)
    rw [hrest, List.append_nil] at hwhole
    rw [← List.flatten_append, List.take_append_drop, hwhole]
  conv_lhs => arg 2; rw [hsplit]
  exact List.drop_left

/-- From the `k`-th record on, a reader sees the records from the `k`-th on. -/
theorem Stored.entries_drop (hj : j.Lawful) (h : Stored j card held) (path : Bytes) (k : ℕ) :
    contentEntries j .readings ((lines (fileOf j (held path))).drop k).flatten =
      some (((held path).map (entryOf j)).drop k) := by
  rw [← lines_fileOf_drop hj]
  exact contentEntries_drop (h.entries hj path) k

/-! ### Right answers -/

/-- With a right index a reader sees all that is wanted. -/
theorem Stored.seen_of_right (hj : j.Lawful) (h : Stored j card held) (hright : IndexRight j card held)
    (hpath : path ∈ recordFiles card) : ∃ seen, PageSpec.segmentEntries j card {} .readings q path = some seen ∧
      seen.filter q.wants = ((held path).map (entryOf j)).filter q.wants := by
  cases hskip : (loadSegmentMetadata j card {} .readings path).any (outsideBounds q) with
  | true =>
    rw [filter_wants_of_skipped (h.sidecars path hpath) hskip]
    exact ⟨[], by simp [PageSpec.segmentEntries, visitSegment, hskip], rfl⟩
  | false =>
    rw [h.segmentEntries hpath hskip]
    cases hindex : card.lookup (pairedIndexPath path) with
    | none => exact ⟨_, h.entries hj path, rfl⟩
    | some index =>
      have hanswer := hright path hpath q hskip index hindex
      generalize searchIndex q.afterSequence.toNat q.scanCeiling (some index) = found at hanswer
      cases found with
      | unusable => exact ⟨_, h.entries hj path, rfl⟩
      | outside =>
        refine ⟨[], rfl, (List.filter_eq_nil_iff.mpr fun e he => ?_).symm⟩
        rw [hanswer e he]
        exact Bool.false_ne_true
      | start offset =>
        obtain ⟨k, hstart, hbefore⟩ := hanswer
        refine ⟨((held path).map (entryOf j)).drop k, ?_, ?_⟩
        · show contentEntries j .readings ((fileOf j (held path)).drop (offset % 2 ^ 32)) = _
          rw [hstart]
          exact h.entries_drop hj path k
        have htake : (((held path).map (entryOf j)).take k).filter q.wants = [] := by
          refine List.filter_eq_nil_iff.mpr fun e he => ?_
          rw [hbefore e he]
          exact Bool.false_ne_true
        conv_rhs => rw [← List.take_append_drop k ((held path).map (entryOf j)), List.filter_append, htake]
        rfl

theorem samePages_of_right (hj : j.Lawful) (h : Stored j card held) (hbare : Unindexed card bare)
    (hright : IndexRight j card held) : SamePages j card bare := by
  intro health q paths hpaths
  have hfiles : ∀ path ∈ paths, ∃ seen all, segmentEntries j card {} .readings q path = some seen ∧
      segmentEntries j bare {} .readings q path = some all ∧ seen.filter q.wants = all.filter q.wants := by
    intro path hpath
    obtain ⟨seen, hseen, hfilter⟩ := h.seen_of_right (q := q) hj hright (hpaths path hpath)
    exact ⟨seen, _, hseen, hbare.segmentEntries hj h (hpaths path hpath), hfilter⟩
  obtain ⟨es, es', hes, hes', heq⟩ := gather_filter hfiles
  have hleft : SameAnswer (readEnvelopeFiles j card {} health paths q .readings)
      (answer health q (es.filter q.wants)) := sameAnswer_of_gather hes
  have hright : SameAnswer (readEnvelopeFiles j bare {} health paths q .readings)
      (answer health q (es'.filter q.wants)) := sameAnswer_of_gather hes'
  rw [heq] at hleft
  exact ⟨hleft.ok.trans hright.ok.symm, hleft.records.trans hright.records.symm,
    hleft.unavailable.trans hright.unavailable.symm, hleft.nextAfterSequence.trans hright.nextAfterSequence.symm⟩

/-! ### What a page tells -/

/-- The query with as much room on its page as there can be. -/
def ample (q : HistoryQuery) : HistoryQuery := { q with limit := 500, maximumPayloadBytes := 2 ^ 32 - 1 }

/-- The health of a card with all sequences. -/
def endless : Health := { newestSequence := 2 ^ 64 - 1 }

theorem candidates_foldl (q : HistoryQuery) (es : List Entry) :
    (es.foldl (observe q) {}).candidates = candidatesOf q.pageLimit q.maximumPayloadBytes.toNat es := by
  induction es using List.reverseRecOn with
  | nil => rfl
  | append_singleton es e ih =>
    rw [List.foldl_append, candidatesOf, List.foldl_append, ← candidatesOf, ← ih]
    rfl

/-- The wanted records of a file fit on the page. -/
theorem fits_ample (hfits : ∀ r ∈ held path, (recordEnvelope j r).length ≤ maximumLine) {e : Entry}
    (he : e ∈ (held path).map (entryOf j)) : e.payload.length ≤ (ample q).maximumPayloadBytes.toNat := by
  obtain ⟨r, hr, rfl⟩ := List.mem_map.mp he
  have hline := hfits r hr
  rw [recordEnvelope, length_encodeEnvelope] at hline
  have hmaximum : (ample q).maximumPayloadBytes.toNat = 2 ^ 32 - 1 := rfl
  rw [hmaximum]
  simp only [maximumLine] at hline
  show (serializeRecord j r).length ≤ _
  omega

/-- A record is known by its payload. -/
theorem sequence_of_payload (hj : j.Lawful) {r r' : IntervalRecord} (h : (entryOf j r).payload = (entryOf j r').payload) :
    (entryOf j r).sequence = (entryOf j r').sequence := by
  obtain ⟨document, hd, hsequence, -⟩ := deserialize_serializeRecord hj r
  obtain ⟨document', hd', hsequence', -⟩ := deserialize_serializeRecord hj r'
  have hsame : serializeRecord j r = serializeRecord j r' := h
  rw [hsame, hd', Option.some.injEq] at hd
  subst hd
  show r.sequence.toNat = r'.sequence.toNat
  rw [← hsequence, hsequence']

/-- **A page tells of the first wanted record**: without it the page is another one. -/
theorem page_tells (hj : j.Lawful) {wanted rest : List Entry} {first : Entry}
    (hrecords : ∀ e ∈ wanted, ∃ r, e = entryOf j r) (hfirst : first ∈ wanted)
    (hleast : ∀ e ∈ wanted, first.sequence ≤ e.sequence) (hrest : ∀ e ∈ rest, e ∈ wanted ∧ first.sequence < e.sequence)
    (hfits : ∀ e ∈ wanted, e.payload.length ≤ (ample q).maximumPayloadBytes.toNat)
    (hwants : ∀ e ∈ wanted, q.wants e = true) :
    ¬ SameAnswer (answer endless (ample q) rest) (answer endless (ample q) wanted) := by
  intro hsame
  have hlimit : 0 < (ample q).pageLimit := by
    show 0 < min (500 : UInt16).toNat maxHistoryPage
    decide
  have hanswer : answer endless (ample q) wanted = finishPage endless (ample q) (wanted.foldl (observe (ample q)) {}) :=
    if_pos hfits
  have hanswer' : answer endless (ample q) rest = finishPage endless (ample q) (rest.foldl (observe (ample q)) {}) :=
    if_pos fun e he => hfits e (hrest e he).1
  obtain ⟨c, hc, hmin⟩ := candidatesOf_min hlimit (List.ne_nil_of_mem hfirst) hfits
  have hcfirst : c.sequence = first.sequence :=
    Nat.le_antisymm (hmin first hfirst) (hleast c (mem_candidatesOf hc))
  cases hsync : q.requireSyncable with
  | false =>
    -- the first record is on the page, and nothing else on the card has its payload
    have hpage (es : List Entry) : (finishPage endless (ample q) (es.foldl (observe (ample q)) {})).records =
        (candidatesOf (ample q).pageLimit (ample q).maximumPayloadBytes.toNat es).map Entry.payload := by
      have hnot : (ample q).requireSyncable = false := hsync
      simp only [finishPage, coverage, hnot, Bool.false_eq_true, if_false, candidates_foldl]
    have hrecord : c.payload ∈ (answer endless (ample q) rest).records := by
      rw [hsame.records, hanswer, hpage]
      exact List.mem_map_of_mem hc
    rw [hanswer', hpage] at hrecord
    obtain ⟨d, hd, hpayload⟩ := List.mem_map.mp hrecord
    obtain ⟨hdwanted, hlater⟩ := hrest d (mem_candidatesOf hd)
    obtain ⟨r, rfl⟩ := hrecords d hdwanted
    obtain ⟨r', rfl⟩ := hrecords c (mem_candidatesOf hc)
    have hsequence := sequence_of_payload hj hpayload
    omega
  | true =>
    -- the first sequence is declared unavailable on one page and not on the other
    have hbounds : ∀ e ∈ wanted, (ample q).afterSequence.toNat < e.sequence ∧ e.sequence ≤ (ample q).scanCeiling :=
      fun e he => wants_bounds (hwants e he)
    have hceiling := scanCeiling_eq (q := ample q) hsync
    obtain ⟨covered, hall⟩ := accounts_pageOf endless (q := ample q) hsync fun e he => (hbounds e he).1
    obtain ⟨covered', hsome⟩ := accounts_pageOf endless (q := ample q) hsync fun e he => (hbounds e (hrest e he).1).1
    have hunavailable : (pageOf endless (ample q) rest).unavailableSequenceRanges =
        (pageOf endless (ample q) wanted).unavailableSequenceRanges := by
      have hranges := hsame.unavailable
      rw [hanswer, hanswer', observe_foldl (q := ample q) hsync, observe_foldl (q := ample q) hsync] at hranges
      exact hranges
    have hafter := hbounds first hfirst
    have hmissing : first.sequence ∉ chosen (ample q) rest := by
      intro hmem
      obtain ⟨e, he, heq⟩ := mem_chosen hmem
      have hlater := (hrest e he).2
      omega
    have hchosen : first.sequence ∈ chosen (ample q) wanted := by
      rw [← hcfirst]
      exact List.mem_map_of_mem hc
    have hscanned : maximumScanned endless (ample q) = (ample q).scanCeiling := by
      have hnewest : endless.newestSequence = 2 ^ 64 - 1 := rfl
      simp only [maximumScanned, hnewest]
      omega
    have hcovered : first.sequence ≤ covered' := by
      rcases hsome.stop (by omega) with hstop | ⟨hstop, -⟩ | ⟨-, hstop⟩
      · rw [hstop, desiredEnd]
        cases hmax : (chosen (ample q) rest).max? with
        | none =>
          simp only
          omega
        | some m =>
          obtain ⟨e, he, heq⟩ := mem_chosen (List.max?_mem hmax)
          have hlater := (hrest e he).2
          simp only
          omega
      · obtain ⟨e, he, heq⟩ := List.mem_map.mp hstop
        have hlater := (hrest e he).2
        omega
      · omega
    obtain ⟨r, hr, hcontains⟩ := (hsome.unavailable_iff first.sequence).mpr ⟨hafter.1, hcovered, hmissing⟩
    rw [hunavailable] at hr
    exact ((hall.unavailable_iff first.sequence).mp ⟨r, hr, hcontains⟩).2.2 hchosen

/-- A page on which nothing is missing was read from before the first wanted record. -/
theorem Stored.unwanted_of_same (hj : j.Lawful) (h : Stored j card held) {k : ℕ}
    (hsame : SameAnswer (answer endless (ample q) ((((held path).map (entryOf j)).drop k).filter q.wants))
      (answer endless (ample q) (((held path).map (entryOf j)).filter q.wants))) :
    ∀ e ∈ ((held path).map (entryOf j)).take k, q.wants e = false := by
  have hincreasing := h.increasing path
  have hmem : ∀ e ∈ (held path).map (entryOf j), ∃ r, e = entryOf j r := by
    intro e he
    obtain ⟨r, -, rfl⟩ := List.mem_map.mp he
    exact ⟨r, rfl⟩
  have hroom : ∀ e ∈ (held path).map (entryOf j), e.payload.length ≤ (ample q).maximumPayloadBytes.toNat :=
    fun e he => fits_ample (h.fits path) he
  generalize (held path).map (entryOf j) = es at *
  have hsplit : es.filter q.wants = (es.take k).filter q.wants ++ (es.drop k).filter q.wants := by
    rw [← List.filter_append, List.take_append_drop]
  have hordered : Increasing (es.filter q.wants) := hincreasing.filter _
  cases htake : (es.take k).filter q.wants with
  | nil =>
    intro e he
    simpa using List.filter_eq_nil_iff.mp htake e he
  | cons first skipped =>
    rw [htake] at hsplit
    rw [hsplit, Increasing, List.cons_append, List.pairwise_cons] at hordered
    have hwanted : ∀ e ∈ es.filter q.wants, e ∈ es ∧ q.wants e = true := fun e he => List.mem_filter.mp he
    have hfirst : first ∈ es.filter q.wants := by
      rw [hsplit]
      exact List.mem_cons_self
    refine absurd hsame (page_tells hj (fun e he => hmem e (hwanted e he).1) hfirst ?_ ?_
      (fun e he => hroom e (hwanted e he).1) fun e he => (hwanted e he).2)
    · rw [hsplit]
      intro e he
      rcases List.mem_cons.mp he with rfl | he
      · exact Nat.le_refl _
      · exact Nat.le_of_lt (hordered.1 e he)
    · intro e he
      refine ⟨?_, hordered.1 e (List.mem_append_right _ he)⟩
      rw [hsplit]
      exact List.mem_append_right _ he

/-- The tab of a prefix is not one of the tabs of a text that ends with a brace. -/
theorem nil_of_tabs {before rest init tail : Bytes}
    (h : before ++ (ascii "PMR1" ++ 9 :: rest) = ascii "PMR1" ++ 9 :: (init ++ 125 :: 9 :: tail))
    (hinit : (9 : UInt8) ∉ init) (htail : (9 : UInt8) ∉ tail) : before = [] := by
  by_contra hne
  obtain ⟨n, hn⟩ : ∃ n, before.length = n + 1 := ⟨before.length - 1, by
    have hpositive := List.length_pos_iff.mpr hne
    omega⟩
  have hat (i : ℕ) : (init ++ 125 :: 9 :: tail)[i]? = (before ++ (ascii "PMR1" ++ 9 :: rest))[i + 5]? := by
    rw [h]
    rfl
  have htab : (init ++ 125 :: 9 :: tail)[n]? = some 9 := by
    rw [hat n, List.getElem?_append_right (by omega), hn, show n + 5 - (n + 1) = 4 by omega]
    rfl
  rcases Nat.lt_trichotomy n init.length with hlt | rfl | hgt
  · rw [List.getElem?_append_left hlt] at htab
    exact hinit (List.mem_of_getElem? htab)
  · rw [List.getElem?_append_right (Nat.le_refl _), Nat.sub_self] at htab
    cases htab
  · obtain ⟨m, hm⟩ : ∃ m, n - init.length = m + 1 := ⟨n - init.length - 1, by omega⟩
    rw [List.getElem?_append_right (by omega), hm, List.getElem?_cons_succ] at htab
    cases m with
    | succ m =>
      rw [List.getElem?_cons_succ] at htab
      exact htail (List.mem_of_getElem? htab)
    | zero =>
      -- the tab after the brace has a digit before it in the prefix
      have hbefore : (init ++ 125 :: 9 :: tail)[n - 1]? = some 49 := by
        rw [hat (n - 1), List.getElem?_append_right (by omega), hn, show n - 1 + 5 - (n + 1) = 3 by omega]
        rfl
      rw [List.getElem?_append_right (by omega), show n - 1 - init.length = 0 by omega] at hbefore
      cases hbefore

/-- No end of an envelope is an envelope: the text of a record has no tab, and does not end with a digit. -/
theorem suffix_of_envelope (hplain : j.Plain) {r : IntervalRecord} {t : Bytes} (hsuffix : t <:+ recordEnvelope j r)
    (h : (decodeEnvelope t).isSome) : t = recordEnvelope j r := by
  obtain ⟨before, hline⟩ := hsuffix
  have hinitial : recordPrefix.isPrefixOf t = true := by
    unfold decodeEnvelope at h
    by_contra hnot
    rw [Bool.not_eq_true] at hnot
    rw [hnot, if_pos (by simp)] at h
    cases h
  obtain ⟨rest, rfl⟩ := List.isPrefixOf_iff_prefix.mp hinitial
  obtain ⟨init, hinit⟩ := hplain.ends (recordDocument r)
  have htab : (9 : UInt8) ∉ init ++ [125] := by
    rw [← hinit]
    exact hplain.tab _
  have henvelope : recordEnvelope j r = ascii "PMR1" ++ 9 :: (init ++ 125 :: 9 ::
      (hexText 8 (crc32 (serializeRecord j r)).toNat ++ [10])) := by
    unfold recordEnvelope encodeEnvelope serializeRecord
    rw [hinit]
    simp [recordPrefix, ascii]
  have hhex : (9 : UInt8) ∉ hexText 8 (crc32 (serializeRecord j r)).toNat ++ [10] := by
    rw [List.mem_append, not_or]
    exact ⟨notMem_hexText (by decide), by decide⟩
  have hnil : before = [] := by
    rw [henvelope] at hline
    exact nil_of_tabs hline (fun hmem => htab (List.mem_append_left _ hmem)) hhex
  rw [hnil, List.nil_append] at hline
  exact hline

/-- **What a reader can read from an offset starts with a record**, or is nothing. -/
theorem boundary_of_entries (hj : j.Lawful) (hplain : j.Plain) {rs : List IntervalRecord} {offset : ℕ}
    (h : contentEntries j .readings ((fileOf j rs).drop offset) = some es) :
    ∃ k, (fileOf j rs).drop offset = ((lines (fileOf j rs)).drop k).flatten := by
  obtain ⟨hlines, -⟩ := lines_fileOf hj rs
  rw [hlines]
  rcases drop_flatten (rs.map (recordEnvelope j)) offset with hk | ⟨k, line, t, hline, hsuffix, hne, hnil, hdrop⟩
  · exact hk
  · obtain ⟨r, -, rfl⟩ := List.mem_map.mp (List.mem_of_getElem? hline)
    refine absurd (suffix_of_envelope hplain hsuffix ?_) hne
    -- the end of the line is read as a line
    obtain ⟨init, hinit, hnewline⟩ := recordEnvelope_line hj r
    obtain ⟨tail, rfl⟩ : ∃ tail, t = tail ++ [10] := by
      obtain ⟨before, hbefore⟩ := hsuffix
      rw [hinit] at hbefore
      obtain ⟨tail, last, rfl⟩ : ∃ tail last, t = tail ++ [last] :=
        ⟨t.dropLast, t.getLast hnil, (List.dropLast_append_getLast hnil).symm⟩
      rw [← List.append_assoc] at hbefore
      rw [(List.append_inj' hbefore rfl).2]
      exact ⟨tail, rfl⟩
    have htail : (10 : UInt8) ∉ tail := by
      obtain ⟨before, hbefore⟩ := hsuffix
      rw [hinit, ← List.append_assoc] at hbefore
      rw [← (List.append_inj' hbefore rfl).1, List.mem_append, not_or] at hnewline
      exact hnewline.2
    have hfirst := (lines_line htail ((rs.map (recordEnvelope j)).drop (k + 1)).flatten).1
    unfold contentEntries at h
    split_ifs at h
    have hread : (fileOf j rs).drop offset = tail ++ 10 :: ((rs.map (recordEnvelope j)).drop (k + 1)).flatten := by
      rw [show fileOf j rs = (rs.map (recordEnvelope j)).flatten from rfl, hdrop, List.append_assoc]
      rfl
    rw [hread, hfirst] at h
    obtain ⟨e, -, -, -, hdecode, -⟩ := gather_lines_cons h
    unfold decodeLine at hdecode
    cases hd : decodeEnvelope (tail ++ [10]) with
    | none =>
      rw [hd] at hdecode
      cases hdecode
    | some decoded => rfl

theorem right_of_samePages (hj : j.Lawful) (hplain : j.Plain) (h : Stored j card held) (hbare : Unindexed card bare)
    (hsame : SamePages j card bare) : IndexRight j card held := by
  intro path hpath q hconsults index hindex
  have hone {card : Card} {seen : List Entry} (hseen : segmentEntries j card {} .readings (ample q) path = some seen) :
      gather (segmentEntries j card {} .readings (ample q)) [path] = some seen :=
    gather_cons_eq_some.mpr ⟨seen, [], hseen, rfl, (List.append_nil seen).symm⟩
  have hall : SameAnswer (readEnvelopeFiles j bare {} endless [path] (ample q) .readings)
      (answer endless (ample q) (((held path).map (entryOf j)).filter (ample q).wants)) :=
    sameAnswer_of_gather (hone (hbare.segmentEntries hj h hpath))
  have hpages := hsame endless (ample q) [path] fun p hp => by
    rw [List.mem_singleton.mp hp]
    exact hpath
  have hanswer {k : ℕ} (hseen : segmentEntries j card {} .readings (ample q) path =
      some (((held path).map (entryOf j)).drop k)) : ∀ e ∈ ((held path).map (entryOf j)).take k, q.wants e = false := by
    have hsome : SameAnswer (readEnvelopeFiles j card {} endless [path] (ample q) .readings)
        (answer endless (ample q) ((((held path).map (entryOf j)).drop k).filter (ample q).wants)) :=
      sameAnswer_of_gather (hone hseen)
    refine h.unwanted_of_same hj ⟨?_, ?_, ?_, ?_⟩
    · exact hsome.ok.symm.trans (hpages.ok.trans hall.ok)
    · exact hsome.records.symm.trans (hpages.records.trans hall.records)
    · exact hsome.unavailable.symm.trans (hpages.unavailable.trans hall.unavailable)
    · exact hsome.nextAfterSequence.symm.trans (hpages.nextAfterSequence.trans hall.nextAfterSequence)
  have hentries := h.segmentEntries (q := ample q) hpath hconsults
  rw [hindex] at hentries
  have hsearch : searchIndex (ample q).afterSequence.toNat (ample q).scanCeiling (some index) =
      searchIndex q.afterSequence.toNat q.scanCeiling (some index) := rfl
  rw [hsearch] at hentries
  generalize searchIndex q.afterSequence.toNat q.scanCeiling (some index) = found at hentries
  cases found with
  | unusable => trivial
  | outside =>
    have hnone := hanswer (k := ((held path).map (entryOf j)).length) (by rw [List.drop_length]; exact hentries)
    rw [List.take_length] at hnone
    exact hnone
  | start offset =>
    cases hread : contentEntries j .readings ((fileOf j (held path)).drop (offset % 2 ^ 32)) with
    | none =>
      -- a file that cannot be read from the start fails the page
      have hunread : gather (segmentEntries j card {} .readings (ample q)) [path] = none := by
        rw [gather, show segmentEntries j card {} .readings (ample q) path = none from hentries.trans hread]
      have hfailed : (readEnvelopeFiles j card {} endless [path] (ample q) .readings).ok = false :=
        not_ok_of_gather hunread
      have hok : (answer endless (ample q) (((held path).map (entryOf j)).filter (ample q).wants)).ok = true := by
        rw [answer, if_pos fun e he => fits_ample (h.fits path) (List.mem_filter.mp he).1]
        rfl
      rw [hpages.ok, hall.ok, hok] at hfailed
      cases hfailed
    | some es =>
      obtain ⟨k, hk⟩ := boundary_of_entries hj hplain hread
      exact ⟨k, hk, hanswer (hentries.trans (by rw [← h.entries_drop hj path k, ← hk]))⟩

/-- **An index only accelerates**, if and only if each of its answers is right. -/
theorem index_accelerates (hj : j.Lawful) (hplain : j.Plain) (h : Stored j card held) (hbare : Unindexed card bare) :
    SamePages j card bare ↔ IndexRight j card held :=
  ⟨right_of_samePages hj hplain h hbare, samePages_of_right hj h hbare⟩

/-! ### Rows of all records -/

/-- **The rows of all records give right answers.** -/
theorem right_of_rows (hj : j.Lawful) {rs : List IntervalRecord}
    (hsize : (fileOf j rs).length < 2 ^ 32) (hincreasing : Increasing (rs.map (entryOf j))) (q : HistoryQuery) :
    Right (fileOf j rs) (rs.map (entryOf j)) q
      (searchIndex q.afterSequence.toNat q.scanCeiling (some (rowsOf j 0 rs))) := by
  have hmatch : RowsMatch 0 (rs.map (recordEnvelope j)) (rs.map (entryOf j)) (indexRows (rowsOf j 0 rs)) :=
    rowsMatch_rowsOf (by omega)
  obtain ⟨-, houtside, hstart⟩ := @searchRows_of_match q.afterSequence.toNat q.scanCeiling _ _ _ _ 0 hmatch hincreasing
  have hunwanted {e : Entry} (h : ¬ (q.afterSequence.toNat < e.sequence ∧ e.sequence ≤ q.scanCeiling)) :
      q.wants e = false := by
    cases hw : q.wants e with
    | false => rfl
    | true => exact absurd (wants_bounds hw) h
  rw [show searchIndex q.afterSequence.toNat q.scanCeiling (some (rowsOf j 0 rs)) =
    searchRows q.afterSequence.toNat q.scanCeiling 0 (indexRows (rowsOf j 0 rs)) from rfl]
  cases hfound : searchRows q.afterSequence.toNat q.scanCeiling 0 (indexRows (rowsOf j 0 rs)) with
  | unusable => trivial
  | outside => exact fun e he => hunwanted (houtside hfound e he)
  | start offset =>
    obtain ⟨k, rfl, hbefore⟩ := hstart offset hfound
    refine ⟨k, ?_, fun e he => hunwanted (hbefore e he)⟩
    rw [← (lines_fileOf hj rs).1, Nat.zero_add, Nat.mod_eq_of_lt, lines_fileOf_drop hj]
    have hle : ((lines (fileOf j rs)).take k).flatten.length ≤ (fileOf j rs).length := by
      have hwhole := congrArg List.length (lines_fileOf_drop hj rs k)
      have hsplit := congrArg (fun l => l.flatten.length) (List.take_append_drop k (lines (fileOf j rs)))
      have hlines := congrArg List.length (flatten_lines (fileOf j rs))
      simp only [List.flatten_append, List.length_append] at hsplit hlines
      omega
    omega

theorem indexRight_of_rows (hj : j.Lawful) (h : Stored j card held)
    (hsize : ∀ path, (fileOf j (held path)).length < 2 ^ 32)
    (hrows : ∀ path ∈ recordFiles card, ∀ index, card.lookup (pairedIndexPath path) = some index →
      index = rowsOf j 0 (held path)) : IndexRight j card held := by
  intro path hpath q _ index hindex
  rw [hrows path hpath index hindex]
  exact right_of_rows hj (hsize path) (h.increasing path) q

theorem IndexRight.outside (hright : IndexRight j card held) (hpath : path ∈ recordFiles card)
    (hconsults : Consults j card q path) {index : Bytes} (hindex : card.lookup (pairedIndexPath path) = some index)
    (hsearch : searchIndex q.afterSequence.toNat q.scanCeiling (some index) = .outside) :
    ∀ r ∈ held path, q.wants (entryOf j r) = false := by
  have hanswer := hright path hpath q hconsults index hindex
  rw [hsearch] at hanswer
  exact fun r hr => hanswer _ (List.mem_map_of_mem hr)

/-! ### A day -/

/-- The first two readings of a day. -/
def firstTwo : List IntervalRecord := [minuteReading 1 1700002800000, minuteReading 2 1700002860000]

/-- The file of the day. -/
def dayFile : Bytes := recordPath (minuteReading 1 1700002800000)

/-- The day without an index. -/
def bareDay : Card := AList.insert dayFile (fileOf textJson firstTwo) ∅

/-- The day with some rows. -/
def dayWith (rows : Bytes) : Card := AList.insert (pairedIndexPath dayFile) rows bareDay

def heldOnDay (path : Bytes) : List IntervalRecord := if path = dayFile then firstTwo else []

theorem dayFile_record : isRecordFile dayFile = true := by
  unfold dayFile
  rw [recordPath_eq]
  exact isRecordFile_recordStem _

theorem lookup_dayWith (rows : Bytes) (hpath : isRecordFile path = true) :
    (dayWith rows).lookup path = bareDay.lookup path :=
  AList.lookup_insert_ne (Frames.index_ne hpath).1.symm

theorem lookup_bareDay_ne (hpath : path ≠ dayFile) : bareDay.lookup path = none := by
  rw [bareDay, AList.lookup_insert_ne hpath, AList.lookup_empty]

theorem unindexed_day (rows : Bytes) : Unindexed (dayWith rows) bareDay where
  files := fun _ hpath => (lookup_dayWith rows hpath).symm
  indexes := fun _ _ => lookup_bareDay_ne (Frames.index_ne dayFile_record).1

theorem fits_firstTwo : ∀ r ∈ firstTwo, (recordEnvelope textJson r).length ≤ maximumLine := by
  simp only [recordEnvelope, length_encodeEnvelope]
  decide +kernel

/-- No sidecar is on the card. -/
theorem no_sidecar (rows : Bytes) : loadSegmentMetadata textJson (dayWith rows) {} .readings path = none := by
  have hnone : (dayWith rows).lookup (metadataPath path) = none := by
    have hindex : metadataPath path ≠ pairedIndexPath dayFile := by
      rcases Frames.index_suffix dayFile with hnil | hsuffix
      · exact absurd hnil (pairedIndexPath_ne_nil dayFile_record)
      · exact Frames.ne_of_suffix (Frames.metadata_suffix path) hsuffix (by decide) (by decide) (by decide)
    rw [dayWith, AList.lookup_insert_ne hindex]
    exact lookup_bareDay_ne (Frames.metadata_ne dayFile_record).1
  unfold loadSegmentMetadata openFile
  simp only [if_true]
  rw [hnone]
  rfl

theorem stored_day (rows : Bytes) : Stored textJson (dayWith rows) heldOnDay where
  files := fun path hpath => by
    obtain ⟨⟨content, hcontent⟩, hrecord⟩ := mem_recordFiles.mp hpath
    rw [lookup_dayWith rows hrecord] at hcontent ⊢
    by_cases heq : path = dayFile
    · rw [heq, bareDay, AList.lookup_insert, heldOnDay, if_pos rfl]
    · rw [lookup_bareDay_ne heq] at hcontent
      cases hcontent
  fits := fun path r hr => by
    unfold heldOnDay at hr
    split_ifs at hr
    · exact fits_firstTwo r hr
    · cases hr
  increasing := fun path => by
    unfold heldOnDay
    split_ifs
    · show List.Pairwise _ [entryOf textJson (minuteReading 1 1700002800000), entryOf textJson (minuteReading 2 1700002860000)]
      rw [List.pairwise_pair]
      show (1 : UInt64).toNat < (2 : UInt64).toNat
      decide
    · exact List.Pairwise.nil
  sidecars := fun path hpath metadata hmetadata => by
    rw [no_sidecar rows] at hmetadata
    cases hmetadata

/-- The row of the second reading is missing. -/
def firstRow : Bytes := rowOf textJson 0 (minuteReading 1 1700002800000)

theorem mem_dayFile (rows : Bytes) : dayFile ∈ recordFiles (dayWith rows) := by
  refine mem_recordFiles.mpr ⟨⟨fileOf textJson firstTwo, ?_⟩, dayFile_record⟩
  rw [lookup_dayWith rows dayFile_record, bareDay, AList.lookup_insert]

theorem size_heldOnDay (path : Bytes) : (fileOf textJson (heldOnDay path)).length < 2 ^ 32 := by
  have hmaximum : maximumLine ≤ 2 ^ 30 := by decide
  unfold heldOnDay
  split_ifs
  · have h1 := fits_firstTwo (minuteReading 1 1700002800000) (by simp [firstTwo])
    have h2 := fits_firstTwo (minuteReading 2 1700002860000) (by simp [firstTwo])
    have hlength : (fileOf textJson firstTwo).length = (recordEnvelope textJson (minuteReading 1 1700002800000)).length +
        (recordEnvelope textJson (minuteReading 2 1700002860000)).length := by
      simp [fileOf, firstTwo]
    omega
  · exact (by decide : 0 < 2 ^ 32)

/-- With all rows the pages are those without an index. -/
theorem allRows_same : SamePages textJson (dayWith (rowsOf textJson 0 firstTwo)) bareDay := by
  refine (index_accelerates textJson_lawful textJson_plain (stored_day _) (unindexed_day _)).mpr
    (indexRight_of_rows textJson_lawful (stored_day _) size_heldOnDay ?_)
  intro path hpath index hindex
  obtain ⟨⟨content, hcontent⟩, hrecord⟩ := mem_recordFiles.mp hpath
  have hday : path = dayFile := by
    by_contra hne
    rw [lookup_dayWith _ hrecord, lookup_bareDay_ne hne] at hcontent
    cases hcontent
  subst hday
  rw [dayWith, AList.lookup_insert, Option.some.injEq] at hindex
  rw [← hindex, heldOnDay, if_pos rfl]

/-- **A row that is missing hides its record** after the records before it. -/
theorem missing_row_differs : Stored textJson (dayWith firstRow) heldOnDay ∧ Unindexed (dayWith firstRow) bareDay ∧
    ¬ SamePages textJson (dayWith firstRow) bareDay := by
  refine ⟨stored_day _, unindexed_day _, fun hsame => ?_⟩
  have hright := right_of_samePages textJson_lawful textJson_plain (stored_day firstRow) (unindexed_day firstRow) hsame
  have hconsults : Consults textJson (dayWith firstRow) { afterSequence := 1 } dayFile := by
    unfold Consults
    rw [no_sidecar]
    rfl
  have hrow : (dayWith firstRow).lookup (pairedIndexPath dayFile) = some firstRow := by
    rw [dayWith, AList.lookup_insert]
  have hsearch : searchIndex 1 (2 ^ 64 - 1) (some firstRow) = .outside := by
    have hrows : indexRows firstRow = [rowText textJson 0 (minuteReading 1 1700002800000)] := by
      have happend := indexRows_rowOf (j := textJson) 0 (minuteReading 1 1700002800000) []
      rw [List.append_nil] at happend
      exact happend
    have hsequence : (minuteReading 1 1700002800000).sequence.toNat = 1 := rfl
    rw [searchIndex, hrows, searchRows, parseIndexRow_rowText (by omega), hsequence]
    simp [searchRows]
  have hceiling : ({ afterSequence := 1 } : HistoryQuery).scanCeiling = 2 ^ 64 - 1 := by decide
  have hunwanted := hright.outside (mem_dayFile firstRow) hconsults hrow (by rw [hceiling]; exact hsearch)
    (minuteReading 2 1700002860000) (by rw [heldOnDay, if_pos rfl]; simp [firstTwo])
  have hwanted : ({ afterSequence := 1 } : HistoryQuery).wants (entryOf textJson (minuteReading 2 1700002860000)) = true := by
    decide
  rw [hwanted] at hunwanted
  cases hunwanted

end PowerMonitor.Storage.IndexSeek
