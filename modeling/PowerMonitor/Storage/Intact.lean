import PowerMonitor.Storage.PageSpec

/-! # Intact segments

A segment is intact when all its lines decode, in increasing order of their sequences, and its index
rows, if it has any, point to the lines (`IntactSegment`). Then a reader sees every wanted entry of the
segment (`segmentEntries_of_intact`), unless a sidecar misstates its bounds. -/

namespace PowerMonitor.Storage.Intact

open PowerMonitor.Lib.Binary PowerMonitor.Lib.Lines PowerMonitor.Lib.Json PowerMonitor.Lib.Walk
open PowerMonitor.Storage.RecordFormat PowerMonitor.Storage.Reading PowerMonitor.Storage.Media
open PowerMonitor.Storage.Segment PowerMonitor.Storage.ReadPage PowerMonitor.Storage.PageSpec

/-! ### Rows that point to lines -/

/-- The rows point to the lines of the entries, from `offset` on. -/
def RowsMatch : ℕ → List Bytes → List Entry → List Bytes → Prop
  | _, [], [], [] => True
  | offset, line :: ls, e :: es, row :: rows =>
    parseIndexRow row = some (e.sequence, offset) ∧ RowsMatch (offset + line.length) ls es rows
  | _, _, _, _ => False

/-- The entries are in strictly increasing order of their sequences. -/
def Increasing (es : List Entry) : Prop := es.Pairwise fun a b => a.sequence < b.sequence

/-- What a search finds, on rows that point to lines: nothing to rely on if there is no row; no wanted
sequence; or the offset of the first line with a wanted sequence. -/
theorem searchRows_of_match {after ceiling : ℕ} : ∀ {ls : List Bytes} {es : List Entry}
    {rows : List Bytes} {offset : ℕ} (read : ℕ), RowsMatch offset ls es rows → Increasing es →
    (searchRows after ceiling read rows = .unusable → rows = [] ∧ es = []) ∧
    (searchRows after ceiling read rows = .outside →
      ∀ e ∈ es, ¬ (after < e.sequence ∧ e.sequence ≤ ceiling)) ∧
    (∀ start, searchRows after ceiling read rows = .start start →
      ∃ k, start = offset + (ls.take k).flatten.length ∧
        ∀ e ∈ es.take k, ¬ (after < e.sequence ∧ e.sequence ≤ ceiling)) := by
  intro ls
  induction ls with
  | nil =>
    intro es rows offset read h _
    match es, rows, h with
    | [], [], _ =>
      refine ⟨fun _ => ⟨rfl, rfl⟩, fun _ e he => absurd he (List.not_mem_nil), fun start h => ?_⟩
      simp only [searchRows] at h
      split at h <;> cases h
  | cons line ls ih =>
    intro es rows offset read h hinc
    match es, rows, h with
    | e :: es, row :: rows, ⟨hrow, hrest⟩ =>
      rw [Increasing, List.pairwise_cons] at hinc
      simp only [searchRows, hrow]
      by_cases h1 : after < e.sequence ∧ e.sequence ≤ ceiling
      · -- the first wanted line
        rw [if_pos h1]
        refine ⟨(by cases ·), (by cases ·), fun start h => ⟨0, ?_, by simp⟩⟩
        cases h
        simp
      rw [if_neg h1]
      by_cases h2 : ceiling < e.sequence
      · -- the sequences only grow
        rw [if_pos h2]
        refine ⟨(by cases ·), fun _ x hx => ?_, fun start h => by cases h⟩
        rcases List.mem_cons.mp hx with rfl | hx
        · omega
        · have := hinc.1 x hx
          omega
      · rw [if_neg h2]
        obtain ⟨h3, h4, h5⟩ := ih (read + 1) hrest hinc.2
        refine ⟨fun h => ?_, fun h x hx => ?_, fun start h => ?_⟩
        · obtain ⟨rfl, -⟩ := h3 h
          simp [searchRows] at h
        · rcases List.mem_cons.mp hx with rfl | hx
          · exact h1
          · exact h4 h x hx
        · obtain ⟨k, rfl, hk⟩ := h5 start h
          refine ⟨k + 1, by simp; omega, fun x hx => ?_⟩
          rw [List.take_succ_cons] at hx
          rcases List.mem_cons.mp hx with rfl | hx
          · exact h1
          · exact hk x hx

/-! ### Lines that decode -/

variable {j : JsonLibrary} {kind : SegmentKind}

theorem decodeLine_sequence_lt {line : Bytes} {e : Entry} (h : decodeLine j kind line = .ok e) :
    e.sequence < 2 ^ 64 := by
  unfold decodeLine at h
  split at h
  · cases h
  · split at h
    · cases h
    · cases h
      exact UInt64.toNat_lt _

theorem lineEntries_eq_some {line : Bytes} {es : List Entry} :
    lineEntries j kind line = some es ↔
      line.length ≤ maximumLine ∧ ∃ e, decodeLine j kind line = .ok e ∧ es = [e] := by
  unfold lineEntries
  split_ifs with h
  · simp; omega
  · cases decodeLine j kind line with
    | error e => simp [Except.toOption]
    | ok e => simp [Except.toOption]; constructor
              · rintro rfl; exact ⟨by omega, rfl⟩
              · rintro ⟨-, rfl⟩; rfl

/-- One entry a line. -/
theorem gather_lines_cons {line : Bytes} {ls : List Bytes} {es : List Entry}
    (h : gather (lineEntries j kind) (line :: ls) = some es) :
    ∃ e rest, es = e :: rest ∧ line.length ≤ maximumLine ∧ decodeLine j kind line = .ok e ∧
      gather (lineEntries j kind) ls = some rest := by
  obtain ⟨first, rest, h1, h2, rfl⟩ := gather_cons_eq_some.mp h
  obtain ⟨hlen, e, he, rfl⟩ := lineEntries_eq_some.mp h1
  exact ⟨e, rest, rfl, hlen, he, h2⟩

theorem gather_lines_drop {ls : List Bytes} {es : List Entry}
    (h : gather (lineEntries j kind) ls = some es) (k : ℕ) :
    gather (lineEntries j kind) (ls.drop k) = some (es.drop k) := by
  induction k generalizing ls es with
  | zero => simpa using h
  | succ k ih =>
    cases ls with
    | nil => cases h; simp [gather]
    | cons line ls =>
      obtain ⟨e, rest, rfl, -, -, hrest⟩ := gather_lines_cons h
      simpa using ih hrest

/-- From the start of a line, the entries are the later ones. -/
theorem contentEntries_drop {content : Bytes} {es : List Entry}
    (h : contentEntries j kind content = some es) (k : ℕ) :
    contentEntries j kind (content.drop ((lines content).take k).flatten.length) = some (es.drop k) := by
  unfold contentEntries at h ⊢
  split_ifs at h with hrest
  obtain ⟨h1, h2⟩ := lines_drop content k
  rw [h1, h2, if_pos hrest]
  exact gather_lines_drop h k

/-- What a reader sees of a stored record. -/
def entryOf (j : JsonLibrary) (r : IntervalRecord) : Entry where
  sequence := r.sequence.toNat
  start := r.startUtcMs
  syncable := syncableRecord r
  payload := serializeRecord j r

/-- **A stored record decodes.** -/
theorem decodeLine_recordEnvelope (hj : j.Lawful) (r : IntervalRecord) :
    decodeLine j .readings (recordEnvelope j r) = .ok (entryOf j r) := by
  obtain ⟨document, hd, hsequence, -, hstart, hunsigned, hsync⟩ := deserialize_serializeRecord hj r
  unfold decodeLine recordEnvelope
  rw [decodeEnvelope_encodeEnvelope]
  simp only [hd, SegmentKind.sequenceField, hsequence, hstart, hunsigned, hsync, if_true]
  rfl

theorem recordEnvelope_line (hj : j.Lawful) (r : IntervalRecord) :
    ∃ init, recordEnvelope j r = init ++ [10] ∧ (10 : UInt8) ∉ init :=
  encodeEnvelope_line (hj.newline _)

/-! ### Intact segments -/

/-- **All lines of the file decode, in order, and its index rows point to them.** A file system keeps
files below 4 GiB. -/
structure IntactSegment (j : JsonLibrary) (card : Card) (path content : Bytes) (es : List Entry) :
    Prop where
  file : card.lookup path = some content
  size : content.length < 2 ^ 32
  decodes : contentEntries j .readings content = some es
  increasing : Increasing es
  index : ∀ index, card.lookup (pairedIndexPath path) = some index →
    RowsMatch 0 (lines content) es (indexRows index)

/-- The sidecar, if it counts, states bounds that hold. -/
def TruthfulSidecar (j : JsonLibrary) (card : Card) (path : Bytes) (es : List Entry) : Prop :=
  ∀ metadata, loadSegmentMetadata j card {} .readings path = some metadata →
    ∀ e ∈ es, metadata.firstSequence ≤ e.sequence ∧ e.sequence ≤ metadata.lastSequence

variable {card : Card} {path content : Bytes} {es : List Entry} {q : HistoryQuery}

theorem wants_bounds {e : Entry} (h : q.wants e = true) :
    q.afterSequence.toNat < e.sequence ∧ e.sequence ≤ q.scanCeiling := by
  simp only [HistoryQuery.wants, Bool.and_eq_true, Bool.not_eq_true', Bool.or_eq_false_iff,
    decide_eq_false_iff_not] at h
  omega

theorem filter_wants_eq_nil
    (h : ∀ e ∈ es, ¬ (q.afterSequence.toNat < e.sequence ∧ e.sequence ≤ q.scanCeiling)) :
    es.filter q.wants = [] := by
  rw [List.filter_eq_nil_iff]
  intro e he hw
  exact h e he (wants_bounds hw)

/-- What a reader sees of an intact segment it does not leave out by its sidecar. -/
theorem segmentEntries_of_unskipped (h : IntactSegment j card path content es)
    (hskip : (loadSegmentMetadata j card {} .readings path).any (outsideBounds q) = false) :
    ∃ seen, segmentEntries j card {} .readings q path = some seen ∧
      seen.filter q.wants = es.filter q.wants := by
  have hopen : openFile card {} .scan path = some content := by simp [openFile, h.file]
  unfold segmentEntries visitSegment
  rw [hskip, if_neg (by simp), hopen]
  cases hindex : segmentIndex card {} .readings q path with
  | unusable => exact ⟨es, by simp [h.decodes], rfl⟩
  | outside =>
    refine ⟨[], rfl, ?_⟩
    unfold segmentIndex at hindex
    simp only at hindex
    split_ifs at hindex with hpath
    cases hfile : card.lookup (pairedIndexPath path) with
    | none => simp [openFile, hfile, searchIndex] at hindex
    | some index =>
      simp only [openFile, hfile, if_true, searchIndex] at hindex
      rw [filter_wants_eq_nil ((searchRows_of_match _ (h.index index hfile) h.increasing).2.1 hindex)]
      rfl
  | start offset =>
    unfold segmentIndex at hindex
    simp only at hindex
    split_ifs at hindex with hpath
    cases hfile : card.lookup (pairedIndexPath path) with
    | none => simp [openFile, hfile, searchIndex] at hindex
    | some index =>
      simp only [openFile, hfile, if_true, searchIndex] at hindex
      obtain ⟨k, rfl, hk⟩ := (searchRows_of_match _ (h.index index hfile) h.increasing).2.2 _ hindex
      have hle : ((lines content).take k).flatten.length ≤ content.length := by
        have hlength := congrArg List.length (flatten_lines content)
        have hsplit := congrArg (fun l => l.flatten.length) (List.take_append_drop k (lines content))
        simp only [List.flatten_append, List.length_append] at hlength hsplit
        omega
      have hsize := h.size
      refine ⟨es.drop k, ?_, ?_⟩
      · simp only [if_true, Nat.zero_add]
        rw [Nat.mod_eq_of_lt (by omega)]
        exact contentEntries_drop h.decodes k
      · conv_rhs => rw [← List.take_append_drop k es, List.filter_append, filter_wants_eq_nil hk]
        rfl

/-- A truthful sidecar leaves out nothing that is wanted. -/
theorem filter_wants_of_skipped (htrue : TruthfulSidecar j card path es)
    (hskip : (loadSegmentMetadata j card {} .readings path).any (outsideBounds q) = true) :
    es.filter q.wants = [] := by
  obtain ⟨metadata, hmeta, hbounds⟩ := (Option.any_eq_true ..).mp hskip
  refine filter_wants_eq_nil fun e he hw => ?_
  have hb := htrue metadata hmeta e he
  simp only [outsideBounds, Bool.or_eq_true, decide_eq_true_eq] at hbounds
  omega

/-- **A reader sees every wanted entry** of an intact segment whose sidecar is truthful. -/
theorem segmentEntries_of_intact (h : IntactSegment j card path content es)
    (htrue : TruthfulSidecar j card path es) :
    ∃ seen, segmentEntries j card {} .readings q path = some seen ∧
      seen.filter q.wants = es.filter q.wants := by
  cases hskip : (loadSegmentMetadata j card {} .readings path).any (outsideBounds q) with
  | false => exact segmentEntries_of_unskipped h hskip
  | true =>
    rw [filter_wants_of_skipped htrue hskip]
    exact ⟨[], by simp [segmentEntries, visitSegment, hskip], rfl⟩

end PowerMonitor.Storage.Intact
