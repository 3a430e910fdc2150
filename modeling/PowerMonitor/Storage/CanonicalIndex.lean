import PowerMonitor.Storage.RebuildIndexes

/-! # The index of a file of records

A file of records is indexable if each of its lines decodes, the last one included, and the sequences increase. Its index
then has a row for each line, with the place where the line starts (`canonicalIndex`). A rebuild makes this index and no
other, and the inspection that follows accepts it.

* `Stages`: how the rows are counted, line by line; the loop that writes them (`stageRows_returns`, `stageRows_undisturbed`)
  and the one that compares them (`exactRows_of_stages`) follow it.
* `stages_iff`: the files with such rows are those that are indexable and have no long line.
* `inspectSegment_staged`: the inspection finds the bounds that were counted. -/

namespace PowerMonitor.Storage.CanonicalIndex

open PowerMonitor.Lib.Binary PowerMonitor.Lib.Lines PowerMonitor.Lib.Scan PowerMonitor.Lib.Json PowerMonitor.Lib.Program
open PowerMonitor.Storage.RecordFormat PowerMonitor.Storage.Reading PowerMonitor.Storage.Media
open PowerMonitor.Storage.Segment PowerMonitor.Storage.SdStorage PowerMonitor.Storage.Layout
open PowerMonitor.Storage.Inspection PowerMonitor.Storage.RebuildIndexes

/-! ### The rows a file must have -/

/-- The sequence, the time and the checksum of a line that decodes, whatever its length. -/
def decodedLine (j : JsonLibrary) (line : Bytes) : Option (ℕ × ℕ × UInt32) := do
  let (payload, checksum) ← decodeEnvelope line
  let document ← j.deserialize payload
  let sequence := document (ascii "sequence")
  let start := document (ascii "start_utc_ms")
  if sequence.isUnsigned && start.isUnsigned then
    return (sequence.asUnsigned.toNat, start.asUnsigned.toNat, checksum)
  else none

/-- A row for each line. -/
def canonicalIndex : ℕ → List Bytes → List (ℕ × ℕ × UInt32) → Bytes
  | offset, line :: ls, (sequence, start, checksum) :: entries =>
    indexRow sequence start offset checksum ++ canonicalIndex (offset + line.length) ls entries
  | _, _, _ => []

/-- The file is not empty, all its lines decode, and their sequences increase. -/
structure Indexable (j : JsonLibrary) (content : Bytes) (entries : List (ℕ × ℕ × UInt32)) : Prop where
  nonempty : content ≠ []
  whole : unterminated content = []
  decoded : (lines content).map (decodedLine j) = entries.map some
  positive : ∀ entry ∈ entries, entry.1 ≠ 0
  increasing : (entries.map Prod.fst).Pairwise (· < ·)

/-- No line is longer than what a reader takes. -/
def Short (content : Bytes) : Prop := ∀ line ∈ lines content, line.length ≤ 8193

variable {j : JsonLibrary} {staged rest line text content path : Bytes} {ls : List Bytes} {rows all : Rows}
  {entries : List (ℕ × ℕ × UInt32)} {sequence start offset : ℕ} {checksum : UInt32} {s : Card}

theorem indexedLine_eq_some : indexedLine j line = some (sequence, start, checksum) ↔
    line.length ≤ 8193 ∧ decodedLine j line = some (sequence, start, checksum) := by
  unfold indexedLine
  split_ifs with hlong
  · exact ⟨fun h => (by cases h), fun h => absurd h.1 (by omega)⟩
  · exact ⟨fun h => ⟨by omega, h⟩, fun h => h.2⟩

theorem decodedLine_lt (h : decodedLine j line = some (sequence, start, checksum)) : sequence < 2 ^ 64 ∧ start < 2 ^ 64 := by
  unfold decodedLine at h
  simp only [Option.bind_eq_bind, Option.bind_eq_some_iff] at h
  obtain ⟨⟨payload, crc⟩, -, document, -, h⟩ := h
  split_ifs at h
  cases h
  exact ⟨UInt64.toNat_lt _, UInt64.toNat_lt _⟩

/-! ### Counting the rows -/

/-- From the count `rows`, the lines give the rows `text` and the count `all`. -/
inductive Stages (j : JsonLibrary) : Rows → List Bytes → Bytes → Rows → Prop
  | done (rows : Rows) : Stages j rows [] [] rows
  | row {rows all : Rows} {line text : Bytes} {ls : List Bytes} {sequence start : ℕ} {checksum : UInt32}
      (decodes : indexedLine j line = some (sequence, start, checksum)) (positive : sequence ≠ 0)
      (increases : rows.last < sequence) (later : Stages j (rows.add sequence line.length) ls text all) :
      Stages j rows (line :: ls) (indexRow sequence start rows.offset checksum ++ text) all

theorem increases_iff (_ : sequence ≠ 0) :
    ¬ (sequence = 0 ∨ (rows.last ≠ 0 ∧ sequence ≤ rows.last)) ↔ rows.last < sequence := by
  omega

/-- **Rows that are counted are staged.** -/
theorem stageRows_returns (j : JsonLibrary) (staged rest : Bytes) (ls : List Bytes) : ∀ rows,
    (stageRows j staged rest ls rows).Returns fun counted => ∀ all, counted = some all →
      rest = [] ∧ ∃ text, Stages j rows ls text all := by
  induction ls with
  | nil =>
    intro rows all h
    split_ifs at h with hrest
    cases h
    exact ⟨hrest, [], .done rows⟩
  | cons line ls ih =>
    intro rows
    unfold stageRows
    cases hline : indexedLine j line with
    | none => exact fun all h => by cases h
    | some entry =>
      obtain ⟨sequence, start, checksum⟩ := entry
      simp only
      refine Prog.returns_ite (fun _ all h => by cases h) fun haccepted => Prog.returns_bind fun written =>
        Prog.returns_ite (fun _ all h => by cases h) fun _ => ?_
      have hpositive : sequence ≠ 0 := fun h => haccepted (Or.inl h)
      refine (ih (rows.add sequence line.length)).mono fun counted hcounted all h => ?_
      obtain ⟨hrest, text, hlater⟩ := hcounted all h
      exact ⟨hrest, _, .row hline hpositive ((increases_iff hpositive).mp haccepted) hlater⟩

/-- **The rows compared are the rows staged.** -/
theorem exactRows_of_stages (h : Stages j rows ls text all) (hoffset : rows.offset + ls.length * 8193 < 2 ^ 64) :
    exactRows j [] ls rows = some (text, all) := by
  induction h with
  | done rows => rfl
  | @row rows all line text ls sequence start checksum decodes positive increases later ih =>
    obtain ⟨hshort, hdecoded⟩ := indexedLine_eq_some.mp decodes
    obtain ⟨hsequence, hstart⟩ := decodedLine_lt hdecoded
    rw [List.length_cons] at hoffset
    have hfits : ¬ 96 ≤ (indexRow sequence start rows.offset checksum).length :=
      Nat.not_le.mpr (length_indexRow hsequence hstart (by omega))
    have hlater : exactRows j [] ls (rows.add sequence line.length) = some (text, all) := by
      refine ih ?_
      simp only [Rows.add]
      omega
    unfold exactRows
    simp only [decodes, Option.bind_eq_bind, Option.bind_some, hfits, if_false, hlater]
    rfl

/-! ### Files with such rows -/

theorem Stages.decoded (h : Stages j rows ls text all) : ∃ entries, ls.map (decodedLine j) = entries.map some ∧
    (∀ line ∈ ls, line.length ≤ 8193) ∧ (∀ entry ∈ entries, entry.1 ≠ 0 ∧ rows.last < entry.1) ∧
      (entries.map Prod.fst).Pairwise (· < ·) ∧ text = canonicalIndex rows.offset ls entries := by
  induction h with
  | done rows => exact ⟨[], rfl, by simp, by simp, .nil, rfl⟩
  | @row rows all line text ls sequence start checksum decodes positive increases later ih =>
    obtain ⟨entries, hdecoded, hshort, hentries, hincreasing, htext⟩ := ih
    obtain ⟨hlength, hline⟩ := indexedLine_eq_some.mp decodes
    refine ⟨(sequence, start, checksum) :: entries, ?_, ?_, ?_, ?_, ?_⟩
    · rw [List.map_cons, List.map_cons, hline, hdecoded]
    · exact List.forall_mem_cons.mpr ⟨hlength, hshort⟩
    · refine List.forall_mem_cons.mpr ⟨⟨positive, increases⟩, fun entry hentry => ?_⟩
      obtain ⟨hpositive, hlater⟩ := hentries entry hentry
      exact ⟨hpositive, increases.trans hlater⟩
    · rw [List.map_cons, List.pairwise_cons]
      refine ⟨fun later hlater => ?_, hincreasing⟩
      obtain ⟨entry, hentry, rfl⟩ := List.mem_map.mp hlater
      exact (hentries entry hentry).2
    · rw [canonicalIndex, htext]
      rfl

theorem stages_of_entries {ls : List Bytes} : ∀ {rows : Rows} {entries : List (ℕ × ℕ × UInt32)},
    ls.map (decodedLine j) = entries.map some → (∀ line ∈ ls, line.length ≤ 8193) →
      (∀ entry ∈ entries, entry.1 ≠ 0 ∧ rows.last < entry.1) → (entries.map Prod.fst).Pairwise (· < ·) →
        ∃ all, Stages j rows ls (canonicalIndex rows.offset ls entries) all := by
  induction ls with
  | nil => exact fun _ _ _ _ => ⟨_, .done _⟩
  | cons line ls ih =>
    intro rows entries hdecoded hshort hentries hincreasing
    cases entries with
    | nil => cases hdecoded
    | cons entry entries =>
      obtain ⟨sequence, start, checksum⟩ := entry
      rw [List.map_cons, List.map_cons, List.cons.injEq] at hdecoded
      rw [List.forall_mem_cons] at hshort hentries
      rw [List.map_cons, List.pairwise_cons] at hincreasing
      have hlast : ∀ entry ∈ entries, entry.1 ≠ 0 ∧ (rows.add sequence line.length).last < entry.1 := fun entry hentry =>
        ⟨(hentries.2 entry hentry).1, hincreasing.1 _ (List.mem_map_of_mem hentry)⟩
      obtain ⟨all, hlater⟩ := ih hdecoded.2 hshort.2 hlast hincreasing.2
      exact ⟨all, .row (indexedLine_eq_some.mpr ⟨hshort.1, hdecoded.1⟩) hentries.1.1 hentries.1.2 hlater⟩

/-- **The files whose rows can be staged** are the indexable ones without a long line, and the rows are theirs. -/
theorem stages_iff (hcontent : content ≠ []) (hwhole : unterminated content = []) :
    (∃ all, Stages j {} (lines content) text all) ↔
      Short content ∧ ∃ entries, Indexable j content entries ∧ text = canonicalIndex 0 (lines content) entries := by
  constructor
  · rintro ⟨all, h⟩
    obtain ⟨entries, hdecoded, hshort, hentries, hincreasing, htext⟩ := h.decoded
    exact ⟨hshort, entries, ⟨hcontent, hwhole, hdecoded, fun entry hentry => (hentries entry hentry).1, hincreasing⟩, htext⟩
  · rintro ⟨hshort, entries, h, rfl⟩
    refine stages_of_entries h.decoded hshort (fun entry hentry => ?_) h.increasing
    exact ⟨h.positive entry hentry, Nat.pos_of_ne_zero (h.positive entry hentry)⟩

/-! ### The inspection that follows -/

/-- A line that is indexed is a line that is inspected. -/
theorem inspectLine_of_indexed (h : indexedLine j line = some (sequence, start, checksum)) : ∃ document,
    inspectLine j line = some (document, checksum) ∧ (document (ascii "sequence")).asUnsigned.toNat = sequence := by
  obtain ⟨hshort, hdecoded⟩ := indexedLine_eq_some.mp h
  unfold decodedLine at hdecoded
  simp only [Option.bind_eq_bind, Option.bind_eq_some_iff] at hdecoded
  obtain ⟨⟨payload, crc⟩, henvelope, document, hdocument, hentry⟩ := hdecoded
  split_ifs at hentry with hunsigned
  cases hentry
  rw [Bool.and_eq_true] at hunsigned
  refine ⟨document, ?_, rfl⟩
  unfold inspectLine
  simp only [if_neg (Nat.not_lt.mpr hshort), henvelope, Option.bind_eq_bind, Option.bind_some, hdocument, hunsigned.1,
    if_true]
  rfl

/-- The next row keeps the order of the first sequence and the last. -/
theorem Rows.ordered_add (hbounds : rows.first ≤ rows.last) (hincreases : rows.last < sequence) (length : ℕ) :
    (rows.add sequence length).first ≤ (rows.add sequence length).last ∧
      oldest rows.first sequence = (rows.add sequence length).first ∧ max rows.last sequence = sequence := by
  refine ⟨?_, ?_, Nat.max_eq_right hincreases.le⟩
  · simp only [Rows.add]
    split_ifs <;> omega
  · simp only [oldest, Rows.add]
    split_ifs
    · rfl
    · exact Nat.min_eq_left (by omega)

/-- An inspection has found the records that were counted. -/
structure Agrees (m : InspectedSegment) (rows : Rows) : Prop where
  complete : m.complete = true
  count : m.recordCount = rows.count
  first : m.firstSequence = rows.first
  last : m.lastSequence = rows.last

theorem inspectLines_agrees (h : Stages j rows ls text all) : ∀ m, Agrees m rows → rows.first ≤ rows.last →
    rows.count + ls.length < 2 ^ 32 → Agrees (inspectLines j ls m) all := by
  induction h with
  | done rows => exact fun m hm _ _ => hm
  | @row rows all line text ls sequence start checksum decodes positive increases later ih =>
    intro m hm hbounds hcount
    rw [List.length_cons] at hcount
    obtain ⟨hnext, hfirst, hlast⟩ := Rows.ordered_add hbounds increases line.length
    obtain ⟨document, hline, hsequence⟩ := inspectLine_of_indexed decodes
    unfold inspectLines
    rw [hline]
    refine ih _ ⟨hm.complete, ?_, ?_, ?_⟩ hnext ?_
    · simp only [InspectedSegment.addRecord, hm.count, Rows.add]
      exact Nat.mod_eq_of_lt (by omega)
    · simp only [InspectedSegment.addRecord, hsequence, hm.first, hfirst]
    · simp only [InspectedSegment.addRecord, hsequence, hm.last, hlast, Rows.add]
    · simp only [Rows.add]
      omega

/-- The count of the rows, as an inspection of the index states it. -/
def foundIndex (rows : Rows) : InspectedIndex where
  count := rows.count
  first := rows.first
  last := rows.last

theorem inspectRows_agrees (h : Stages j rows ls text all) (hbounds : rows.first ≤ rows.last)
    (hcount : rows.count + ls.length < 2 ^ 32) (hoffset : rows.offset + ls.length * 8193 < 2 ^ 64) :
    inspectRows (indexRows text) (foundIndex rows) = foundIndex all := by
  induction h with
  | done rows => rfl
  | @row rows all line text ls sequence start checksum decodes positive increases later ih =>
    rw [List.length_cons] at hcount hoffset
    obtain ⟨hnext, hfirst, hlast⟩ := Rows.ordered_add hbounds increases line.length
    obtain ⟨hshort, hdecoded⟩ := indexedLine_eq_some.mp decodes
    obtain ⟨hsequence, hstart⟩ := decodedLine_lt hdecoded
    have hparsed : parseIndexRow (bareRow sequence start rows.offset checksum) = some (sequence, rows.offset) :=
      parseIndexRow_bareRow hsequence hstart (by omega)
    have hadded : (⟨(rows.count + 1) % 2 ^ 32, oldest rows.first sequence, max rows.last sequence, true⟩ : InspectedIndex) =
        foundIndex (rows.add sequence line.length) := by
      rw [hfirst, hlast, Nat.mod_eq_of_lt (by omega)]
      rfl
    rw [indexRows_indexRow]
    unfold inspectRows
    rw [hparsed]
    simp only
    refine Eq.trans (congrArg _ hadded) (ih hnext ?_ ?_)
    · simp only [Rows.add]
      omega
    · simp only [Rows.add]
      omega

theorem Stages.count (h : Stages j rows ls text all) : all.count = rows.count + ls.length := by
  induction h with
  | done rows => rfl
  | row decodes positive increases later ih =>
    rw [ih, List.length_cons]
    simp only [Rows.add]
    omega

theorem Stages.ne_nil (h : Stages j rows ls text all) (hls : ls ≠ []) : text ≠ [] := by
  cases h with
  | done => exact absurd rfl hls
  | row decodes positive increases later => simp [indexRow]

theorem lines_ne_nil (hcontent : content ≠ []) (hwhole : unterminated content = []) : lines content ≠ [] := by
  intro hlines
  have hall := flatten_lines content
  rw [hlines, hwhole] at hall
  exact hcontent hall.symm

/-- **What a rebuild has installed passes its inspection.** -/
theorem inspectSegment_staged (h : Stages j {} (lines content) text all) (hcontent : content ≠ [])
    (hwhole : unterminated content = []) (hcount : (lines content).length < 2 ^ 32) (path : Bytes) :
    Agrees (inspectSegment j path (some content) (some text)) all ∧
      (inspectSegment j path (some content) (some text)).indexValid = true := by
  have hfound := inspectLines_agrees h (.opened path (some content)) ⟨rfl, rfl, rfl, rfl⟩ le_rfl (by simpa using hcount)
  have hrows := inspectRows_agrees h le_rfl (by simpa using hcount) (by simp only [Nat.zero_add]; omega)
  have hpositive : 0 < all.count := by
    rw [h.count]
    have := List.length_pos_iff.mpr (lines_ne_nil hcontent hwhole)
    omega
  unfold inspectSegment
  simp only [Option.getD_some]
  change inspectRows (indexRows text) {} = foundIndex all at hrows
  refine ⟨⟨?_, hfound.count, hfound.first, hfound.last⟩, ?_⟩
  · simp [hfound.complete, hwhole, hfound.count, hpositive]
  · simp [hrows, foundIndex, hfound.count, hfound.first, hfound.last]

end PowerMonitor.Storage.CanonicalIndex
