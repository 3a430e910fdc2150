import Mathlib.Data.List.Infix
import PowerMonitor.Storage.Frames
import PowerMonitor.Storage.Intact

/-! # The files appending makes

The records of a day (or of a boot without a clock) are in one file, the rows that point to them in
another; the two paths share a stem. A card that holds nothing but what was appended is laid out
(`LaidOut`): each segment is intact (`LaidOut.intact`), and what a reader sees are the stored records.
Appending a record and its row keeps the layout (`LaidOut.append`). -/

namespace PowerMonitor.Storage.Layout

open PowerMonitor.Lib.Binary PowerMonitor.Lib.Lines PowerMonitor.Lib.Scan PowerMonitor.Lib.Json
open PowerMonitor.Lib.Walk
open PowerMonitor.Storage.RecordFormat PowerMonitor.Storage.Reading PowerMonitor.Storage.Media
open PowerMonitor.Storage.Segment PowerMonitor.Storage.ReadPage PowerMonitor.Storage.PageSpec
open PowerMonitor.Storage.SdStorage PowerMonitor.Storage.Frames PowerMonitor.Storage.Intact

/-! ### Stems -/

def recordStem (x : Bytes) : Bytes := ascii "/POWERMON/records/" ++ (x ++ ascii ".pmr")

def indexStem (x : Bytes) : Bytes := ascii "/POWERMON/indexes/" ++ (x ++ ascii ".idx")

/-- What the paths of a record's file and of its index share. -/
def stem (r : IntervalRecord) : Bytes :=
  if r.startUtcMs = 0 then ascii "untrusted/" ++ r.bootId
  else
    let (year, month, day) := civilFromDays (r.startUtcMs.toNat / 1000 / 86400)
    padded 4 year ++ (47 :: (padded 2 month ++ (47 :: dateText year month day)))

theorem recordPath_eq (r : IntervalRecord) : recordPath r = recordStem (stem r) := by
  have h1 : ascii "/POWERMON/records/" = ascii "/POWERMON/" ++ (ascii "records" ++ [47]) := by
    decide
  have h2 : ascii "/untrusted/" = 47 :: ascii "untrusted/" := by decide
  unfold recordPath datedPath recordStem stem
  generalize civilFromDays (r.startUtcMs.toNat / 1000 / 86400) = date
  obtain ⟨year, month, day⟩ := date
  rw [h1, h2]
  by_cases h0 : r.startUtcMs = 0
  · rw [if_pos h0, if_pos h0]; simp
  · rw [if_neg h0, if_neg h0]; simp

theorem indexPath_eq (r : IntervalRecord) : indexPath r = indexStem (stem r) := by
  have h1 : ascii "/POWERMON/indexes/" = ascii "/POWERMON/" ++ (ascii "indexes" ++ [47]) := by
    decide
  have h2 : ascii "/untrusted/" = 47 :: ascii "untrusted/" := by decide
  unfold indexPath datedPath indexStem stem
  generalize civilFromDays (r.startUtcMs.toNat / 1000 / 86400) = date
  obtain ⟨year, month, day⟩ := date
  rw [h1, h2]
  by_cases h0 : r.startUtcMs = 0
  · rw [if_pos h0, if_pos h0]; simp
  · rw [if_neg h0, if_neg h0]; simp

theorem isRecordFile_recordStem (x : Bytes) : isRecordFile (recordStem x) = true := by
  unfold isRecordFile recordStem
  rw [Bool.and_eq_true, List.isPrefixOf_iff_prefix, List.isSuffixOf_iff_suffix]
  exact ⟨List.prefix_append _ _, ⟨ascii "/POWERMON/records/" ++ x, by simp⟩⟩

/-- Every file of records has a stem. -/
theorem exists_recordStem {path : Bytes} (h : isRecordFile path = true) : ∃ x, path = recordStem x := by
  unfold isRecordFile at h
  rw [Bool.and_eq_true, List.isPrefixOf_iff_prefix, List.isSuffixOf_iff_suffix] at h
  obtain ⟨⟨rest, rfl⟩, hsuffix⟩ := h
  rcases List.suffix_or_suffix_of_suffix (List.suffix_append (ascii "/POWERMON/records/") rest) hsuffix with hrest | hrest
  · -- a shorter rest would put the slash of the directory in the suffix
    have hends : ∀ t ∈ (ascii ".pmr").tails, ascii ".pmr" <:+ ascii "/POWERMON/records/" ++ t → t = ascii ".pmr" := by
      decide
    exact ⟨[], by rw [hends rest ((List.mem_tails _ _).mpr hrest) hsuffix]; rfl⟩
  · obtain ⟨x, rfl⟩ := hrest
    exact ⟨x, rfl⟩

theorem findText_recordStem (x : Bytes) : findText (ascii "/records/") (recordStem x) = some 9 := by
  have h1 : ascii "/records/" = [47, 114, 101, 99, 111, 114, 100, 115, 47] := by decide
  have h2 : ascii "/POWERMON/records/" = [47, 80, 79, 87, 69, 82, 77, 79, 78, 47, 114, 101, 99, 111,
    114, 100, 115, 47] := by decide
  unfold recordStem
  rw [h1, h2]
  simp [findText, List.isPrefixOf]

/-- The index beside a file of records shares its stem. -/
theorem pairedIndexPath_recordStem (x : Bytes) : pairedIndexPath (recordStem x) = indexStem x := by
  have hsuffix : (ascii ".pmr").isSuffixOf (recordStem x) = true := by
    have := isRecordFile_recordStem x
    simp only [isRecordFile, Bool.and_eq_true] at this
    exact this.2
  have hparts : recordStem x = ascii "/POWERMON" ++ (ascii "/records/" ++ (x ++ ascii ".pmr")) := by
    unfold recordStem
    rw [show ascii "/POWERMON/records/" = ascii "/POWERMON" ++ ascii "/records/" by decide,
      List.append_assoc]
  have htake : (recordStem x).take 9 = ascii "/POWERMON" := by
    rw [hparts]
    exact List.take_left' (by decide)
  have hdrop : (recordStem x).drop (9 + 9) = x ++ ascii ".pmr" := by
    unfold recordStem
    exact List.drop_left' (by decide)
  unfold pairedIndexPath
  rw [findText_recordStem]
  simp only [hsuffix, Bool.not_true, Bool.false_eq_true, if_false, htake, hdrop]
  have hreplaced : ascii "/POWERMON" ++ (ascii "/indexes/" ++ (x ++ ascii ".pmr")) =
      (ascii "/POWERMON" ++ (ascii "/indexes/" ++ x)) ++ ascii ".pmr" := by simp
  rw [hreplaced, List.length_append, show (ascii ".pmr").length = 4 by decide, Nat.add_sub_cancel,
    List.take_left]
  unfold indexStem
  rw [show ascii "/POWERMON/indexes/" = ascii "/POWERMON" ++ ascii "/indexes/" by decide]
  simp

theorem recordStem_injective {x y : Bytes} (h : recordStem x = recordStem y) : x = y :=
  List.append_cancel_right (List.append_cancel_left h)

theorem indexStem_injective {x y : Bytes} (h : indexStem x = indexStem y) : x = y :=
  List.append_cancel_right (List.append_cancel_left h)

theorem indexStem_suffix (x : Bytes) : ascii ".idx" <:+ indexStem x :=
  ⟨ascii "/POWERMON/indexes/" ++ x, by simp [indexStem]⟩

theorem recordStem_suffix (x : Bytes) : ascii ".pmr" <:+ recordStem x :=
  pmr_suffix (isRecordFile_recordStem x)

theorem recordStem_ne_indexStem (x y : Bytes) : recordStem x ≠ indexStem y :=
  ne_of_suffix (recordStem_suffix x) (indexStem_suffix y) (by decide) (by decide)
    (by decide)

theorem isRecordFile_indexStem (x : Bytes) : isRecordFile (indexStem x) = false := by
  cases h : isRecordFile (indexStem x) with
  | false => rfl
  | true =>
    exact absurd rfl (ne_of_suffix (pmr_suffix h) (indexStem_suffix x) (by decide)
      (by decide) (by decide))

/-! ### A segment -/

variable {j : JsonLibrary}

/-- The file of some records. -/
def fileOf (j : JsonLibrary) (rs : List IntervalRecord) : Bytes := (rs.map (recordEnvelope j)).flatten

/-- The row of a record at an offset. -/
def rowOf (j : JsonLibrary) (offset : ℕ) (r : IntervalRecord) : Bytes :=
  indexRow r.sequence.toNat r.startUtcMs.toNat offset (crc32 (serializeRecord j r))

/-- The rows of some records, the first at `offset`. -/
def rowsOf (j : JsonLibrary) : ℕ → List IntervalRecord → Bytes
  | _, [] => []
  | offset, r :: rs => rowOf j offset r ++ rowsOf j (offset + (recordEnvelope j r).length) rs

theorem fileOf_append (rs : List IntervalRecord) (r : IntervalRecord) :
    fileOf j (rs ++ [r]) = fileOf j rs ++ recordEnvelope j r := by simp [fileOf]

theorem rowsOf_append (rs : List IntervalRecord) (r : IntervalRecord) (offset : ℕ) :
    rowsOf j offset (rs ++ [r]) = rowsOf j offset rs ++ rowOf j (offset + (fileOf j rs).length) r := by
  induction rs generalizing offset with
  | nil => simp [rowsOf, fileOf]
  | cons s rs ih =>
    rw [List.cons_append, rowsOf, ih, rowsOf, List.append_assoc]
    simp [fileOf, Nat.add_assoc]

theorem lines_fileOf (hj : j.Lawful) (rs : List IntervalRecord) :
    lines (fileOf j rs) = rs.map (recordEnvelope j) ∧ unterminated (fileOf j rs) = [] := by
  obtain ⟨h1, h2⟩ := lines_flatten (rs.map (recordEnvelope j)) (by
    intro l hl
    obtain ⟨r, -, rfl⟩ := List.mem_map.mp hl
    exact recordEnvelope_line hj r) []
  rw [List.append_nil, lines_nil, List.append_nil] at h1
  rw [List.append_nil, unterminated_nil] at h2
  exact ⟨h1, h2⟩

/-- **The entries of a file are its records.** -/
theorem contentEntries_fileOf (hj : j.Lawful) {rs : List IntervalRecord}
    (hfits : ∀ r ∈ rs, (recordEnvelope j r).length ≤ maximumLine) :
    contentEntries j .readings (fileOf j rs) = some (rs.map (entryOf j)) := by
  obtain ⟨h1, h2⟩ := lines_fileOf hj rs
  unfold contentEntries
  rw [h1, h2, if_pos rfl]
  induction rs with
  | nil => rfl
  | cons r rs ih =>
    rw [List.map_cons, List.map_cons]
    refine gather_cons_eq_some.mpr ⟨[entryOf j r], rs.map (entryOf j), lineEntries_eq_some.mpr
      ⟨hfits r (by simp), _, decodeLine_recordEnvelope hj r, rfl⟩, ?_, rfl⟩
    exact ih (fun r hr => hfits r (by simp [hr])) (lines_fileOf hj rs).1 (lines_fileOf hj rs).2

/-! ### Rows -/

/-- A row without its newline. -/
def bareRow (sequence utcMs offset : ℕ) (payloadCrc : UInt32) : Bytes :=
  decimal sequence ++ (44 :: (decimal utcMs ++ (44 :: (decimal offset ++ (44 :: hexText 8 payloadCrc.toNat)))))

section Row

variable {sequence utcMs offset : ℕ} {payloadCrc : UInt32}

theorem length_indexRow (hsequence : sequence < 2 ^ 64) (hutcMs : utcMs < 2 ^ 64) (hoffset : offset < 2 ^ 64) :
    (indexRow sequence utcMs offset payloadCrc).length < 96 := by
  have h1 := length_decimal hsequence
  have h2 := length_decimal hutcMs
  have h3 := length_decimal hoffset
  simp only [indexRow, List.length_append, List.length_cons, List.length_nil, length_hexText]
  omega

theorem newline_notMem_bareRow (sequence utcMs offset : ℕ) (payloadCrc : UInt32) :
    (10 : UInt8) ∉ bareRow sequence utcMs offset payloadCrc := by
  have hdigits : ∀ n, (10 : UInt8) ∉ decimal n := fun n h => absurd (isDigit_of_mem_decimal h) (by decide)
  have hhex : (10 : UInt8) ∉ hexText 8 payloadCrc.toNat := notMem_hexText (by decide)
  simp [bareRow, hdigits, hhex]

/-- **A row reads back** as its sequence and its offset. -/
theorem parseIndexRow_bareRow (hsequence : sequence < 2 ^ 64) (hutcMs : utcMs < 2 ^ 64) (hoffset : offset < 2 ^ 64) :
    parseIndexRow (bareRow sequence utcMs offset payloadCrc) = some (sequence, offset) := by
  have hcomma : ∀ rest : Bytes, ∀ b ∈ ((44 : UInt8) :: rest).head?, isDigit b = false := by
    intro rest b hb
    simp only [List.head?_cons, Option.mem_def, Option.some.injEq] at hb
    subst hb
    decide
  have hhex := scanHex_hexText (k := 8) (by omega) payloadCrc.toNat []
  rw [List.append_nil] at hhex
  unfold parseIndexRow bareRow
  rw [scanUnsigned_decimal hsequence (hcomma _)]
  simp only [Option.bind_eq_bind, Option.bind_some, comma]
  rw [scanUnsigned_decimal hutcMs (hcomma _)]
  simp only [Option.bind_some]
  rw [scanUnsigned_decimal hoffset (hcomma _)]
  simp only [Option.bind_some, length_hexText, hhex]
  rfl

/-- The first row of an index, and the later ones. -/
theorem indexRows_indexRow (rest : Bytes) : indexRows (indexRow sequence utcMs offset payloadCrc ++ rest) =
    bareRow sequence utcMs offset payloadCrc :: indexRows rest := by
  have hline : indexRow sequence utcMs offset payloadCrc ++ rest =
      bareRow sequence utcMs offset payloadCrc ++ 10 :: rest := by simp [indexRow, bareRow]
  obtain ⟨h1, h2⟩ := lines_line (newline_notMem_bareRow sequence utcMs offset payloadCrc) rest
  unfold indexRows
  rw [hline, h1, h2, List.map_cons, List.dropLast_concat, List.cons_append]

end Row

theorem length_rowOf {offset : ℕ} (h : offset < 2 ^ 64) (r : IntervalRecord) :
    (rowOf j offset r).length < 96 := length_indexRow r.sequence.toNat_lt r.startUtcMs.toNat_lt h

/-- The row of a record without its newline. -/
def rowText (j : JsonLibrary) (offset : ℕ) (r : IntervalRecord) : Bytes :=
  decimal r.sequence.toNat ++ (44 :: (decimal r.startUtcMs.toNat ++ (44 :: (decimal offset ++ (44 ::
    hexText 8 (crc32 (serializeRecord j r)).toNat)))))

/-- The row of a record reads back as the record's sequence and offset. -/
theorem parseIndexRow_rowText {offset : ℕ} (h : offset < 2 ^ 64) (r : IntervalRecord) :
    parseIndexRow (rowText j offset r) = some (r.sequence.toNat, offset) :=
  parseIndexRow_bareRow r.sequence.toNat_lt r.startUtcMs.toNat_lt h

theorem indexRows_rowOf (offset : ℕ) (r : IntervalRecord) (rest : Bytes) :
    indexRows (rowOf j offset r ++ rest) = rowText j offset r :: indexRows rest := indexRows_indexRow rest

/-- **The rows of a segment point to its lines.** -/
theorem rowsMatch_rowsOf {rs : List IntervalRecord} {offset : ℕ}
    (hsize : offset + (fileOf j rs).length < 2 ^ 64) :
    RowsMatch offset (rs.map (recordEnvelope j)) (rs.map (entryOf j)) (indexRows (rowsOf j offset rs)) := by
  induction rs generalizing offset with
  | nil => exact trivial
  | cons r rs ih =>
    have hlength : (fileOf j (r :: rs)).length = (recordEnvelope j r).length + (fileOf j rs).length := by
      simp [fileOf]
    rw [rowsOf, indexRows_rowOf]
    exact ⟨parseIndexRow_rowText (by omega) r, ih (by omega)⟩

/-! ### A card -/

/-- The segment of a stem holds some records and their rows. -/
structure Laid (j : JsonLibrary) (card : Card) (x : Bytes) (rs : List IntervalRecord) : Prop where
  file : (card.lookup (recordStem x)).getD [] = fileOf j rs
  index : (card.lookup (indexStem x)).getD [] = rowsOf j 0 rs

/-- **The card holds what was appended**: `held` gives the records of each stem, in increasing order. -/
structure LaidOut (j : JsonLibrary) (card : Card) (held : Bytes → List IntervalRecord) : Prop where
  laid : ∀ x, Laid j card x (held x)
  stems : ∀ path, isRecordFile path = true → (card.lookup path).isSome → ∃ x, path = recordStem x
  fits : ∀ x, ∀ r ∈ held x, (recordEnvelope j r).length ≤ maximumLine
  size : ∀ x, (fileOf j (held x)).length < 2 ^ 32
  increasing : ∀ x, (held x).Pairwise fun r s => r.sequence.toNat < s.sequence.toNat

variable {card card' : Card} {held : Bytes → List IntervalRecord} {x : Bytes}

theorem laidOut_empty : LaidOut j ∅ fun _ => [] where
  laid x := ⟨rfl, rfl⟩
  stems path _ h := by simp at h
  fits x r hr := by cases hr
  size x := by simp [fileOf]
  increasing x := List.Pairwise.nil

/-- **Each segment of a laid out card is intact.** -/
theorem LaidOut.intact (hj : j.Lawful) (h : LaidOut j card held)
    (hfile : (card.lookup (recordStem x)).isSome) :
    IntactSegment j card (recordStem x) (fileOf j (held x)) ((held x).map (entryOf j)) where
  file := by
    obtain ⟨content, hcontent⟩ := Option.isSome_iff_exists.mp hfile
    have := (h.laid x).file
    rw [hcontent] at this ⊢
    rw [← this]
    rfl
  size := h.size x
  decodes := contentEntries_fileOf hj (h.fits x)
  increasing := List.pairwise_map.mpr (h.increasing x)
  index index hindex := by
    have hrows := (h.laid x).index
    rw [pairedIndexPath_recordStem] at hindex
    rw [hindex] at hrows
    rw [show index = rowsOf j 0 (held x) from hrows, (lines_fileOf hj _).1]
    exact rowsMatch_rowsOf (by have := h.size x; omega)

/-- A file that is not there holds no record. -/
theorem LaidOut.empty_of_missing (h : LaidOut j card held) (hfile : card.lookup (recordStem x) = none) :
    fileOf j (held x) = [] := by
  have := (h.laid x).file
  rw [hfile] at this
  exact this.symm

theorem length_recordEnvelope_pos (j : JsonLibrary) (r : IntervalRecord) :
    0 < (recordEnvelope j r).length := by
  rw [recordEnvelope, length_encodeEnvelope]
  omega

theorem eq_nil_of_fileOf {rs : List IntervalRecord} (h : fileOf j rs = []) : rs = [] := by
  cases rs with
  | nil => rfl
  | cons r rs =>
    have hlength := congrArg List.length h
    have := length_recordEnvelope_pos j r
    simp only [fileOf, List.map_cons, List.flatten_cons, List.length_append, List.length_nil] at hlength
    omega

/-- The file of a stored record is there. -/
theorem LaidOut.isSome_of_mem (h : LaidOut j card held) {r : IntervalRecord} (hr : r ∈ held x) :
    (card.lookup (recordStem x)).isSome := by
  cases hfile : card.lookup (recordStem x) with
  | none =>
    rw [eq_nil_of_fileOf (h.empty_of_missing hfile)] at hr
    cases hr
  | some content => rfl

/-- Changes to other files keep the layout. -/
theorem LaidOut.congr (h : LaidOut j card held)
    (hsame : ∀ path, isRecordFile path = true → card'.lookup path = card.lookup path)
    (hindex : ∀ x, card'.lookup (indexStem x) = card.lookup (indexStem x)) : LaidOut j card' held where
  laid x := ⟨by rw [hsame _ (isRecordFile_recordStem x)]; exact (h.laid x).file,
    by rw [hindex x]; exact (h.laid x).index⟩
  stems path hpath hsome := h.stems path hpath (by rwa [hsame path hpath] at hsome)
  fits := h.fits
  size := h.size
  increasing := h.increasing

theorem indexStem_notMem_journalPaths (x : Bytes) : indexStem x ∉ journalPaths := by
  rw [← pairedIndexPath_recordStem]
  exact index_notMem_journalPaths _

theorem LaidOut.of_journals (h : LaidOut j card held) (hsame : SameExcept journalPaths card card') :
    LaidOut j card' held :=
  h.congr (fun path hpath => hsame path (record_notMem_journalPaths hpath))
    fun x => hsame _ (indexStem_notMem_journalPaths x)

/-- The record and its row are at the end of their files, and other files than these and the journals
are as they were. -/
structure Extends (j : JsonLibrary) (card card' : Card) (r : IntervalRecord) : Prop where
  file : card'.lookup (recordPath r) = some ((card.lookup (recordPath r)).getD [] ++ recordEnvelope j r)
  index : card'.lookup (indexPath r) = some ((card.lookup (indexPath r)).getD [] ++
    rowOf j ((card.lookup (recordPath r)).getD []).length r)
  others : SameExcept (recordPath r :: indexPath r :: journalPaths) card card'
  journals : JournalsBelow card → JournalsBelow card'

/-- **Appending keeps the layout.** -/
theorem LaidOut.append (h : LaidOut j card held) {r : IntervalRecord} (hext : Extends j card card' r)
    (hfits : (recordEnvelope j r).length ≤ maximumLine)
    (hsize : (fileOf j (held (stem r))).length + (recordEnvelope j r).length < 2 ^ 32)
    (hlast : ∀ s ∈ held (stem r), s.sequence.toNat < r.sequence.toNat) :
    LaidOut j card' (Function.update held (stem r) (held (stem r) ++ [r])) := by
  obtain ⟨hfile, hindex, hothers, -⟩ := hext
  rw [recordPath_eq] at hfile hindex hothers
  rw [indexPath_eq] at hindex hothers
  have hother : ∀ path, path ≠ recordStem (stem r) → path ≠ indexStem (stem r) → path ∉ journalPaths →
      card'.lookup path = card.lookup path := fun path h1 h2 h3 => hothers path (by simp [h1, h2, h3])
  have hrecord : ∀ path, isRecordFile path = true → path ≠ recordStem (stem r) →
      card'.lookup path = card.lookup path := fun path hpath hne =>
    hother path hne (fun heq => by rw [heq, isRecordFile_indexStem] at hpath; cases hpath)
      (record_notMem_journalPaths hpath)
  constructor
  · intro y
    by_cases hy : y = stem r
    · subst hy
      rw [Function.update_self]
      refine ⟨?_, ?_⟩
      · rw [hfile, Option.getD_some, (h.laid _).file, fileOf_append]
      · rw [hindex, Option.getD_some, (h.laid _).index, (h.laid _).file, rowsOf_append, Nat.zero_add]
    · rw [Function.update_of_ne hy]
      refine ⟨?_, ?_⟩
      · rw [hrecord _ (isRecordFile_recordStem y) fun heq => hy (recordStem_injective heq)]
        exact (h.laid y).file
      · rw [hother _ (fun heq => recordStem_ne_indexStem _ _ heq.symm)
          (fun heq => hy (indexStem_injective heq)) (indexStem_notMem_journalPaths y)]
        exact (h.laid y).index
  · intro path hpath hsome
    by_cases heq : path = recordStem (stem r)
    · exact ⟨_, heq⟩
    · exact h.stems path hpath (by rwa [hrecord path hpath heq] at hsome)
  · intro y s hs
    by_cases hy : y = stem r
    · subst hy
      rw [Function.update_self, List.mem_append, List.mem_singleton] at hs
      rcases hs with hs | rfl
      · exact h.fits _ s hs
      · exact hfits
    · rw [Function.update_of_ne hy] at hs
      exact h.fits y s hs
  · intro y
    by_cases hy : y = stem r
    · subst hy
      rw [Function.update_self, fileOf_append, List.length_append]
      exact hsize
    · rw [Function.update_of_ne hy]
      exact h.size y
  · intro y
    by_cases hy : y = stem r
    · subst hy
      rw [Function.update_self, List.pairwise_append]
      refine ⟨h.increasing _, List.pairwise_singleton _ _, fun s hs t ht => ?_⟩
      rw [List.mem_singleton.mp ht]
      exact hlast s hs
    · rw [Function.update_of_ne hy]
      exact h.increasing y

end PowerMonitor.Storage.Layout
