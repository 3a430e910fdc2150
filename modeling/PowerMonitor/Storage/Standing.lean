import PowerMonitor.Storage.CalmOperations

/-! # The readings that stand on a card

A repair writes a copy of a file and removes the file before the copy takes its place, so a copy stands
for a file that is missing (`standing`). The sequences of the lines that decode are `lineSequences`; the
readings of a card are `Distinct` when no two lines that stand have the same sequence. A repair only cuts
off the end of what stands (`Shrinks`), and an append adds one line (`standing_append`). -/

namespace PowerMonitor.Storage.Standing

open PowerMonitor.Lib.Binary PowerMonitor.Lib.Lines PowerMonitor.Lib.Json
open PowerMonitor.Storage.Reading PowerMonitor.Storage.Media PowerMonitor.Storage.Segment
open PowerMonitor.Storage.ReadPage PowerMonitor.Storage.SdStorage PowerMonitor.Storage.Frames
open PowerMonitor.Storage.Intact PowerMonitor.Storage.Layout

variable {j : JsonLibrary} {card card' : Card} {path : Bytes}

/-! ### Sequences -/

/-- The sequences of the complete lines that decode. -/
def lineSequences (j : JsonLibrary) (content : Bytes) : List ℕ :=
  (lines content).filterMap fun line => (decodeLine j .readings line).toOption.map Entry.sequence

/-- **The sequences of the envelopes** in the files of readings. -/
def envelopeSequences (j : JsonLibrary) (card : Card) : List ℕ :=
  (recordFiles card).flatMap fun path => lineSequences j ((card.lookup path).getD [])

theorem mem_lineSequences {content : Bytes} {n : ℕ} :
    n ∈ lineSequences j content ↔ ∃ line ∈ lines content, ∃ e, decodeLine j .readings line = .ok e ∧
      e.sequence = n := by
  unfold lineSequences
  rw [List.mem_filterMap]
  refine exists_congr fun line => and_congr_right fun _ => ?_
  cases decodeLine j .readings line with
  | error e => simp [Except.toOption]
  | ok e => simp [Except.toOption]

/-- The first bytes of a file hold its first lines. -/
theorem lineSequences_sublist {s t : Bytes} (h : s <+: t) : (lineSequences j s).Sublist (lineSequences j t) := by
  obtain ⟨rest, rfl⟩ := h
  unfold lineSequences
  rw [(lines_append s rest).1, List.filterMap_append]
  exact List.sublist_append_left _ _

/-- The sequence of a line. -/
def lineSequence (j : JsonLibrary) (line : Bytes) : List ℕ :=
  ((decodeLine j .readings line).toOption.map Entry.sequence).toList

/-- A complete line, after what is there. -/
theorem lineSequences_append {line : Bytes} (hline : ∃ init, line = init ++ [10] ∧ (10 : UInt8) ∉ init)
    (before : Bytes) :
    lineSequences j (before ++ line) =
      lineSequences j before ++ lineSequence j (unterminated before ++ line) := by
  obtain ⟨init, rfl, hinit⟩ := hline
  have hnot : (10 : UInt8) ∉ unterminated before ++ init := by
    simp [newline_notMem_unterminated, hinit]
  have hlines : lines (unterminated before ++ (init ++ [10])) = [unterminated before ++ (init ++ [10])] := by
    rw [← List.append_assoc]
    exact (lines_line hnot []).1
  unfold lineSequences lineSequence
  rw [(lines_append _ _).1, hlines, List.filterMap_append, List.filterMap_cons, List.filterMap_nil]
  cases Option.map Entry.sequence (decodeLine j .readings (unterminated before ++ (init ++ [10]))).toOption <;>
    rfl

/-- Bytes without a newline complete no line. -/
theorem lineSequences_append_part {part : Bytes} (hpart : (10 : UInt8) ∉ part) (before : Bytes) :
    lineSequences j (before ++ part) = lineSequences j before := by
  have hnot : (10 : UInt8) ∉ unterminated before ++ part := by
    simp [newline_notMem_unterminated, hpart]
  unfold lineSequences
  rw [(lines_append _ _).1, (lines_of_notMem hnot).1, List.append_nil]

/-! ### What stands -/

/-- The content of a file; a repaired copy stands for a file that is missing. -/
def standing (card : Card) (path : Bytes) : Bytes :=
  ((card.lookup path).or (card.lookup (repairPath path))).getD []

/-- The sequences that stand on a card. -/
def standingSequences (j : JsonLibrary) (card : Card) : Set ℕ :=
  {n | ∃ path, isRecordFile path = true ∧ n ∈ lineSequences j (standing card path)}

/-- **No two lines that stand have the same sequence.** -/
structure Distinct (j : JsonLibrary) (card : Card) : Prop where
  within : ∀ path, isRecordFile path = true → (lineSequences j (standing card path)).Nodup
  across : ∀ path path' n, isRecordFile path = true → isRecordFile path' = true →
    n ∈ lineSequences j (standing card path) → n ∈ lineSequences j (standing card path') → path = path'

theorem standing_of_present {content : Bytes} (h : card.lookup path = some content) :
    standing card path = content := by simp [standing, h]

theorem standing_congr (h : card'.lookup path = card.lookup path)
    (h' : card'.lookup (repairPath path) = card.lookup (repairPath path)) :
    standing card' path = standing card path := by simp [standing, h, h']

/-- The envelopes of the files are among those that stand. -/
theorem nodup_of_distinct (h : Distinct j card) : (envelopeSequences j card).Nodup := by
  have hstanding : ∀ path ∈ recordFiles card, (card.lookup path).getD [] = standing card path := by
    intro path hpath
    obtain ⟨⟨content, hfile⟩, -⟩ := mem_recordFiles.mp hpath
    rw [standing_of_present hfile, hfile, Option.getD_some]
  unfold envelopeSequences
  rw [List.nodup_flatMap]
  constructor
  · intro path hpath
    rw [hstanding path hpath]
    exact h.within path (Recovery.isRecordFile_of_mem hpath)
  · refine (Recovery.nodup_recordFiles card).imp_of_mem fun hpath hpath' hne n hn hn' => ?_
    simp only [hstanding _ hpath] at hn
    simp only [hstanding _ hpath'] at hn'
    exact hne (h.across _ _ n (Recovery.isRecordFile_of_mem hpath) (Recovery.isRecordFile_of_mem hpath') hn hn')

/-! ### Cutting off -/

/-- What stands is a first part of what stood. -/
def Shrinks (card card' : Card) : Prop :=
  ∀ path, isRecordFile path = true → standing card' path <+: standing card path

theorem Shrinks.refl (card : Card) : Shrinks card card := fun _ _ => List.prefix_rfl

theorem Shrinks.trans {card'' : Card} (h : Shrinks card card') (h' : Shrinks card' card'') :
    Shrinks card card'' := fun path hpath => (h' path hpath).trans (h path hpath)

theorem Shrinks.of_eq (h : ∀ path, isRecordFile path = true → standing card' path = standing card path) :
    Shrinks card card' := fun path hpath => (h path hpath) ▸ List.prefix_rfl

theorem Shrinks.subset (h : Shrinks card card') : standingSequences j card' ⊆ standingSequences j card := by
  rintro n ⟨path, hpath, hn⟩
  exact ⟨path, hpath, (lineSequences_sublist (h path hpath)).subset hn⟩

/-- **Cutting off keeps the sequences apart.** -/
theorem Distinct.shrinks (hd : Distinct j card) (h : Shrinks card card') : Distinct j card' where
  within path hpath := (hd.within path hpath).sublist (lineSequences_sublist (h path hpath))
  across path path' n hpath hpath' hn hn' := hd.across path path' n hpath hpath'
    ((lineSequences_sublist (h path hpath)).subset hn) ((lineSequences_sublist (h path' hpath')).subset hn')

/-! ### Adding a line -/

theorem repairPath_injective {path path' : Bytes} (h : repairPath path = repairPath path') : path = path' :=
  List.append_cancel_right h

/-- A file is written; the copies are as they were. -/
theorem standing_insert {content : Bytes} (hpath : isRecordFile path = true) (other : Bytes) :
    standing (card.insert path content) other = if other = path then content else standing card other := by
  split
  · next heq =>
    subst heq
    exact standing_of_present (AList.lookup_insert _)
  · next hne =>
    exact standing_congr (AList.lookup_insert_ne hne)
      (AList.lookup_insert_ne (repair_ne_record hpath).symm)

/-- **A file with a new sequence at its end keeps the sequences apart**; what stood for the file, if it was
missing, is gone. -/
theorem Distinct.insert (hd : Distinct j card) (hpath : isRecordFile path = true) {before content : Bytes}
    {new : List ℕ} (hbefore : before <+: standing card path)
    (hcontent : lineSequences j content = lineSequences j before ++ new) (hnew : new.Nodup)
    (hfresh : ∀ n ∈ new, n ∉ standingSequences j card) : Distinct j (card.insert path content) := by
  have hsub := lineSequences_sublist (j := j) hbefore
  have hold : ∀ n, n ∈ lineSequences j before → n ∈ standingSequences j card :=
    fun n hn => ⟨path, hpath, hsub.subset hn⟩
  constructor
  · intro other hother
    rw [standing_insert hpath]
    split
    · rw [hcontent, List.nodup_append]
      refine ⟨(hd.within path hpath).sublist hsub, hnew, fun a ha b hb heq => ?_⟩
      subst heq
      exact hfresh a hb (hold a ha)
    · exact hd.within other hother
  · intro p p' n hp hp' hn hn'
    rw [standing_insert hpath] at hn
    rw [standing_insert hpath] at hn'
    -- a sequence of the written file that also stands elsewhere is not new
    have hwritten : ∀ q, isRecordFile q = true → n ∈ lineSequences j content →
        n ∈ lineSequences j (standing card q) → q = path := by
      intro q hq hin hout
      rw [hcontent, List.mem_append] at hin
      rcases hin with hin | hin
      · exact hd.across q path n hq hpath hout (hsub.subset hin)
      · exact absurd ⟨q, hq, hout⟩ (hfresh n hin)
    split at hn
    · next h =>
      split at hn'
      · next h' => rw [h, h']
      · rw [h, ← hwritten p' hp' hn hn']
    · split at hn'
      · next h' => rw [h', hwritten p hp hn' hn]
      · exact hd.across p p' n hp hp' hn hn'

/-- The sequences that stand after a file is written. -/
theorem standingSequences_insert (hpath : isRecordFile path = true) {before content : Bytes}
    {new : List ℕ} (hbefore : before <+: standing card path)
    (hcontent : lineSequences j content = lineSequences j before ++ new) {n : ℕ}
    (hn : n ∈ standingSequences j (card.insert path content)) : n ∈ standingSequences j card ∨ n ∈ new := by
  obtain ⟨other, hother, hn⟩ := hn
  rw [standing_insert hpath] at hn
  split at hn
  · rw [hcontent, List.mem_append] at hn
    rcases hn with hn | hn
    · exact Or.inl ⟨path, hpath, (lineSequences_sublist hbefore).subset hn⟩
    · exact Or.inr hn
  · exact Or.inl ⟨other, hother, hn⟩

/-! ### Other files -/

/-- Files that are neither readings nor copies of them. -/
theorem standing_sameExcept {paths : List Bytes} (h : SameExcept paths card card')
    (hpaths : ∀ path, isRecordFile path = true → path ∉ paths ∧ repairPath path ∉ paths) (path : Bytes)
    (hpath : isRecordFile path = true) : standing card' path = standing card path :=
  standing_congr (h _ (hpaths path hpath).1) (h _ (hpaths path hpath).2)

theorem repair_notMem_journalPaths (path : Bytes) : repairPath path ∉ journalPaths :=
  notMem_journalPaths (repair_suffix path) (by decide) (by decide) (by decide)
    (by decide)

theorem standing_journals (h : SameExcept journalPaths card card') (path : Bytes)
    (hpath : isRecordFile path = true) : standing card' path = standing card path :=
  standing_sameExcept h (fun path hpath => ⟨record_notMem_journalPaths hpath, repair_notMem_journalPaths path⟩)
    path hpath

/-- The copy of a file that is there does not stand for it. -/
theorem standing_repair {content : Bytes} (hpath : isRecordFile path = true)
    (hfile : card.lookup path = some content) (h : SameExcept [repairPath path] card card') (other : Bytes)
    (hother : isRecordFile other = true) : standing card' other = standing card other := by
  have hsame : card'.lookup other = card.lookup other :=
    h other (by simpa using repair_ne_record hother)
  by_cases heq : other = path
  · subst heq
    rw [standing_of_present hfile, standing_of_present (hsame.trans hfile)]
  · exact standing_congr hsame (h _ (by simpa using fun h' => heq (repairPath_injective h')))

end PowerMonitor.Storage.Standing
