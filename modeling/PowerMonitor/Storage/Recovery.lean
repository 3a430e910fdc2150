import PowerMonitor.Storage.Frames
import PowerMonitor.Storage.Intact

/-! # What a recovery counts

A recovery reads the lines of a file up to the first that does not decode, and cuts off what follows
the last complete line (`recoverLines_cases`). When nothing fails, every record of a segment that is
intact afterwards is counted (`recover_counts`). -/

namespace PowerMonitor.Storage.Recovery

open PowerMonitor.Lib.Binary PowerMonitor.Lib.Lines PowerMonitor.Lib.Json PowerMonitor.Lib.Program
open PowerMonitor.Lib.Walk
open PowerMonitor.Storage.Reading PowerMonitor.Storage.Media PowerMonitor.Storage.Segment
open PowerMonitor.Storage.ReadPage PowerMonitor.Storage.PageSpec PowerMonitor.Storage.SdStorage
open PowerMonitor.Storage.Frames PowerMonitor.Storage.Intact

variable {j : JsonLibrary}

/-! ### Counting -/

theorem addRecord_foldl_max (es : List Entry) (t : Tally) :
    t.maximumSequence ≤ (es.foldl Tally.addRecord t).maximumSequence ∧
      ∀ e ∈ es, e.sequence ≤ (es.foldl Tally.addRecord t).maximumSequence := by
  induction es generalizing t with
  | nil => simp
  | cons e es ih =>
    obtain ⟨h1, h2⟩ := ih (t.addRecord e)
    have h3 : max t.maximumSequence e.sequence ≤
        (es.foldl Tally.addRecord (t.addRecord e)).maximumSequence := h1
    rw [List.foldl_cons]
    refine ⟨by omega, fun x hx => ?_⟩
    rcases List.mem_cons.mp hx with rfl | hx
    · omega
    · exact h2 x hx

/-- The entries of the lines, one a line. -/
def Decodes (j : JsonLibrary) (ls : List Bytes) (es : List Entry) : Prop :=
  List.Forall₂ (fun line e => decodeLine j .readings line = .ok e) ls es

/-- **Where the reading of a file ends**: the first `k` lines decode and are counted. -/
theorem recoverLines_cases (rest : Bytes) : ∀ (ls : List Bytes) (validEnd : ℕ) (t : Tally),
    ∃ k es, Decodes j (ls.take k) es ∧
      (recoverLines j rest ls validEnd t).1 = es.foldl Tally.addRecord t ∧
      match (recoverLines j rest ls validEnd t).2 with
      | .complete => ls.take k = ls ∧ rest = []
      | .corrupt => ∃ line ∈ ls, ∃ error, decodeLine j .readings line = .error error
      | .torn stop => stop = validEnd + (ls.take k).flatten.length ∧
          (rest ≠ [] ∨ ∃ line ∈ ls, 8193 < line.length) := by
  intro ls
  induction ls with
  | nil =>
    intro validEnd t
    refine ⟨0, [], List.Forall₂.nil, rfl, ?_⟩
    simp only [recoverLines]
    by_cases hrest : rest = []
    · rw [if_pos hrest]; exact ⟨rfl, hrest⟩
    · rw [if_neg hrest]; exact ⟨rfl, Or.inl hrest⟩
  | cons line ls ih =>
    intro validEnd t
    unfold recoverLines
    by_cases hlong : 8193 < line.length
    · rw [if_pos hlong]
      exact ⟨0, [], List.Forall₂.nil, rfl, rfl, Or.inr ⟨line, by simp, hlong⟩⟩
    · rw [if_neg hlong]
      cases hdecode : decodeLine j .readings line with
      | error error => exact ⟨0, [], List.Forall₂.nil, rfl, line, by simp, error, hdecode⟩
      | ok e =>
        obtain ⟨k, es, hes, ht, hend⟩ := ih (validEnd + line.length) (t.addRecord e)
        refine ⟨k + 1, e :: es, List.Forall₂.cons hdecode hes, ht, ?_⟩
        simp only
        generalize (recoverLines j rest ls (validEnd + line.length) (t.addRecord e)).2 = ending at hend ⊢
        cases ending with
        | complete => exact ⟨by rw [List.take_succ_cons, hend.1], hend.2⟩
        | corrupt =>
          obtain ⟨bad, hbad, herror⟩ := hend
          exact ⟨bad, by simp [hbad], herror⟩
        | torn stop =>
          refine ⟨by rw [hend.1, List.take_succ_cons]; simp; omega, hend.2.imp_right ?_⟩
          rintro ⟨long, hlong', hlen⟩
          exact ⟨long, by simp [hlong'], hlen⟩

/-- A file whose lines all decode is counted as a whole. -/
theorem recoverLines_intact {content : Bytes} {es : List Entry}
    (h : contentEntries j .readings content = some es) (t : Tally) :
    recoverLines j (unterminated content) (lines content) 0 t = (es.foldl Tally.addRecord t, .complete) := by
  unfold contentEntries at h
  split_ifs at h with hrest
  rw [hrest]
  generalize lines content = ls at h
  generalize (0 : ℕ) = validEnd
  induction ls generalizing es validEnd t with
  | nil => cases h; rfl
  | cons line ls ih =>
    obtain ⟨e, rest, rfl, hlen, hdecode, hgather⟩ := gather_lines_cons h
    unfold recoverLines
    rw [if_neg (by simp only [maximumLine] at hlen; omega), hdecode]
    exact ih (t.addRecord e) hgather (validEnd + line.length)

theorem Decodes.mem_of_gather {ls : List Bytes} {es seen : List Entry} (h : Decodes j ls es)
    (hseen : gather (lineEntries j .readings) ls = some seen) : seen = es := by
  induction h generalizing seen with
  | nil => cases hseen; rfl
  | cons hdecode _ ih =>
    obtain ⟨e, rest, rfl, -, he, hrest⟩ := gather_lines_cons hseen
    rw [hdecode] at he
    cases he
    rw [ih hrest]

/-- The first lines of a file are the lines of its first bytes. -/
theorem lines_take (content : Bytes) (k : ℕ) :
    lines (content.take ((lines content).take k).flatten.length) = (lines content).take k ∧
      unterminated (content.take ((lines content).take k).flatten.length) = [] := by
  have hsplit : content = ((lines content).take k).flatten ++
      (((lines content).drop k).flatten ++ unterminated content) := by
    rw [← List.append_assoc, ← List.flatten_append, List.take_append_drop, flatten_lines]
  have htake : content.take ((lines content).take k).flatten.length = ((lines content).take k).flatten := by
    conv_lhs => arg 2; rw [hsplit]
    exact List.take_left
  obtain ⟨h1, h2⟩ := lines_flatten ((lines content).take k)
    (fun l hl => mem_lines (List.mem_of_mem_take hl)) []
  rw [List.append_nil, lines_nil, List.append_nil] at h1
  rw [List.append_nil, unterminated_nil] at h2
  rw [htake]
  exact ⟨h1, h2⟩

theorem flatten_take_le (content : Bytes) (k : ℕ) :
    ((lines content).take k).flatten.length ≤ content.length := by
  have hlength := congrArg List.length (flatten_lines content)
  have hsplit := congrArg (fun l => l.flatten.length) (List.take_append_drop k (lines content))
  simp only [List.flatten_append, List.length_append] at hlength hsplit
  omega

/-! ### A file -/

variable {card : Card} {path content : Bytes}

/-- A repair keeps the first bytes of a file, and no copy of them. -/
theorem calm_repairFile (hfile : card.lookup path = some content) {validEnd : ℕ}
    (hend : validEnd ≤ content.length) :
    wp device Calm (fun _ => True) (repairFile path validEnd)
      (fun _ card' => card'.lookup path = some (content.take validEnd) ∧ card'.lookup (repairPath path) = none)
      card := by
  have hne := repair_ne_self path
  have hlength : (content.take validEnd).length = validEnd := by simp [hend]
  unfold repairFile
  refine wp_bind'.mpr (calm_removeFile trivial (wp_bind'.mpr (calm_readFile trivial ?_)))
  have hfile' : (card.erase (repairPath path)).lookup path = some content := by
    rw [AList.lookup_erase_ne hne.symm, hfile]
  rw [hfile']
  simp only [Option.getD_some]
  refine wp_bind'.mpr (calm_writeFile trivial ?_)
  rw [wp_ite, if_neg (by simp [hlength])]
  refine wp_bind'.mpr (calm_removeFile trivial ?_)
  have hpresent : (((card.erase (repairPath path)).insert (repairPath path)
      (content.take validEnd)).lookup path).isSome = true := by
    rw [AList.lookup_insert_ne hne.symm, hfile']; rfl
  rw [hpresent, wp_ite, if_neg (by simp)]
  refine wp_bind'.mpr (calm_renameFile trivial ?_ (AList.lookup_erase ..) ⟨AList.lookup_insert _, ?_⟩)
  · rw [AList.lookup_erase_ne hne, AList.lookup_insert]
  · rw [AList.lookup_insert_ne hne, AList.lookup_erase]

/-- **Every record of a file that is intact after its recovery is counted.** -/
theorem calm_recoverFile (hfile : card.lookup path = some content) (t : Tally) :
    wp device Calm (fun _ => True) (recoverFile j path t)
      (fun t' card' => t.maximumSequence ≤ t'.maximumSequence ∧ ∀ content' es,
        card'.lookup path = some content' → contentEntries j .readings content' = some es →
        ∀ e ∈ es, e.sequence ≤ t'.maximumSequence) card := by
  unfold recoverFile
  refine wp_bind'.mpr (calm_readFile trivial ?_)
  rw [hfile]
  simp only
  obtain ⟨k, es, hdecodes, ht, hend⟩ := recoverLines_cases (j := j) (unterminated content) (lines content) 0 t
  generalize recoverLines j (unterminated content) (lines content) 0 t = result at ht hend
  obtain ⟨t', ending⟩ := result
  obtain ⟨hmono, hcounted⟩ := addRecord_foldl_max es t
  simp only at ht hend ⊢
  rw [← ht] at hmono hcounted
  -- the entries of the lines that were read
  have hread : ∀ content' es', lines content' = (lines content).take k →
      contentEntries j .readings content' = some es' → ∀ e ∈ es', e.sequence ≤ t'.maximumSequence := by
    intro content' es' hlines hentries e he
    unfold contentEntries at hentries
    split_ifs at hentries
    rw [hlines] at hentries
    rw [hdecodes.mem_of_gather hentries] at he
    exact hcounted e he
  cases ending with
  | complete =>
    refine (wp_pure ..).mpr ⟨hmono, fun content' es' h hentries => ?_⟩
    rw [hfile] at h
    cases h
    exact hread content es' hend.1.symm hentries
  | corrupt =>
    refine (wp_pure ..).mpr ⟨hmono, fun content' es' h hentries => ?_⟩
    rw [hfile] at h
    cases h
    obtain ⟨line, hline, error, herror⟩ := hend
    unfold contentEntries at hentries
    split_ifs at hentries
    have := gather_isSome.mp (by rw [hentries]; rfl) line hline
    simp [lineEntries, herror, Except.toOption] at this
  | torn stop =>
    obtain ⟨rfl, -⟩ := hend
    rw [Nat.zero_add]
    refine wp_bind'.mpr (wp_post (calm_repairFile hfile (flatten_take_le content k)) fun _ card' h => ?_)
    refine (wp_pure ..).mpr ⟨hmono, fun content' es' h' hentries => ?_⟩
    rw [h.1] at h'
    cases h'
    exact hread _ es' (lines_take content k).1 hentries

theorem calm_recoverFile_missing (hfile : card.lookup path = none) (t : Tally) :
    wp device Calm (fun _ => True) (recoverFile j path t) (fun t' card' => t' = t ∧ card' = card) card := by
  unfold recoverFile
  refine wp_bind'.mpr (calm_readFile trivial ?_)
  rw [hfile]
  exact (wp_pure ..).mpr ⟨rfl, rfl⟩

/-! ### A segment -/

/-- The records of the segment, if it is intact and its sidecar truthful, are counted. -/
def Counted (j : JsonLibrary) (card : Card) (path : Bytes) (t : Tally) : Prop :=
  ∀ content es, card.lookup path = some content → contentEntries j .readings content = some es →
    TruthfulSidecar j card path es → ∀ e ∈ es, e.sequence ≤ t.maximumSequence

theorem Counted.mono {t t' : Tally} (h : Counted j card path t)
    (hle : t.maximumSequence ≤ t'.maximumSequence) : Counted j card path t' :=
  fun content es hfile hentries htrue e he => (h content es hfile hentries htrue e he).trans hle

theorem calm_recoverSegment (t : Tally) (path : Bytes) :
    wp device Calm (fun _ => True) (recoverSegment j t path)
      (fun t' card' => t.maximumSequence ≤ t'.maximumSequence ∧ Counted j card' path t') card := by
  unfold recoverSegment
  refine wp_bind'.mpr (calm_readFile trivial (wp_bind'.mpr (calm_readFile trivial
    (wp_bind'.mpr (calm_readFile trivial ?_)))))
  have hrecover : wp device Calm (fun _ => True) (recoverFile j path t)
      (fun t' card' => t.maximumSequence ≤ t'.maximumSequence ∧ Counted j card' path t') card := by
    cases hfile : card.lookup path with
    | none =>
      refine wp_post (calm_recoverFile_missing hfile t) ?_
      rintro t' card' ⟨rfl, rfl⟩
      exact ⟨Nat.le_refl _, fun content es h => by rw [hfile] at h; cases h⟩
    | some content =>
      refine wp_post (calm_recoverFile hfile t) ?_
      rintro t' card' ⟨h1, h2⟩
      exact ⟨h1, fun content' es h hentries _ => h2 content' es h hentries⟩
  have hload : acceptMetadata j .readings path (card.lookup (metadataPath path))
      ((card.lookup path).map List.length) ((card.lookup (pairedIndexPath path)).map List.length) =
      loadSegmentMetadata j card {} .readings path := rfl
  cases hmeta : loadSegmentMetadata j card {} .readings path with
  | none => rw [hload, hmeta]; exact hrecover
  | some metadata =>
    rw [hload, hmeta]
    simp only
    rw [wp_ite]
    split_ifs
    · refine (wp_pure ..).mpr ⟨Nat.le_max_left .., fun content es _ _ htrue e he => ?_⟩
      exact (htrue metadata hmeta e he).2.trans (Nat.le_max_right ..)
    · exact hrecover

/-! ### The card -/

/-- What is read of a segment: its file, its sidecar and its index. -/
def SameSegment (path : Bytes) (card card' : Card) : Prop :=
  card'.lookup path = card.lookup path ∧ card'.lookup (metadataPath path) = card.lookup (metadataPath path) ∧
    card'.lookup (pairedIndexPath path) = card.lookup (pairedIndexPath path)

theorem SameSegment.loadSegmentMetadata_eq {card' : Card} (h : SameSegment path card card') :
    loadSegmentMetadata j card' {} .readings path = loadSegmentMetadata j card {} .readings path := by
  simp only [loadSegmentMetadata, openFile, h.1, h.2.1, h.2.2]

theorem Counted.congr {card' : Card} {t : Tally} (hsame : SameSegment path card card')
    (h : Counted j card path t) : Counted j card' path t := by
  intro content es hfile hentries htrue
  refine h content es (by rw [← hsame.1, hfile]) hentries fun metadata hmeta => ?_
  exact htrue metadata (by rw [hsame.loadSegmentMetadata_eq, hmeta])

/-- The files a recovery of some segments may change. -/
def repaired (paths : List Bytes) : List Bytes := paths ++ paths.map repairPath

theorem sameSegment_of_repaired {card' : Card} {paths : List Bytes} (hpath : isRecordFile path = true)
    (hpaths : ∀ p ∈ paths, isRecordFile p = true) (hnot : path ∉ paths)
    (hsame : SameExcept (repaired paths) card card') : SameSegment path card card' := by
  have hnotMem : ∀ p, (∀ other ∈ paths, p ≠ other ∧ p ≠ repairPath other) → p ∉ repaired paths := by
    intro p hp hmem
    rcases List.mem_append.mp hmem with h | h
    · exact (hp p h).1 rfl
    · obtain ⟨other, hother, rfl⟩ := List.mem_map.mp h
      exact (hp other hother).2 rfl
  refine ⟨hsame _ (hnotMem _ fun other hother => ⟨?_, repair_ne_record hpath⟩),
    hsame _ (hnotMem _ fun other hother => metadata_ne (hpaths other hother)),
    hsame _ (hnotMem _ fun other hother => index_ne (hpaths other hother))⟩
  rintro rfl
  exact hnot hother

/-- **A recovery of segments counts the records of each.** -/
theorem calm_recoverSegments : ∀ (paths : List Bytes) (t : Tally) (card : Card),
    (∀ p ∈ paths, isRecordFile p = true) → paths.Nodup →
    wp device Calm (fun _ => True) (recoverSegments j paths t)
      (fun t' card' => t.maximumSequence ≤ t'.maximumSequence ∧
        (∀ p ∈ paths, Counted j card' p t') ∧ SameExcept (repaired paths) card card') card := by
  intro paths
  induction paths with
  | nil =>
    intro t card _ _
    exact (wp_pure ..).mpr ⟨Nat.le_refl _, by simp, SameExcept.refl _ _⟩
  | cons path paths ih =>
    intro t card hrec hnodup
    rw [List.nodup_cons] at hnodup
    rw [List.forall_mem_cons] at hrec
    unfold recoverSegments
    refine wp_bind'.mpr (wp_mono (fun _ _ => trivial) ?_ (wp_and (calm_recoverSegment t path)
      (wp_sameExcept (all_recoverSegment (j := j) t path) card)))
    rintro t1 card1 ⟨⟨hle, hcounted⟩, hsame⟩
    refine wp_post (ih t1 card1 hrec.2 hnodup.2) ?_
    rintro t' card' ⟨hle', hrest, hsame'⟩
    have hsegment := sameSegment_of_repaired hrec.1 hrec.2 hnodup.1 hsame'
    refine ⟨hle.trans hle', ?_, (hsame.mono ?_).trans (hsame'.mono ?_)⟩
    · rw [List.forall_mem_cons]
      exact ⟨(hcounted.mono hle').congr hsegment, hrest⟩
    · intro p hp
      simp only [List.mem_cons, List.not_mem_nil, or_false] at hp
      rcases hp with rfl | rfl <;> simp [repaired]
    · intro p hp
      rcases List.mem_append.mp hp with h | h
      · simp [repaired, h]
      · obtain ⟨other, hother, rfl⟩ := List.mem_map.mp h
        refine List.mem_append_right _ (List.mem_map.mpr ⟨other, by simp [hother], rfl⟩)

theorem nodup_recordFiles (card : Card) : (recordFiles card).Nodup := by
  unfold recordFiles
  rw [(List.perm_insertionSort _ _).nodup_iff]
  exact (AList.keys_nodup card).filter _

theorem isRecordFile_of_mem {p : Bytes} (h : p ∈ recordFiles card) : isRecordFile p = true :=
  (mem_recordFiles.mp h).2

/-- Whatever the journals do, a successful recovery reports the largest sequence it counted. -/
theorem recoverFloor_newest {A : Op → Event → Card → Prop} (t : Tally) (ram : Ram) :
    wp device A (fun _ => True) (recoverFloor t ram)
      (fun result card' => SameExcept journalPaths card card' ∧
        result.1.health.oldestSequence = ram.health.oldestSequence ∧
        (result.2 = true → result.1.health.newestSequence = t.maximumSequence)) card := by
  have hload : ∀ {path : Bytes} {Q : Option ℕ → Card → Prop} {s : Card}, (∀ v, Q v s) →
      wp device A (fun _ => True) (loadSequenceJournal path) Q s := by
    intro path Q s h
    exact wp_bind'.mpr ((wp_op _ _ _).mpr ⟨trivial, fun e _ => (wp_pure ..).mpr (h _)⟩)
  unfold recoverFloor
  refine wp_bind'.mpr (hload fun journal => wp_bind'.mpr (hload fun temporary => wp_bind'.mpr
    (hload fun backup => wp_bind'.mpr ?_)))
  refine wp_mono (fun _ _ => trivial) ?_ (wp_sameExcept (all_runIf (all_persistSequence _)) card)
  intro persisted card' hsame
  rw [wp_ite]
  split_ifs
  · exact (wp_pure ..).mpr ⟨hsame, rfl, by simp⟩
  · simp only
    rw [wp_ite]
    split_ifs
    · exact (wp_pure ..).mpr ⟨hsame, rfl, by simp⟩
    · exact (wp_pure ..).mpr ⟨hsame, rfl, fun _ => rfl⟩

theorem sameSegment_of_journals {card' : Card} (hpath : isRecordFile path = true)
    (hsame : SameExcept journalPaths card card') : SameSegment path card card' :=
  ⟨hsame _ (record_notMem_journalPaths hpath), hsame _ (metadata_notMem_journalPaths path),
    hsame _ (index_notMem_journalPaths path)⟩

/-- **A successful recovery counts the records of every segment that is then intact.** -/
theorem recover_counts (ram : Ram) :
    wp device Calm (fun _ => True) (recover j ram)
      (fun result card' => result.2 = true → ∀ path content es, isRecordFile path = true →
        card'.lookup path = some content → contentEntries j .readings content = some es →
        TruthfulSidecar j card' path es → ∀ e ∈ es, e.sequence ≤ result.1.health.newestSequence) card := by
  unfold recover
  refine wp_bind'.mpr (calm_listFiles trivial (wp_bind'.mpr ?_))
  refine wp_post (calm_recoverSegments (recordFiles card) {} card
    (fun p hp => isRecordFile_of_mem hp) (nodup_recordFiles card)) ?_
  rintro t card1 ⟨-, hcounted, hsame⟩
  refine wp_post (recoverFloor_newest t _) ?_
  rintro ⟨ram', ok⟩ card' ⟨hjournals, -, hnewest⟩ hok path content es hpath hfile hentries htrue
  have hsegment := sameSegment_of_journals hpath hjournals
  -- a file that is there was there before
  have hmem : path ∈ recordFiles card := by
    by_contra hnot
    have hbefore := (sameSegment_of_repaired hpath (fun p hp => isRecordFile_of_mem hp) hnot hsame).1
    rw [hsegment.1, hbefore] at hfile
    exact hnot (mem_recordFiles.mpr ⟨⟨content, hfile⟩, hpath⟩)
  rw [hnewest hok]
  exact (hcounted path hmem).congr hsegment content es hfile hentries htrue

end PowerMonitor.Storage.Recovery
