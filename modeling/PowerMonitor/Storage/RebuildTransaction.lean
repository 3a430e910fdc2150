import PowerMonitor.Lib.JsonSize
import PowerMonitor.Storage.CanonicalIndex

/-! # A rebuild is a transaction

A rebuild of the indexes may be interrupted, by a loss of power or by operations that fail, any number of times. The files
of records stay as they are, and the next rebuild in which nothing fails leaves the index of each indexable file, and of
any other file the index that was in force at first.

* `all_rebuildIndex`: which files a rebuild of one index may change, and none of another segment (`notMem_touched`).
* `wp_rebuildAll`: what a rebuild of one index does to its own segment, a rebuild of all does to it.
* `kept_rebuildIndex`: a file that is not indexable keeps its index, whatever fails.
* `calm_rebuildIndex`: what is left when nothing fails. -/

namespace PowerMonitor.Storage.RebuildTransaction

open PowerMonitor.Lib.Binary PowerMonitor.Lib.Lines PowerMonitor.Lib.Json PowerMonitor.Lib.Program PowerMonitor.Lib.Steady
open PowerMonitor.Storage.RecordFormat PowerMonitor.Storage.Reading PowerMonitor.Storage.Media
open PowerMonitor.Storage.Segment PowerMonitor.Storage.SdStorage PowerMonitor.Storage.Frames
open PowerMonitor.Storage.Layout PowerMonitor.Storage.Inspection PowerMonitor.Storage.CalmOperations
open PowerMonitor.Storage.RebuildIndexes PowerMonitor.Storage.CanonicalIndex
open PowerMonitor.Storage.Intact (recordEnvelope_line)

variable {j : JsonLibrary} {x y path other content index : Bytes} {s s' : Card}

/-! ### The files of a rebuild -/

/-- What the names of a segment's index, of its replacement and of its backup add to the index. -/
def indexTails : List Bytes := [[], ascii ".rebuild", ascii ".previous"]

/-- An index, its replacement and its backup. -/
def indexFiles (index : Bytes) : List Bytes := indexTails.map (index ++ ·)

def sidecarFiles (path : Bytes) : List Bytes := [metadataPath path, metadataPath path ++ ascii ".tmp"]

/-- What a rebuild of one index may change. -/
def touched (path : Bytes) : List Bytes := indexFiles (pairedIndexPath path) ++ sidecarFiles path

/-- The last bytes of a name. -/
def ending (path : Bytes) : Bytes := path.reverse.take 4

theorem ending_of_suffix {suffix : Bytes} (h : suffix <:+ path) (hlength : 4 ≤ suffix.length) : ending path = ending suffix := by
  obtain ⟨t, rfl⟩ := h
  rw [ending, List.reverse_append, List.take_append_of_le_length (by simpa using hlength)]
  rfl

theorem ending_index (x tail : Bytes) : ending (indexStem x ++ tail) = ending (ascii ".idx" ++ tail) := by
  have hsuffix : ascii ".idx" ++ tail <:+ indexStem x ++ tail := ⟨ascii "/POWERMON/indexes/" ++ x, by simp [indexStem]⟩
  refine ending_of_suffix hsuffix ?_
  rw [List.length_append]
  exact (show 4 ≤ (ascii ".idx").length by decide).trans (Nat.le_add_right _ _)

theorem ending_sidecar (h : other ∈ sidecarFiles path) : ending other = ending (ascii ".json") ∨ ending other = ending (ascii ".tmp") := by
  simp only [sidecarFiles, List.mem_cons, List.not_mem_nil, or_false] at h
  rcases h with rfl | rfl
  · exact Or.inl (ending_of_suffix (metadata_suffix path) (by decide))
  · exact Or.inr (ending_of_suffix (List.suffix_append _ _) (by decide))

theorem mem_indexFiles : other ∈ indexFiles index ↔ ∃ tail ∈ indexTails, other = index ++ tail := by
  simp only [indexFiles, List.mem_map, eq_comm]

theorem own_indexFiles (index : Bytes) :
    index ∈ indexFiles index ∧ stagedPath index ∈ indexFiles index ∧ backupPath index ∈ indexFiles index :=
  ⟨mem_indexFiles.mpr ⟨[], by simp [indexTails], by simp⟩,
    mem_indexFiles.mpr ⟨ascii ".rebuild", by simp [indexTails], rfl⟩,
    mem_indexFiles.mpr ⟨ascii ".previous", by simp [indexTails], rfl⟩⟩

/-- **The index files of two segments are different files.** -/
theorem index_injective {tail tail' : Bytes} (htail : tail ∈ indexTails) (htail' : tail' ∈ indexTails)
    (h : indexStem x ++ tail = indexStem y ++ tail') : x = y ∧ tail = tail' := by
  have hending : ∀ t ∈ indexTails, ∀ t' ∈ indexTails, ending (ascii ".idx" ++ t) = ending (ascii ".idx" ++ t') → t = t' := by
    decide
  have hsame : tail = tail' := hending tail htail tail' htail' (by rw [← ending_index x, ← ending_index y, h])
  subst hsame
  exact ⟨indexStem_injective (List.append_cancel_right h), rfl⟩

/-- A sidecar is no index. -/
theorem index_notMem_sidecarFiles {tail : Bytes} (htail : tail ∈ indexTails) (x path : Bytes) :
    indexStem x ++ tail ∉ sidecarFiles path := by
  have hending : ∀ t ∈ indexTails, ending (ascii ".idx" ++ t) ≠ ending (ascii ".json") ∧
      ending (ascii ".idx" ++ t) ≠ ending (ascii ".tmp") := by
    decide
  intro h
  rcases ending_sidecar h with heq | heq
  · exact (hending tail htail).1 ((ending_index x tail).symm.trans heq)
  · exact (hending tail htail).2 ((ending_index x tail).symm.trans heq)

/-- No file of records is changed. -/
theorem record_notMem_touched (hpath : isRecordFile path = true) (hother : isRecordFile other = true) :
    other ∉ touched path := by
  obtain ⟨x, rfl⟩ := exists_recordStem hpath
  have hrecord : ending other = ending (ascii ".pmr") := ending_of_suffix (pmr_suffix hother) (by decide)
  have hending : ∀ t ∈ indexTails, ending (ascii ".idx" ++ t) ≠ ending (ascii ".pmr") := by decide
  intro h
  rcases List.mem_append.mp h with h | h
  · obtain ⟨tail, htail, rfl⟩ := mem_indexFiles.mp h
    rw [pairedIndexPath_recordStem, ending_index] at hrecord
    exact hending tail htail hrecord
  · rcases ending_sidecar h with heq | heq
    · exact absurd (heq.symm.trans hrecord) (by decide)
    · exact absurd (heq.symm.trans hrecord) (by decide)

/-- **No index file of another segment is changed.** -/
theorem index_notMem_touched (hpath : isRecordFile path = true) (hother : isRecordFile other = true) (hne : path ≠ other) :
    ∀ file ∈ indexFiles (pairedIndexPath other), file ∉ touched path := by
  obtain ⟨x, rfl⟩ := exists_recordStem hpath
  obtain ⟨y, rfl⟩ := exists_recordStem hother
  intro file hfile h
  obtain ⟨tail, htail, rfl⟩ := mem_indexFiles.mp hfile
  rw [pairedIndexPath_recordStem] at h
  rcases List.mem_append.mp h with h | h
  · obtain ⟨tail', htail', heq⟩ := mem_indexFiles.mp h
    rw [pairedIndexPath_recordStem] at heq
    exact hne (congrArg recordStem (index_injective htail htail' heq).1.symm)
  · exact index_notMem_sidecarFiles htail y _ h

/-! ### What may be called -/

theorem all_stageRows {staged rest : Bytes} (ls : List Bytes) : ∀ rows,
    (stageRows j staged rest ls rows).All (Op.Within [staged]) := by
  induction ls with
  | nil => exact fun rows => trivial
  | cons line ls ih =>
    intro rows
    unfold stageRows
    split
    · trivial
    · refine all_ite trivial (.bind ?_ fun written => all_ite trivial (ih _))
      unfold appendIndex
      exact .bind ((Prog.all_op _).mpr trivial) fun _ => all_ite trivial
        (all_ite trivial (.bind ((Prog.all_op _).mpr (List.mem_singleton_self _)) fun _ => trivial))

theorem all_stageIndex (path index : Bytes) : (stageIndex j path index).All (Op.Within [stagedPath index]) := by
  have hread (p : Bytes) : (readFile p).All (Op.Within [stagedPath index]) := (Prog.all_op _).mpr trivial
  unfold stageIndex
  refine .bind (hread _) fun input => ?_
  cases input with
  | none => trivial
  | some content =>
    refine .bind (all_stageRows _ _) fun rows => ?_
    cases rows with
    | none => trivial
    | some rows => exact all_ite trivial (.bind (hread _) fun _ => .bind (hread _) fun _ => trivial)

theorem all_persistSegmentMetadata (m : InspectedSegment) :
    (persistSegmentMetadata j m).All (Op.Within (sidecarFiles m.recordPath)) := by
  have htarget : metadataPath m.recordPath ∈ sidecarFiles m.recordPath := by simp [sidecarFiles]
  have htemporary : metadataPath m.recordPath ++ ascii ".tmp" ∈ sidecarFiles m.recordPath := by simp [sidecarFiles]
  have hremove : (removeFile (metadataPath m.recordPath ++ ascii ".tmp")).All (Op.Within (sidecarFiles m.recordPath)) :=
    (Prog.all_op _).mpr htemporary
  unfold persistSegmentMetadata
  refine .bind hremove fun _ => .bind ((Prog.all_op _).mpr htemporary) fun _ =>
    all_ite (.bind hremove fun _ => trivial) (.bind ((Prog.all_op _).mpr trivial) fun _ =>
      all_ite (.bind hremove fun _ => trivial) (.bind ((Prog.all_op _).mpr htarget) fun _ => ?_))
  exact (Prog.all_op _).mpr ⟨htemporary, htarget⟩

/-! ### The parts of a rebuild -/

/-- A backup is restored, and what an interrupted rebuild left is removed. -/
def prepareIndex (index : Bytes) : CardProg Bool := do
  let directory ← ensureDirectory (directoryOf index)
  let restored ← runIf directory (restorePrevious index) false
  let unstaged ← runIf restored (removeIfPresent (stagedPath index)) false
  runIf unstaged (removeIfPresent (backupPath index)) false

/-- The staged rows take the place of the index. -/
def installIndex (j : JsonLibrary) (path index : Bytes) (rows : Rows) : CardProg Bool := do
  let hadIndex ← fileExists index
  let swapped ← swapIndex index hadIndex
  if !swapped then return false else acceptIndex j path index hadIndex rows

/-- The new index is staged, and installed if it is right. -/
def replaceIndex (j : JsonLibrary) (path index : Bytes) : CardProg Bool := do
  let rows ← stageIndex j path index
  match rows with
  | none => do
    let _ ← removeFile (stagedPath index)
    return false
  | some rows => installIndex j path index rows

theorem rebuildIndex_eq (hpath : isRecordFile path = true) : rebuildIndex j path = (do
    let ready ← prepareIndex (pairedIndexPath path)
    if !ready then return false else replaceIndex j path (pairedIndexPath path)) := by
  have hne : pairedIndexPath path ≠ [] := by
    obtain ⟨x, rfl⟩ := exists_recordStem hpath
    rw [pairedIndexPath_recordStem, indexStem]
    exact fun h => absurd (List.append_eq_nil_iff.mp h).1 (by decide)
  unfold rebuildIndex prepareIndex
  simp only [if_neg hne, Prog.bind_eq, Prog.bind_assoc]
  rfl

variable {files : List Bytes}

theorem all_prepareIndex (hfiles : ∀ file ∈ indexFiles index, file ∈ files) :
    (prepareIndex index).All (Op.Within files) := by
  obtain ⟨hindex, hstaged, hbackup⟩ := own_indexFiles index
  have hclear {p : Bytes} (hp : p ∈ files) : (removeIfPresent p).All (Op.Within files) :=
    .bind ((Prog.all_op _).mpr trivial) fun _ => all_ite ((Prog.all_op _).mpr hp) trivial
  unfold prepareIndex restorePrevious
  refine .bind ((Prog.all_op _).mpr trivial) fun _ => .bind (all_runIf ?_) fun _ =>
    .bind (all_runIf (hclear (hfiles _ hstaged))) fun _ => all_runIf (hclear (hfiles _ hbackup))
  exact .bind ((Prog.all_op _).mpr trivial) fun _ => .bind (all_runIf ((Prog.all_op _).mpr trivial)) fun _ =>
    all_runIf ((Prog.all_op _).mpr ⟨hfiles _ hbackup, hfiles _ hindex⟩)

theorem all_swapIndex (index : Bytes) (hadIndex : Bool) : (swapIndex index hadIndex).All (Op.Within (indexFiles index)) := by
  obtain ⟨hindex, hstaged, hbackup⟩ := own_indexFiles index
  unfold swapIndex
  refine .bind (all_runIf ((Prog.all_op _).mpr ⟨hindex, hbackup⟩)) fun _ =>
    .bind (all_runIf ((Prog.all_op _).mpr ⟨hstaged, hindex⟩)) fun _ =>
      all_ite trivial (.bind ((Prog.all_op _).mpr hstaged) fun _ => .bind (all_runIf ((Prog.all_op _).mpr trivial)) fun _ => ?_)
  exact .bind (all_runIf ((Prog.all_op _).mpr ⟨hbackup, hindex⟩)) fun _ => trivial

/-- **A rebuild of one index changes only its files**: the index, its replacement, its backup and the sidecar. -/
theorem all_rebuildIndex (hpath : isRecordFile path = true) : (rebuildIndex j path).All (Op.Within (touched path)) := by
  have hfiles : ∀ file ∈ indexFiles (pairedIndexPath path), file ∈ touched path := fun file hfile =>
    List.mem_append_left _ hfile
  have hindex : pairedIndexPath path ∈ touched path := hfiles _ (own_indexFiles _).1
  have hstaged : stagedPath (pairedIndexPath path) ∈ touched path := hfiles _ (own_indexFiles _).2.1
  have hbackup : backupPath (pairedIndexPath path) ∈ touched path := hfiles _ (own_indexFiles _).2.2
  have hread (p : Bytes) : (readFile p).All (Op.Within (touched path)) := (Prog.all_op _).mpr trivial
  have hexists (p : Bytes) : (fileExists p).All (Op.Within (touched path)) := (Prog.all_op _).mpr trivial
  have hremove {p : Bytes} (hp : p ∈ touched path) : (removeFile p).All (Op.Within (touched path)) :=
    (Prog.all_op _).mpr hp
  have hsidecar (content rowsFile : Option Bytes) :
      (persistSegmentMetadata j (inspectSegment j path content rowsFile)).All (Op.Within (touched path)) := by
    refine (all_persistSegmentMetadata _).mono fun o ho => ?_
    rw [recordPath_inspectSegment] at ho
    exact Op.Within.mono (fun p hp => List.mem_append_right _ hp) ho
  rw [rebuildIndex_eq hpath]
  refine .bind (all_prepareIndex hfiles) fun _ => all_ite trivial (.bind ?_ fun rows => ?_)
  · refine (all_stageIndex _ _).mono fun o ho => Op.Within.mono (fun p hp => ?_) ho
    rw [List.mem_singleton.mp hp]
    exact hstaged
  · cases rows with
    | none => exact .bind (hremove hstaged) fun _ => trivial
    | some rows =>
      refine .bind (hexists _) fun hadIndex =>
        .bind ((all_swapIndex _ _).mono fun o ho => Op.Within.mono hfiles ho) fun swapped => all_ite trivial ?_
      unfold acceptIndex
      refine .bind (hread _) fun _ => .bind (hread _) fun _ => all_ite ?_ ?_
      · exact .bind (hremove hindex) fun _ => .bind (all_runIf ((Prog.all_op _).mpr ⟨hbackup, hindex⟩)) fun _ => trivial
      · exact .bind (hsidecar _ _) fun _ => .bind (hremove hbackup) fun _ => trivial

/-! ### One segment among all -/

/-- The condition speaks of the segment's file of records and of its index files only. -/
def Local (path : Bytes) (K : Card → Prop) : Prop :=
  ∀ s s', (∀ file ∈ path :: indexFiles (pairedIndexPath path), s'.lookup file = s.lookup file) → K s → K s'

variable {A : Op → Event → Card → Prop} {C K D : Card → Prop}

/-- A rebuild of another index leaves the segment alone. -/
theorem local_sameExcept (hpath : isRecordFile path = true) (hother : isRecordFile other = true) (hne : other ≠ path)
    (hK : Local path K) (hs : K s) (h : SameExcept (touched other) s s') : K s' := by
  refine hK s s' (fun file hfile => h file ?_) hs
  rcases List.mem_cons.mp hfile with rfl | hfile
  · exact record_notMem_touched hother hpath
  · exact index_notMem_touched hother hpath hne file hfile

/-- **What a rebuild of one index does to its segment**, a rebuild of all does to it: it keeps `K`, and brings about `D`. -/
theorem wp_rebuildAll (hpath : isRecordFile path = true) (hK : Local path K) (hD : Local path D) (hC : ∀ s, K s → C s)
    (hself : ∀ s, K s → wp device A C (rebuildIndex j path) (fun _ s' => K s' ∧ D s') s) (paths : List Bytes) :
    ∀ s, (∀ p ∈ paths, isRecordFile p = true) → K s → path ∈ paths ∨ D s →
      wp device A C (rebuildAll j paths) (fun _ s' => K s' ∧ D s') s := by
  induction paths with
  | nil =>
    intro s _ hs hdone
    exact (wp_pure ..).mpr ⟨hs, hdone.resolve_left List.not_mem_nil⟩
  | cons p rest ih =>
    intro s hpaths hs hdone
    rw [List.forall_mem_cons] at hpaths
    have hlater (done : Bool) (s' : Card) (hs' : K s') (hdone' : path ∈ rest ∨ D s') : wp device A C (do
        let others ← rebuildAll j rest
        return done && others) (fun _ s' => K s' ∧ D s') s' :=
      wp_bind'.mpr (wp_post (ih s' hpaths.2 hs' hdone') fun _ _ h => (wp_pure ..).mpr h)
    refine wp_bind'.mpr ?_
    by_cases hp : p = path
    · subst hp
      exact wp_post (hself s hs) fun done s' h => hlater done s' h.1 (Or.inr h.2)
    · have hframe := wp_sameExcept (A := A) (all_rebuildIndex (j := j) hpaths.1) s
      refine wp_mono (fun s' h => hC s' (local_sameExcept hpath hpaths.1 hp hK hs h)) (fun done s' h => ?_) hframe
      refine hlater done s' (local_sameExcept hpath hpaths.1 hp hK hs h) ?_
      rcases hdone with hmem | hdone
      · exact Or.inl ((List.mem_cons.mp hmem).resolve_left fun heq => hp heq.symm)
      · exact Or.inr (local_sameExcept hpath hpaths.1 hp hD hdone h)

/-! ### A file that is not indexable, whatever fails -/

/-- The index that is in force: the live one, or else the backup of an interrupted swap. -/
def inForce (s : Card) (index : Bytes) : Option Bytes := (s.lookup index).or (s.lookup (backupPath index))

/-- The file of records and the index in force are these. -/
structure Kept (path content : Bytes) (force : Option Bytes) (s : Card) : Prop where
  records : s.lookup path = some content
  force : inForce s (pairedIndexPath path) = force

/-- No operation fails unnoticed: whether a file exists is answered as it is. -/
def Faithful (o : Op) (e : Event) (_ : Card) : Prop :=
  match o with
  | .exists _ => e ≠ .failed
  | _ => True

/-- A backup that is still there is no longer needed. -/
def Settled (index : Bytes) (s : Card) : Prop := s.lookup index ≠ none ∨ s.lookup (backupPath index) = none

variable {force : Option Bytes}

theorem local_kept (path content : Bytes) (force : Option Bytes) : Local path (Kept path content force) := by
  intro s s' hsame hs
  have hindex : s'.lookup (pairedIndexPath path) = s.lookup (pairedIndexPath path) :=
    hsame _ (List.mem_cons_of_mem _ (own_indexFiles _).1)
  have hbackup : s'.lookup (backupPath (pairedIndexPath path)) = s.lookup (backupPath (pairedIndexPath path)) :=
    hsame _ (List.mem_cons_of_mem _ (own_indexFiles _).2.2)
  refine ⟨(hsame path List.mem_cons_self).trans hs.records, ?_⟩
  rw [inForce, hindex, hbackup]
  exact hs.force

/-- The names of the files of a segment. -/
structure Distinct (path index : Bytes) : Prop where
  staged : stagedPath index ≠ index
  backup : backupPath index ≠ index
  copies : stagedPath index ≠ backupPath index
  record : path ≠ index
  recordStaged : path ≠ stagedPath index
  recordBackup : path ≠ backupPath index

theorem distinct_segment (hpath : isRecordFile path = true) : Distinct path (pairedIndexPath path) := by
  obtain ⟨x, rfl⟩ := exists_recordStem hpath
  rw [pairedIndexPath_recordStem]
  have htails : [] ∈ indexTails ∧ ascii ".rebuild" ∈ indexTails ∧ ascii ".previous" ∈ indexTails := by decide
  have hrecord : ∀ file ∈ indexFiles (indexStem x), recordStem x ≠ file := by
    intro file hfile heq
    subst heq
    rw [← pairedIndexPath_recordStem] at hfile
    exact record_notMem_touched hpath hpath (List.mem_append_left _ hfile)
  obtain ⟨hindex, hstaged, hbackup⟩ := own_indexFiles (indexStem x)
  refine ⟨fun h => ?_, fun h => ?_, fun h => ?_, hrecord _ hindex, hrecord _ hstaged, hrecord _ hbackup⟩
  · rw [stagedPath, ← List.append_nil (indexStem x), List.append_assoc] at h
    exact absurd (index_injective htails.2.1 htails.1 h).2 (by decide)
  · rw [backupPath, ← List.append_nil (indexStem x), List.append_assoc] at h
    exact absurd (index_injective htails.2.2 htails.1 h).2 (by decide)
  · exact absurd (index_injective htails.2.1 htails.2.2 h).2 (by decide)

theorem faithful_fileExists {Q : Bool → Card → Prop} (hC : C s) (h : Q (s.lookup path).isSome s) :
    wp device Faithful C (fileExists path) Q s := by
  refine (wp_op _ _ _).mpr ⟨hC, fun e he => ?_⟩
  have hfaithful : e ≠ .failed := he
  simpa [device, hfaithful] using h

/-- A removal of the replacement, or any other change of it, leaves what is kept. -/
theorem Kept.congr (hd : Distinct path (pairedIndexPath path)) (hs : Kept path content force s)
    (h : SameExcept [stagedPath (pairedIndexPath path)] s s') : Kept path content force s' ∧
      (Settled (pairedIndexPath path) s → Settled (pairedIndexPath path) s') := by
  have hindex : s'.lookup (pairedIndexPath path) = s.lookup (pairedIndexPath path) := h _ (by simpa using hd.staged.symm)
  have hbackup : s'.lookup (backupPath (pairedIndexPath path)) = s.lookup (backupPath (pairedIndexPath path)) :=
    h _ (by simpa using hd.copies.symm)
  have hpath : s'.lookup path = s.lookup path :=
    h _ (by simpa using hd.recordStaged)
  refine ⟨⟨hpath.trans hs.records, ?_⟩, fun hsettled => ?_⟩
  · rw [inForce, hindex, hbackup]
    exact hs.force
  · rw [Settled, hindex, hbackup]
    exact hsettled

/-- A program that changes the replacement only. -/
theorem kept_of_within (hd : Distinct path (pairedIndexPath path)) {α : Type} {p : CardProg α}
    (hp : p.All (Op.Within [stagedPath (pairedIndexPath path)])) (hs : Kept path content force s) :
    wp device A (Kept path content force) p (fun _ s' => Kept path content force s' ∧
      (Settled (pairedIndexPath path) s → Settled (pairedIndexPath path) s')) s :=
  wp_mono (fun _ h => (hs.congr hd h).1) (fun _ _ h => hs.congr hd h) (wp_sameExcept hp s)

/-- **A backup is moved to the place of the index**, and only if there is no index. -/
theorem kept_restorePrevious (hd : Distinct path (pairedIndexPath path)) (hs : Kept path content force s) :
    wp device Faithful (Kept path content force) (restorePrevious (pairedIndexPath path)) (fun restored s' =>
      Kept path content force s' ∧ (restored = true → Settled (pairedIndexPath path) s')) s := by
  unfold restorePrevious
  refine wp_bind'.mpr (faithful_fileExists hs (wp_bind'.mpr ?_))
  cases hindex : s.lookup (pairedIndexPath path) with
  | some live =>
    have hsettled : Settled (pairedIndexPath path) s := Or.inl (by simp [hindex])
    exact (wp_pure ..).mpr ((wp_pure ..).mpr ⟨hs, fun _ => hsettled⟩)
  | none =>
    refine faithful_fileExists hs ?_
    cases hbackup : s.lookup (backupPath (pairedIndexPath path)) with
    | none => exact (wp_pure ..).mpr ⟨hs, fun _ => Or.inr hbackup⟩
    | some saved =>
      refine (wp_op _ _ _).mpr ⟨hs, fun e _ => ?_⟩
      by_cases he : e = .failed
      · simp [device, he, hbackup, hs]
      · have hact : device.act (.rename (backupPath (pairedIndexPath path)) (pairedIndexPath path)) e s =
            ((s.erase (backupPath (pairedIndexPath path))).insert (pairedIndexPath path) saved, true) := by
          simp [device, he, hbackup, hindex]
        rw [hact]
        refine ⟨⟨?_, ?_⟩, fun _ => Or.inl (by simp)⟩
        · rw [AList.lookup_insert_ne hd.record,
            AList.lookup_erase_ne hd.recordBackup]
          exact hs.records
        · have hforce := hs.force
          rw [inForce, hindex, hbackup] at hforce
          simpa [inForce] using hforce

/-- Removing the replacement, or a backup that is not needed. -/
theorem kept_removeStaged (hd : Distinct path (pairedIndexPath path)) (hs : Kept path content force s)
    (hsettled : Settled (pairedIndexPath path) s) :
    wp device Faithful (Kept path content force) (removeIfPresent (stagedPath (pairedIndexPath path))) (fun _ s' =>
      Kept path content force s' ∧ Settled (pairedIndexPath path) s') s := by
  have hall : (removeIfPresent (stagedPath (pairedIndexPath path))).All
      (Op.Within [stagedPath (pairedIndexPath path)]) :=
    .bind ((Prog.all_op _).mpr trivial) fun _ => all_ite ((Prog.all_op _).mpr (List.mem_singleton_self _)) trivial
  exact wp_post (kept_of_within hd hall hs) fun _ _ h => ⟨h.1, h.2 hsettled⟩

theorem kept_removeBackup (hd : Distinct path (pairedIndexPath path)) (hs : Kept path content force s)
    (hsettled : Settled (pairedIndexPath path) s) :
    wp device Faithful (Kept path content force) (removeIfPresent (backupPath (pairedIndexPath path))) (fun _ s' =>
      Kept path content force s') s := by
  unfold removeIfPresent
  refine wp_bind'.mpr (faithful_fileExists hs ?_)
  cases hbackup : s.lookup (backupPath (pairedIndexPath path)) with
  | none => exact (wp_pure ..).mpr hs
  | some saved =>
    refine (wp_op _ _ _).mpr ⟨hs, fun e _ => ?_⟩
    by_cases he : e = .failed
    · simp [device, he, hs]
    · have hact : (device.act (.remove (backupPath (pairedIndexPath path))) e s).1 =
          s.erase (backupPath (pairedIndexPath path)) := by
        simp [device, he, hbackup]
      rw [hact]
      refine ⟨?_, ?_⟩
      · rw [AList.lookup_erase_ne hd.recordBackup]
        exact hs.records
      · obtain ⟨live, hlive⟩ := Option.ne_none_iff_exists'.mp (hsettled.resolve_right (by simp [hbackup]))
        have hforce := hs.force
        rw [inForce, hlive] at hforce
        rw [inForce, AList.lookup_erase_ne hd.backup.symm, hlive]
        simpa using hforce

theorem kept_prepareIndex (hd : Distinct path (pairedIndexPath path)) (hs : Kept path content force s) :
    wp device Faithful (Kept path content force) (prepareIndex (pairedIndexPath path)) (fun _ s' =>
      Kept path content force s') s := by
  unfold prepareIndex
  refine wp_bind'.mpr ((wp_op _ _ _).mpr ⟨hs, fun e _ => wp_bind'.mpr ?_⟩)
  have hrestored : wp device Faithful (Kept path content force) (runIf (e ≠ .failed) (restorePrevious (pairedIndexPath path))
      false) (fun restored s' => Kept path content force s' ∧ (restored = true → Settled (pairedIndexPath path) s')) s :=
    wp_runIf (fun _ => kept_restorePrevious hd hs) fun _ => ⟨hs, fun h => by cases h⟩
  refine wp_post hrestored fun restored s₁ h₁ => wp_bind'.mpr ?_
  have hunstaged : wp device Faithful (Kept path content force) (runIf restored
      (removeIfPresent (stagedPath (pairedIndexPath path))) false) (fun unstaged s' =>
        Kept path content force s' ∧ (unstaged = true → Settled (pairedIndexPath path) s')) s₁ := by
    refine wp_runIf (fun hrestored => ?_) fun _ => ⟨h₁.1, fun h => by cases h⟩
    exact wp_post (kept_removeStaged hd h₁.1 (h₁.2 hrestored)) fun _ _ h => ⟨h.1, fun _ => h.2⟩
  refine wp_post hunstaged fun unstaged s₂ h₂ => ?_
  exact wp_runIf (fun hunstaged => kept_removeBackup hd h₂.1 (h₂.2 hunstaged)) fun _ => h₂.1

/-- **Rows are staged of an indexable file without a long line only.** -/
theorem stageIndex_none (hbad : ∀ entries, Indexable j content entries → ¬ Short content) (index : Bytes)
    (hs : s.lookup path = some content) :
    wp device A (fun _ => True) (stageIndex j path index) (fun rows _ => rows = none) s := by
  unfold stageIndex
  refine wp_bind'.mpr ((wp_op _ _ _).mpr ⟨trivial, fun e _ => ?_⟩)
  by_cases he : e = .failed
  · simp [device, he]
  · have hanswer : (device.act (.read path) e s).2 = some content := by simp [device, he, hs]
    rw [hanswer]
    refine Prog.Returns.wp ((stageRows_returns j _ _ _ {}).bind fun counted hcounted => ?_) _
    cases counted with
    | none => exact rfl
    | some rows =>
      refine Prog.returns_ite (fun _ => rfl) fun hcount => ?_
      obtain ⟨hwhole, text, hstages⟩ := hcounted rows rfl
      have hcontent : content ≠ [] := by
        rintro rfl
        exact hcount hstages.count
      obtain ⟨hshort, entries, hindexable, -⟩ := (stages_iff hcontent hwhole).mp ⟨rows, hstages⟩
      exact absurd hshort (hbad entries hindexable)

/-- **A file that is not indexable keeps its index**, whatever fails and wherever the power is lost. -/
theorem kept_rebuildIndex (hpath : isRecordFile path = true) (hbad : ∀ entries, Indexable j content entries → ¬ Short content)
    (hs : Kept path content force s) :
    wp device Faithful (Kept path content force) (rebuildIndex j path) (fun _ => Kept path content force) s := by
  have hd := distinct_segment hpath
  rw [rebuildIndex_eq hpath]
  refine wp_bind'.mpr (wp_post (kept_prepareIndex hd hs) fun ready s₁ h₁ => ?_)
  rw [wp_ite]
  split_ifs
  · exact (wp_pure ..).mpr h₁
  · unfold replaceIndex
    have hnone := wp_and (stageIndex_none (A := Faithful) hbad (pairedIndexPath path) h₁.records)
      (kept_of_within (A := Faithful) hd (all_stageIndex (j := j) path _) h₁)
    refine wp_bind'.mpr (wp_mono (fun _ h => h.2) (fun rows s₂ h₂ => ?_) hnone)
    obtain ⟨rfl, hkept, -⟩ := h₂
    have hremove : (removeFile (stagedPath (pairedIndexPath path))).All
        (Op.Within [stagedPath (pairedIndexPath path)]) := (Prog.all_op _).mpr (List.mem_singleton_self _)
    exact wp_bind'.mpr (wp_post (kept_of_within hd hremove hkept) fun _ _ h => (wp_pure ..).mpr h.1)

/-! ### When nothing fails -/

variable {text : Bytes} {all rows : Rows} {ls : List Bytes}

theorem calm_restorePrevious (index : Bytes) (s : Card) :
    wp device Calm (fun _ => True) (restorePrevious index) (fun restored _ => restored = true) s := by
  unfold restorePrevious
  refine wp_bind'.mpr (calm_fileExists trivial (wp_bind'.mpr ?_))
  cases hindex : s.lookup index with
  | some live => exact (wp_pure ..).mpr ((wp_pure ..).mpr rfl)
  | none =>
    refine calm_fileExists trivial ?_
    cases hbackup : s.lookup (backupPath index) with
    | none => exact (wp_pure ..).mpr rfl
    | some saved => exact calm_renameFile trivial hbackup hindex rfl

/-- Nothing is left of an earlier rebuild. -/
theorem calm_prepareIndex (hcopies : stagedPath index ≠ backupPath index) (s : Card) :
    wp device Calm (fun _ => True) (prepareIndex index) (fun ready s' => ready = true ∧
      s'.lookup (stagedPath index) = none ∧ s'.lookup (backupPath index) = none) s := by
  unfold prepareIndex
  refine wp_bind'.mpr (calm_ensureDirectory trivial (wp_bind'.mpr ?_))
  refine wp_post (calm_restorePrevious index s) fun restored s₁ hrestored => wp_bind'.mpr ?_
  subst hrestored
  refine calm_removeIfPresent fun s₂ hstaged _ => ?_
  refine calm_removeIfPresent fun s₃ hbackup hsame => ⟨rfl, ?_, hbackup⟩
  rw [hsame _ (by simpa using hcopies), hstaged]

/-- **The rows are appended one by one.** -/
theorem calm_stageRows (staged : Bytes) (h : Stages j rows ls text all) : ∀ s : Card,
    rows.offset + ls.length * 8193 < 2 ^ 64 →
      wp device Calm (fun _ => True) (stageRows j staged [] ls rows) (fun counted s' => counted = some all ∧
        (s'.lookup staged).getD [] = (s.lookup staged).getD [] ++ text) s := by
  induction h with
  | done rows => exact fun s _ => (wp_pure ..).mpr ⟨rfl, (List.append_nil _).symm⟩
  | @row rows all line text ls sequence start checksum decodes positive increases later ih =>
    intro s hoffset
    rw [List.length_cons] at hoffset
    obtain ⟨hshort, hdecoded⟩ := indexedLine_eq_some.mp decodes
    obtain ⟨hsequence, hstart⟩ := decodedLine_lt hdecoded
    have hfits : ¬ 96 ≤ (indexRow sequence start rows.offset checksum).length :=
      Nat.not_le.mpr (length_indexRow hsequence hstart (by omega))
    unfold stageRows
    simp only [decodes, if_neg ((increases_iff positive).mpr increases)]
    refine wp_bind'.mpr ?_
    unfold appendIndex
    refine wp_bind'.mpr (calm_ensureDirectory trivial ?_)
    simp only [Bool.not_true, Bool.false_eq_true, if_false, if_neg hfits]
    refine wp_bind'.mpr (calm_appendFile trivial ((wp_pure ..).mpr ?_))
    simp only [Option.map_some, decide_true, Bool.not_true, Bool.false_eq_true, if_false]
    refine wp_post (ih _ ?_) fun counted s' h => ⟨h.1, ?_⟩
    · simp only [Rows.add]
      omega
    · rw [h.2, AList.lookup_insert, Option.getD_some, List.append_assoc]

/-- The file can be indexed: the rows are `text`, and there are fewer than 2³² of them. -/
structure Ready (j : JsonLibrary) (content text : Bytes) (all : Rows) : Prop where
  stages : Stages j {} (lines content) text all
  nonempty : content ≠ []
  whole : unterminated content = []
  few : (lines content).length < 2 ^ 32

theorem calm_stageIndex (h : Ready j content text all) (hne : path ≠ stagedPath index)
    (hs : s.lookup path = some content) (hstaged : s.lookup (stagedPath index) = none) :
    wp device Calm (fun _ => True) (stageIndex j path index) (fun rows s' => rows = some all ∧
      s'.lookup (stagedPath index) = some text) s := by
  have hoffset : ({} : Rows).offset + (lines content).length * 8193 < 2 ^ 64 := by
    have := h.few
    change 0 + _ < _
    omega
  have hls := lines_ne_nil h.nonempty h.whole
  have hcount : all.count ≠ 0 := by
    rw [h.stages.count]
    have := List.length_pos_iff.mpr hls
    omega
  unfold stageIndex
  refine wp_bind'.mpr (calm_readFile trivial ?_)
  rw [hs]
  simp only [h.whole]
  have hall : (stageRows j (stagedPath index) [] (lines content) {}).All (Op.Within [stagedPath index]) := all_stageRows _ _
  have hrows := wp_and (calm_stageRows (stagedPath index) h.stages s hoffset) (wp_sameExcept hall s)
  refine wp_bind'.mpr (wp_mono (fun _ _ => trivial) (fun counted s₁ h₁ => ?_) hrows)
  obtain ⟨⟨rfl, htext⟩, hsame⟩ := h₁
  have hrecord : s₁.lookup path = some content := (hsame path (by simpa using hne)).trans hs
  have hlive : s₁.lookup (stagedPath index) = some text := by
    rw [hstaged, Option.getD_none, List.nil_append] at htext
    cases hlookup : s₁.lookup (stagedPath index) with
    | none =>
      rw [hlookup] at htext
      exact absurd htext.symm (h.stages.ne_nil hls)
    | some found =>
      rw [hlookup] at htext
      exact congrArg some htext
  simp only [if_neg hcount]
  refine wp_bind'.mpr (calm_readFile trivial (wp_bind'.mpr (calm_readFile trivial ((wp_pure ..).mpr ⟨?_, hlive⟩))))
  rw [hrecord, hlive]
  simp only [Option.bind_some, h.whole, exactRows_of_stages h.stages hoffset]
  simp

/-- **The staged rows take the place of the index.** -/
theorem calm_swapIndex (hd : Distinct path index) (hstaged : s.lookup (stagedPath index) = some text)
    (hbackup : s.lookup (backupPath index) = none) :
    wp device Calm (fun _ => True) (swapIndex index (s.lookup index).isSome) (fun swapped s' => swapped = true ∧
      s'.lookup index = some text ∧ s'.lookup (stagedPath index) = none) s := by
  have hinstall (s₁ : Card) (hlive : s₁.lookup index = none) (hnew : s₁.lookup (stagedPath index) = some text) :
      wp device Calm (fun _ => True) (do
        let renamed ← runIf true (renameFile (stagedPath index) index) false
        if renamed then return true
        else do
          let _ ← removeFile (stagedPath index)
          let present ← runIf (s.lookup index).isSome (fileExists index) true
          let _ ← runIf (!present) (renameFile (backupPath index) index) true
          return false) (fun swapped s' => swapped = true ∧ s'.lookup index = some text ∧
            s'.lookup (stagedPath index) = none) s₁ := by
    refine wp_bind'.mpr (calm_renameFile trivial hnew hlive ((wp_pure ..).mpr ⟨rfl, AList.lookup_insert .., ?_⟩))
    rw [AList.lookup_insert_ne hd.staged, AList.lookup_erase]
  unfold swapIndex
  refine wp_bind'.mpr ?_
  cases hlive : s.lookup index with
  | none =>
    rw [hlive] at hinstall
    exact (wp_pure ..).mpr (hinstall s hlive hstaged)
  | some live =>
    rw [hlive] at hinstall
    refine calm_renameFile trivial hlive hbackup (hinstall _ ?_ ?_)
    · rw [AList.lookup_insert_ne hd.backup.symm, AList.lookup_erase]
    · rw [AList.lookup_insert_ne hd.copies, AList.lookup_erase_ne hd.staged, hstaged]

/-- The index is `text`, and nothing else is left of the rebuild. -/
structure Installed (index text : Bytes) (s : Card) : Prop where
  live : s.lookup index = some text
  staged : s.lookup (stagedPath index) = none
  backup : s.lookup (backupPath index) = none

/-- **The new index passes its inspection**, and the backup is removed. -/
theorem calm_acceptIndex (hpath : isRecordFile path = true) (h : Ready j content text all)
    (hs : s.lookup path = some content) (hlive : s.lookup (pairedIndexPath path) = some text)
    (hstaged : s.lookup (stagedPath (pairedIndexPath path)) = none) (hadIndex : Bool) :
    wp device Calm (fun _ => True) (acceptIndex j path (pairedIndexPath path) hadIndex all) (fun _ s' =>
      Installed (pairedIndexPath path) text s') s := by
  have hd := distinct_segment hpath
  obtain ⟨x, rfl⟩ := exists_recordStem hpath
  obtain ⟨hagrees, hvalid⟩ := inspectSegment_staged h.stages h.nonempty h.whole h.few (recordStem x)
  unfold acceptIndex
  refine wp_bind'.mpr (calm_readFile trivial (wp_bind'.mpr (calm_readFile trivial ?_)))
  rw [hs, hlive]
  simp only [hagrees.complete, hvalid, hagrees.count, hagrees.first, hagrees.last, Bool.not_true, Bool.or_false,
    ne_eq, not_true_eq_false, decide_false, Bool.false_eq_true, if_false]
  refine wp_bind'.mpr (wp_mono (fun _ _ => trivial) (fun persisted s₁ hsame => ?_)
    (wp_sameExcept (all_persistSegmentMetadata (j := j) _) s))
  have hkept : ∀ file ∈ indexFiles (pairedIndexPath (recordStem x)), s₁.lookup file = s.lookup file := by
    intro file hfile
    obtain ⟨tail, htail, rfl⟩ := mem_indexFiles.mp hfile
    refine hsame _ ?_
    rw [pairedIndexPath_recordStem]
    exact index_notMem_sidecarFiles htail x _
  obtain ⟨hindex, hreplacement, -⟩ := own_indexFiles (pairedIndexPath (recordStem x))
  refine wp_bind'.mpr (calm_removeFile trivial ((wp_pure ..).mpr ⟨?_, ?_, AList.lookup_erase ..⟩))
  · rw [AList.lookup_erase_ne hd.backup.symm, hkept _ hindex, hlive]
  · rw [AList.lookup_erase_ne hd.copies, hkept _ hreplacement, hstaged]

/-- **What is left of a rebuild in which nothing fails.** -/
theorem calm_rebuildIndex (hpath : isRecordFile path = true) (h : Ready j content text all)
    (hs : s.lookup path = some content) :
    wp device Calm (fun _ => True) (rebuildIndex j path) (fun _ s' => Installed (pairedIndexPath path) text s') s := by
  have hd := distinct_segment hpath
  rw [rebuildIndex_eq hpath]
  have hprepared := wp_and (calm_prepareIndex hd.copies s)
    (wp_sameExcept (A := Calm) (all_prepareIndex fun _ hfile => hfile) s)
  refine wp_bind'.mpr (wp_mono (fun _ _ => trivial) (fun ready s₁ h₁ => ?_) hprepared)
  obtain ⟨⟨rfl, hstaged, hbackup⟩, hsame⟩ := h₁
  have hrecord : s₁.lookup path = some content := by
    refine (hsame path fun hmem => ?_).trans hs
    exact record_notMem_touched hpath hpath (List.mem_append_left _ hmem)
  simp only [Bool.not_true, Bool.false_eq_true, if_false]
  unfold replaceIndex
  have hrows := wp_and (calm_stageIndex h hd.recordStaged hrecord hstaged)
    (wp_sameExcept (A := Calm) (all_stageIndex (j := j) path (pairedIndexPath path)) s₁)
  refine wp_bind'.mpr (wp_mono (fun _ _ => trivial) (fun counted s₂ h₂ => ?_) hrows)
  obtain ⟨⟨rfl, hnew⟩, hsame₂⟩ := h₂
  have hrecord₂ : s₂.lookup path = some content := (hsame₂ path (by simpa using hd.recordStaged)).trans hrecord
  have hbackup₂ : s₂.lookup (backupPath (pairedIndexPath path)) = none :=
    (hsame₂ _ (by simpa using hd.copies.symm)).trans hbackup
  simp only [installIndex]
  refine wp_bind'.mpr (calm_fileExists trivial (wp_bind'.mpr ?_))
  have hswap := wp_and (calm_swapIndex hd hnew hbackup₂) (wp_sameExcept (A := Calm) (all_swapIndex _ _) s₂)
  refine wp_mono (fun _ _ => trivial) (fun swapped s₃ h₃ => ?_) hswap
  obtain ⟨⟨rfl, hlive, hclear⟩, hsame₃⟩ := h₃
  have hrecord₃ : s₃.lookup path = some content := by
    refine (hsame₃ path fun hmem => ?_).trans hrecord₂
    exact record_notMem_touched hpath hpath (List.mem_append_left _ hmem)
  exact calm_acceptIndex hpath h hrecord₃ hlive hclear _

/-- What is left of a rebuild of a file that is not indexable. -/
theorem calm_rebuildIndex_refused (hpath : isRecordFile path = true)
    (hbad : ∀ entries, Indexable j content entries → ¬ Short content) (hs : s.lookup path = some content) :
    wp device Calm (fun _ => True) (rebuildIndex j path) (fun _ s' =>
      s'.lookup (backupPath (pairedIndexPath path)) = none) s := by
  have hd := distinct_segment hpath
  rw [rebuildIndex_eq hpath]
  have hprepared := wp_and (calm_prepareIndex hd.copies s)
    (wp_sameExcept (A := Calm) (all_prepareIndex fun _ hfile => hfile) s)
  refine wp_bind'.mpr (wp_mono (fun _ _ => trivial) (fun ready s₁ h₁ => ?_) hprepared)
  obtain ⟨⟨rfl, -, hbackup⟩, hsame⟩ := h₁
  have hrecord : s₁.lookup path = some content := by
    refine (hsame path fun hmem => ?_).trans hs
    exact record_notMem_touched hpath hpath (List.mem_append_left _ hmem)
  simp only [Bool.not_true, Bool.false_eq_true, if_false]
  unfold replaceIndex
  have hnone := wp_and (stageIndex_none (A := Calm) hbad (pairedIndexPath path) hrecord)
    (wp_sameExcept (A := Calm) (all_stageIndex (j := j) path (pairedIndexPath path)) s₁)
  refine wp_bind'.mpr (wp_mono (fun _ _ => trivial) (fun rows s₂ h₂ => ?_) hnone)
  obtain ⟨rfl, hsame₂⟩ := h₂
  refine wp_bind'.mpr (calm_removeFile trivial ((wp_pure ..).mpr ?_))
  rw [AList.lookup_erase_ne hd.copies.symm, hsame₂ _ (by simpa using hd.copies.symm), hbackup]

/-! ### Attempts -/

/-- The card after some rebuilds that were interrupted or at which something failed. -/
inductive Attempted (j : JsonLibrary) (s₀ : Card) : Card → Prop
  | start : Attempted j s₀ s₀
  | again {s : Card} (before : Attempted j s₀ s) (events : List Event)
      (faithful : Along device Faithful (rebuildIndexes j true) events s) :
      Attempted j s₀ (run device (rebuildIndexes j true) events s).1

/-- The card after a rebuild at which nothing fails. -/
def rebuilt (j : JsonLibrary) (s : Card) : Card := (steady device .done (rebuildIndexes j true) s).2

/-- **What a rebuild promises**, of the files whose lines a reader takes. -/
structure Transacted (j : JsonLibrary) (Reads : Bytes → Prop) (s₀ s : Card) : Prop where
  records : ∀ path, isRecordFile path = true → s.lookup path = s₀.lookup path
  indexed : ∀ path content entries, isRecordFile path = true → s₀.lookup path = some content →
    Indexable j content entries → Reads content → (lines content).length < 2 ^ 32 →
      Installed (pairedIndexPath path) (canonicalIndex 0 (lines content) entries) s
  kept : ∀ path content, isRecordFile path = true → s₀.lookup path = some content →
    (∀ entries, Indexable j content entries → ¬ Reads content) →
      s.lookup (pairedIndexPath path) = inForce s₀ (pairedIndexPath path)

variable {s₀ : Card}

theorem listed_records {e : Event} (hp : path ∈ (device.act (.list (ascii "/POWERMON/records/") (ascii ".pmr")) e s).2) :
    isRecordFile path = true := by
  have hall : path ∈ collectFiles (ascii "/POWERMON/records/") (ascii ".pmr") s := by
    cases e with
    | failed => cases hp
    | missing paths => exact List.mem_of_mem_filter hp
    | _ => exact hp
  simp only [collectFiles, List.mem_filter] at hall
  exact hall.2

/-- What each rebuild of one index keeps, an attempt keeps. -/
theorem Attempted.keeps (h : Attempted j s₀ s) (hpath : isRecordFile path = true) (hK : Local path K)
    (hself : ∀ s, K s → wp device Faithful K (rebuildIndex j path) (fun _ => K) s) (hs₀ : K s₀) : K s := by
  have hall (s : Card) (hs : K s) : wp device Faithful K (rebuildIndexes j true) (fun _ => K) s := by
    refine wp_bind'.mpr ((wp_op _ _ _).mpr ⟨hs, fun e _ => ?_⟩)
    have hkeeps (paths : List Bytes) (hpaths : ∀ p ∈ paths, isRecordFile p = true) :
        wp device Faithful K (rebuildAll j paths) (fun _ s' => K s' ∧ True) s :=
      wp_rebuildAll hpath hK (fun _ _ _ _ => trivial) (fun _ h => h)
        (fun s hs => wp_post (hself s hs) fun _ _ h => ⟨h, trivial⟩) paths s hpaths hs (Or.inr trivial)
    exact wp_post (hkeeps _ fun p hp => listed_records hp) fun _ _ h => h.1
  induction h with
  | start => exact hs₀
  | again before events faithful ih => exact Outcome.state (wp_run (hall _ ih) faithful)

/-- What a rebuild of one index brings about, a rebuild at which nothing fails does. -/
theorem rebuilt_spec (hpath : isRecordFile path = true) (hK : Local path K) (hD : Local path D)
    (hpresent : ∀ s, K s → (s.lookup path).isSome = true)
    (hself : ∀ s, K s → wp device Calm (fun _ => True) (rebuildIndex j path) (fun _ s' => K s' ∧ D s') s) (hs : K s) :
    K (rebuilt j s) ∧ D (rebuilt j s) := by
  have hmem : path ∈ collectFiles (ascii "/POWERMON/records/") (ascii ".pmr") s := by
    refine List.mem_filter.mpr ⟨AList.mem_keys.mp (AList.lookup_isSome.mp (hpresent s hs)), hpath⟩
  have hwp : wp device Calm (fun _ => True) (rebuildIndexes j true) (fun _ s' => K s' ∧ D s') s :=
    wp_bind'.mpr (calm_listFiles trivial (wp_rebuildAll hpath hK hD (fun _ _ => trivial) hself _ s
      (fun p hp => (List.mem_filter.mp hp).2) hs (Or.inl hmem)))
  have hdone (o : Op) (s : Card) : Calm o .done s := Or.inl rfl
  exact steady_of_wp hdone hwp

theorem local_records (path : Bytes) (content : Option Bytes) : Local path fun s => s.lookup path = content :=
  fun _ _ hsame hs => (hsame path List.mem_cons_self).trans hs

theorem rebuildIndex_records (hpath : isRecordFile path = true) {content : Option Bytes} (hs : s.lookup path = content) :
    wp device A (fun s => s.lookup path = content) (rebuildIndex j path) (fun _ s' => s'.lookup path = content) s := by
  have hsame (s' : Card) (h : SameExcept (touched path) s s') : s'.lookup path = content :=
    (h path (record_notMem_touched hpath hpath)).trans hs
  exact wp_mono hsame (fun _ => hsame) (wp_sameExcept (all_rebuildIndex hpath) s)

/-- **No file of records is ever changed.** -/
theorem Attempted.records (h : Attempted j s₀ s) (hpath : isRecordFile path = true) : s.lookup path = s₀.lookup path :=
  h.keeps hpath (local_records path (s₀.lookup path)) (fun _ hs => rebuildIndex_records hpath hs) rfl

theorem Attempted.kept (h : Attempted j s₀ s) (hpath : isRecordFile path = true) (hrecord : s₀.lookup path = some content)
    (hbad : ∀ entries, Indexable j content entries → ¬ Short content) :
    Kept path content (inForce s₀ (pairedIndexPath path)) s :=
  h.keeps hpath (local_kept _ _ _) (fun _ hs => kept_rebuildIndex hpath hbad hs) ⟨hrecord, rfl⟩

theorem Calm.faithful {o : Op} {e : Event} (h : Calm o e s) : Faithful o e s := by
  rcases h with rfl | ⟨n, rfl⟩
  · cases o <;> simp [Faithful]
  · cases o <;> simp [Faithful]

/-- A rebuild at which nothing fails is another attempt. -/
theorem rebuilt_records (hpath : isRecordFile path = true) : (rebuilt j s).lookup path = s.lookup path := by
  have hcalls := run_calls (D := device) (e := .done) (rebuildIndexes j true) [] s
  have halong : Along device Faithful (rebuildIndexes j true)
      (List.replicate (calls device .done (rebuildIndexes j true) s) .done ++ []) s := by
    refine along_of_forall _ s fun e he o s => ?_
    obtain rfl : e = .done := by
      rw [List.append_nil] at he
      exact List.eq_of_mem_replicate he
    exact Calm.faithful (Or.inl rfl)
  have hrecords := (Attempted.again .start _ halong).records hpath
  rw [hcalls] at hrecords
  exact hrecords

/-- **The index in force stays**, of a file that is not indexable. -/
theorem rebuilt_kept (h : Attempted j s₀ s) (hpath : isRecordFile path = true) (hrecord : s₀.lookup path = some content)
    (hbad : ∀ entries, Indexable j content entries → ¬ Short content) :
    (rebuilt j s).lookup (pairedIndexPath path) = inForce s₀ (pairedIndexPath path) := by
  have hbackup : Local path fun s => s.lookup (backupPath (pairedIndexPath path)) = none := fun s s' hsame hs =>
    (hsame _ (List.mem_cons_of_mem _ (own_indexFiles _).2.2)).trans hs
  have hself (s : Card) (hs : Kept path content (inForce s₀ (pairedIndexPath path)) s) :
      wp device Calm (fun _ => True) (rebuildIndex j path) (fun _ s' =>
        Kept path content (inForce s₀ (pairedIndexPath path)) s' ∧ s'.lookup (backupPath (pairedIndexPath path)) = none) s :=
    wp_mono (fun _ _ => trivial) (fun _ _ h => h)
      (wp_and (wp_assume (fun _ _ _ h => Calm.faithful h) (kept_rebuildIndex hpath hbad hs))
        (calm_rebuildIndex_refused hpath hbad hs.records))
  obtain ⟨hkept, hnone⟩ := rebuilt_spec hpath (local_kept path content _) hbackup
    (fun s hs => by rw [hs.records]; rfl) hself (h.kept hpath hrecord hbad)
  have hforce := hkept.force
  rw [inForce, hnone, Option.or_none] at hforce
  exact hforce

/-- **The index of an indexable file**, whatever was left of it. -/
theorem rebuilt_indexed (hpath : isRecordFile path = true) (hrecord : s.lookup path = some content)
    (hready : Ready j content text all) : Installed (pairedIndexPath path) text (rebuilt j s) := by
  have hinstalled : Local path fun s => Installed (pairedIndexPath path) text s := by
    intro s s' hsame hs
    obtain ⟨hindex, hstaged, hbackup⟩ := own_indexFiles (pairedIndexPath path)
    exact ⟨(hsame _ (List.mem_cons_of_mem _ hindex)).trans hs.live, (hsame _ (List.mem_cons_of_mem _ hstaged)).trans hs.staged,
      (hsame _ (List.mem_cons_of_mem _ hbackup)).trans hs.backup⟩
  have hself (s : Card) (hs : s.lookup path = some content) :
      wp device Calm (fun _ => True) (rebuildIndex j path) (fun _ s' =>
        s'.lookup path = some content ∧ Installed (pairedIndexPath path) text s') s :=
    wp_mono (fun _ _ => trivial) (fun _ _ h => h)
      (wp_and (rebuildIndex_records hpath hs) (calm_rebuildIndex hpath hready hs))
  exact (rebuilt_spec hpath (local_records path (some content)) hinstalled (fun s hs => by rw [hs]; rfl) hself hrecord).2

/-- **A rebuild is a transaction**, for files whose lines have at most 8193 bytes: after any attempts, the files of records
are as they were, and a rebuild at which nothing fails leaves the index of each indexable file and the index in force of
every other. -/
theorem rebuild_transaction (h : Attempted j s₀ s) :
    (∀ path, isRecordFile path = true → s.lookup path = s₀.lookup path) ∧ Transacted j Short s₀ (rebuilt j s) := by
  refine ⟨fun path hpath => h.records hpath, ?_, ?_, ?_⟩
  · exact fun path hpath => (rebuilt_records hpath).trans (h.records hpath)
  · intro path content entries hpath hrecord hindexable hshort hfew
    obtain ⟨all, hstages⟩ := (stages_iff hindexable.nonempty hindexable.whole).mpr ⟨hshort, entries, hindexable, rfl⟩
    exact rebuilt_indexed hpath ((h.records hpath).trans hrecord) ⟨hstages, hindexable.nonempty, hindexable.whole, hfew⟩
  · exact fun path content hpath hrecord hbad => rebuilt_kept h hpath hrecord hbad

def damagedFile : Bytes := recordStem (ascii "d")

/-- A damaged file of records, and the index that an interrupted swap left beside it. -/
def damagedCard : Card := AList.insert (backupPath (pairedIndexPath damagedFile)) (ascii "old") (AList.insert damagedFile [63] ∅)

theorem rebuild_transaction_damaged :
    (rebuilt textJson (run device (rebuildIndexes textJson true) [.done, .failed] damagedCard).1).lookup
      (pairedIndexPath damagedFile) = some (ascii "old") := by
  have halong : Along device Faithful (rebuildIndexes textJson true) [.done, .failed] damagedCard :=
    ⟨trivial, trivial, trivial⟩
  have hkept := (rebuild_transaction (.again .start _ halong)).2.kept damagedFile [63] (isRecordFile_recordStem _) rfl
    fun entries h => absurd h.whole (by decide)
  rw [hkept]
  rfl

/-- A file of one reading can be indexed. -/
theorem indexable_record {r : IntervalRecord} (hpositive : r.sequence ≠ 0) :
    lines (recordEnvelope textJson r) = [recordEnvelope textJson r] ∧ Indexable textJson (recordEnvelope textJson r)
      [(r.sequence.toNat, r.startUtcMs.toNat, crc32 (serializeRecord textJson r))] := by
  obtain ⟨init, hinit, hnewline⟩ := recordEnvelope_line textJson_lawful r
  obtain ⟨document, hdocument, hsequence, hunsigned, hstart, hunsigned', -⟩ :=
    deserialize_serializeRecord textJson_lawful r
  have hlines : lines (recordEnvelope textJson r) = [recordEnvelope textJson r] ∧
      unterminated (recordEnvelope textJson r) = [] := by
    rw [hinit]
    exact lines_line hnewline []
  have hdecoded : decodedLine textJson (recordEnvelope textJson r) =
      some (r.sequence.toNat, r.startUtcMs.toNat, crc32 (serializeRecord textJson r)) := by
    unfold decodedLine
    rw [recordEnvelope, decodeEnvelope_encodeEnvelope]
    simp only [Option.bind_eq_bind, Option.bind_some, hdocument, hsequence, hunsigned, hstart, hunsigned']
    rfl
  refine ⟨hlines.1, ?_, hlines.2, ?_, ?_, by simp⟩
  · rw [hinit]
    simp
  · rw [hlines.1, List.map_singleton, hdecoded]
    rfl
  · intro entry hentry
    rw [List.mem_singleton.mp hentry]
    exact fun h => hpositive (UInt64.toNat_inj.mp h)

def longFile : Bytes := recordStem (ascii "l")

/-- **A file whose only line is longer than a reader takes** gets no index. -/
theorem long_unindexed {r : IntervalRecord} (hpositive : r.sequence ≠ 0) (hlong : 8193 < (recordEnvelope textJson r).length) :
    let card : Card := AList.insert longFile (recordEnvelope textJson r) ∅
    ¬ Transacted textJson (fun _ => True) card (rebuilt textJson card) := by
  intro card h
  obtain ⟨hlines, hindexable⟩ := indexable_record hpositive
  have hrecord : card.lookup longFile = some (recordEnvelope textJson r) := AList.lookup_insert _
  have hpath : isRecordFile longFile = true := isRecordFile_recordStem _
  have hlive := (h.indexed longFile _ _ hpath hrecord hindexable trivial (by rw [hlines]; simp)).live
  have hshort : ¬ Short (recordEnvelope textJson r) := by
    intro hshort
    have hlength := hshort (recordEnvelope textJson r) (by rw [hlines]; exact List.mem_singleton_self _)
    exact absurd hlong (Nat.not_lt.mpr hlength)
  have hstarted : Attempted textJson card card := .start
  have hkept := rebuilt_kept hstarted hpath hrecord fun _ _ => hshort
  have hnone : inForce card (pairedIndexPath longFile) = none := by
    have hd := distinct_segment hpath
    rw [inForce, AList.lookup_insert_ne hd.record.symm, AList.lookup_insert_ne hd.recordBackup.symm]
    rfl
  rw [hlive, hnone] at hkept
  cases hkept

/-- A reading under a long name. -/
def longRecord : IntervalRecord := { sequence := 1, startUtcMs := 1, friendlyName := List.replicate 8193 97 }

theorem friendlyName_lt (r : IntervalRecord) : r.friendlyName.length < (recordEnvelope textJson r).length := by
  have hname : (ascii "friendly_name", text r.friendlyName) ∈ recordDocument r := by simp [recordDocument]
  have hfields : (putValue (text r.friendlyName)).length ≤ (putFields putValue (recordDocument r)).length :=
    le_length_putFields _ hname
  have htext := le_length_putString r.friendlyName
  change (putString r.friendlyName).length ≤ _ at hfields
  rw [recordEnvelope, length_encodeEnvelope, serializeRecord]
  simp only [textJson, List.length_cons]
  omega

theorem long_longRecord : 8193 < (recordEnvelope textJson longRecord).length := by
  have hname := friendlyName_lt longRecord
  rwa [show longRecord.friendlyName.length = 8193 from List.length_replicate] at hname

theorem long_line_unindexed :
    ¬ ∀ (j : JsonLibrary) (s₀ s : Card), Attempted j s₀ s → Transacted j (fun _ => True) s₀ (rebuilt j s) :=
  fun h => long_unindexed (by decide) long_longRecord (h textJson _ _ .start)

end PowerMonitor.Storage.RebuildTransaction
