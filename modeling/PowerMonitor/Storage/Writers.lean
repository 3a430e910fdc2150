import PowerMonitor.Storage.Tidy

/-! # The writers of the storage are neat

Appending a reading or an event, rebuilding the indexes, storing a sidecar and recovering the files write
expected files only, if the names of days and boots are short (`short_stem`). -/

namespace PowerMonitor.Storage.Writers

open PowerMonitor.Lib.Binary PowerMonitor.Lib.Lines PowerMonitor.Lib.Scan PowerMonitor.Lib.Json PowerMonitor.Lib.Program
open PowerMonitor.Storage.RecordFormat PowerMonitor.Storage.Reading PowerMonitor.Storage.Media
open PowerMonitor.Storage.Segment PowerMonitor.Storage.SdStorage PowerMonitor.Storage.Frames
open PowerMonitor.Storage.Layout PowerMonitor.Storage.Cleanup PowerMonitor.Storage.CleanupRecovery
open PowerMonitor.Storage.Inspection PowerMonitor.Storage.RebuildIndexes PowerMonitor.Storage.Trash
open PowerMonitor.Storage.Tidy
open PowerMonitor.Storage.Events (DeviceEvent EventRam eventPath appendEvent storeEvent persistEventSequence mountEvents
  eventJournalTemporary)

variable {j : JsonLibrary} {fingerprint : Bytes} {x path p content : Bytes} {s s' : Card} {m : InspectedSegment}

/-! ### Names of days and boots -/

theorem padded_short {width n : ℕ} (hwidth : width ≤ 20) (hn : n < 2 ^ 64) :
    (padded width n).length ≤ 20 ∧ 0 ∉ padded width n := by
  have hdigits := length_decimal hn
  constructor
  · simp only [padded, List.length_append, List.length_replicate]
    omega
  · simp only [padded, List.mem_append, not_or]
    exact ⟨fun h => absurd (List.eq_of_mem_replicate h) (by decide),
      fun h => absurd (isDigit_of_mem_decimal h) (by decide)⟩

theorem civilFromDays_lt {days : ℕ} (h : days < 2 ^ 40) :
    (civilFromDays days).1 < 2 ^ 64 ∧ (civilFromDays days).2.1 < 2 ^ 64 ∧ (civilFromDays days).2.2 < 2 ^ 64 := by
  unfold civilFromDays
  simp only
  refine ⟨?_, ?_, ?_⟩
  · split_ifs <;> omega
  · split_ifs <;> omega
  · omega

theorem short_dateText {year month day : ℕ} (hyear : year < 2 ^ 64) (hmonth : month < 2 ^ 64) (hday : day < 2 ^ 64) :
    (dateText year month day).length ≤ 62 ∧ 0 ∉ dateText year month day := by
  obtain ⟨hy, hy0⟩ := padded_short (show 4 ≤ 20 by omega) hyear
  obtain ⟨hm, hm0⟩ := padded_short (show 2 ≤ 20 by omega) hmonth
  obtain ⟨hd, hd0⟩ := padded_short (show 2 ≤ 20 by omega) hday
  constructor
  · simp only [dateText, List.length_append, List.length_cons]
    omega
  · simp only [dateText, List.mem_append, List.mem_cons, not_or]
    exact ⟨hy0, by decide, hm0, by decide, hd0⟩

theorem short_stem {r : IntervalRecord} (h : BootName r.bootId) : Short (stem r) := by
  have hdays : r.startUtcMs.toNat / 1000 / 86400 < 2 ^ 40 := by
    have hlt := r.startUtcMs.toNat_lt
    omega
  obtain ⟨hyear, hmonth, hday⟩ := civilFromDays_lt hdays
  unfold stem
  split_ifs with huntrusted
  · have hinitial : (ascii "untrusted/").length = 10 ∧ 0 ∉ ascii "untrusted/" := by decide
    refine ⟨?_, ?_⟩
    · rw [List.length_append, hinitial.1]
      have := h.1
      omega
    · rw [List.mem_append, not_or]
      exact ⟨hinitial.2, h.2⟩
  · generalize civilFromDays (r.startUtcMs.toNat / 1000 / 86400) = date at *
    obtain ⟨year, month, day⟩ := date
    simp only at hyear hmonth hday ⊢
    obtain ⟨hy, hy0⟩ := padded_short (show 4 ≤ 20 by omega) hyear
    obtain ⟨hm, hm0⟩ := padded_short (show 2 ≤ 20 by omega) hmonth
    obtain ⟨hd, hd0⟩ := short_dateText hyear hmonth hday
    refine ⟨?_, ?_⟩
    · simp only [List.length_append, List.length_cons]
      omega
    · simp only [List.mem_append, List.mem_cons, not_or]
      exact ⟨hy0, by decide, hm0, by decide, hd0⟩

/-- The name of an event's day or boot. -/
def eventName (event : DeviceEvent) : Bytes := stem { startUtcMs := event.utcMs, bootId := event.bootId }

theorem eventPath_eq (event : DeviceEvent) : eventPath event = eventStem (eventName event) := by
  have h1 : ascii "/POWERMON/events/" = ascii "/POWERMON/" ++ (ascii "events" ++ [47]) := by
    decide
  have h2 : ascii "/untrusted/" = 47 :: ascii "untrusted/" := by decide
  unfold eventPath datedPath eventStem eventName stem
  generalize civilFromDays (event.utcMs.toNat / 1000 / 86400) = date
  obtain ⟨year, month, day⟩ := date
  rw [h1, h2]
  by_cases h0 : event.utcMs = 0
  · rw [if_pos h0, if_pos h0]; simp
  · rw [if_neg h0, if_neg h0]; simp

theorem short_eventName {event : DeviceEvent} (h : BootName event.bootId) : Short (eventName event) :=
  short_stem (r := { startUtcMs := event.utcMs, bootId := event.bootId }) h

/-! ### Readings and events -/

theorem neat_append {r : IntervalRecord} (h : BootName r.bootId) (binding : CardBinding) (ram : Ram) :
    (append j fingerprint r binding ram).All (Neat j) := by
  have hx := short_stem h
  have hrecord : Free j (recordPath r) := by
    rw [recordPath_eq]
    exact (free_record hx).1
  have hfinish (offset : ℕ) : (finishAppend j fingerprint r binding ram offset).All (Neat j) := by
    refine neat_of_within (FaultyOperations.all_finishAppend r offset) fun p hp => ?_
    rcases List.mem_cons.mp hp with rfl | hp
    · have hindex : Free j (indexStem (stem r) ++ []) := free_index hx List.mem_cons_self
      rwa [List.append_nil, ← indexPath_eq] at hindex
    · exact free_journalPaths hp
  have hbinding : (bindingHolds j fingerprint binding).All (Neat j) :=
    neat_of_within (all_bindingHolds [] binding) fun _ hp => absurd hp List.not_mem_nil
  unfold append
  refine all_ite trivial (.bind hbinding fun _ => all_ite trivial (.bind ((Prog.all_op _).mpr trivial) fun _ =>
    all_ite trivial (.bind hbinding fun _ => all_ite trivial ?_)))
  refine .bind ((Prog.all_op _).mpr trivial) fun _ => all_ite trivial (.bind ((Prog.all_op _).mpr hrecord) fun written => ?_)
  cases written with
  | none => trivial
  | some result => exact all_ite trivial (hfinish _)

theorem neat_appendEvent {event : DeviceEvent} (h : BootName event.bootId) (binding : CardBinding) (ram : EventRam) :
    (appendEvent j fingerprint event binding ram).All (Neat j) := by
  have hevent : Free j (eventPath event) := by
    rw [eventPath_eq]
    exact free_event (short_eventName h)
  have hjournals : Free j eventJournalTemporary ∧ Free j eventJournalPath :=
    ⟨free_journal (Or.inr (by decide)), free_journal (Or.inr (by decide))⟩
  have hpersist (n : ℕ) : (persistEventSequence n).All (Neat j) := by
    unfold persistEventSequence
    refine .bind ((Prog.all_op _).mpr hjournals.1.1) fun _ =>
      .bind ((Prog.all_op _).mpr ⟨hjournals.1.1, hjournals.1.2 _⟩) fun _ => all_ite ?_ ?_
    · exact .bind ((Prog.all_op _).mpr hjournals.1.1) fun _ => trivial
    · exact .bind ((Prog.all_op _).mpr hjournals.2.1) fun _ =>
        (Prog.all_op _).mpr ⟨hjournals.1.1, hjournals.2.1, fun content _ => hjournals.2.2 content⟩
  have hbinding : (bindingHolds j fingerprint binding).All (Neat j) :=
    neat_of_within (all_bindingHolds [] binding) fun _ hp => absurd hp List.not_mem_nil
  unfold appendEvent storeEvent
  refine all_ite trivial (.bind hbinding fun _ => all_ite trivial (.bind ((Prog.all_op _).mpr trivial) fun _ =>
    all_ite trivial ?_))
  refine .bind ((Prog.all_op _).mpr trivial) fun _ => all_ite trivial (.bind ((Prog.all_op _).mpr hevent) fun _ =>
    all_ite trivial (.bind (hpersist _) fun _ => trivial))

/-! ### Sidecars -/

theorem beside_metadata (path tail : Bytes) : Beside (metadataPath path ++ tail) :=
  beside_of_leading (metadata_leading path tail) (by decide)

theorem neat_persistSegmentMetadata (hm : Names m.recordPath m.indexPath) :
    (persistSegmentMetadata j m).All (Neat j) := by
  have htemporary := beside_metadata m.recordPath (ascii ".tmp")
  have htarget : Beside (metadataPath m.recordPath) := by
    have hbeside := beside_metadata m.recordPath []
    rwa [List.append_nil] at hbeside
  have hremove : (removeFile (metadataPath m.recordPath ++ ascii ".tmp")).All (Neat j) := (Prog.all_op _).mpr htemporary
  unfold persistSegmentMetadata
  refine .bind hremove fun _ => .bind ((Prog.all_op _).mpr ⟨htemporary, expected_sidecar hm (Or.inr rfl)⟩) fun _ =>
    all_ite (.bind hremove fun _ => trivial) (.bind ((Prog.all_op _).mpr trivial) fun _ =>
      all_ite (.bind hremove fun _ => trivial) (.bind ((Prog.all_op _).mpr htarget) fun _ => ?_))
  refine (Prog.all_op _).mpr ⟨htemporary, htarget, fun content hcontent => ?_⟩
  obtain ⟨-, m', hm', rfl⟩ := hcontent.sidecars (metadata_leading _ _)
  have hexpected : Expected j (metadataPath m.recordPath ++ []) (sidecarEnvelope j m') :=
    expected_sidecar hm' (Or.inl rfl)
  rwa [List.append_nil] at hexpected

/-! ### Indexes -/

theorem names_reading (hx : Short x) : Names (recordStem x) (pairedIndexPath (recordStem x)) :=
  ⟨x, hx, Or.inl ⟨rfl, pairedIndexPath_recordStem x⟩⟩

theorem indexPath_inspectLines (ls : List Bytes) : ∀ m : InspectedSegment,
    (inspectLines j ls m).indexPath = m.indexPath := by
  induction ls with
  | nil => exact fun m => rfl
  | cons line ls ih =>
    intro m
    unfold inspectLines
    split
    · rfl
    · exact ih _

/-- What an inspection finds is of the segment it inspects. -/
theorem names_inspectSegment (hx : Short x) (content index : Option Bytes) :
    Names (inspectSegment j (recordStem x) content index).recordPath
      (inspectSegment j (recordStem x) content index).indexPath := by
  have hindex : (inspectSegment j (recordStem x) content index).indexPath = pairedIndexPath (recordStem x) :=
    indexPath_inspectLines _ _
  rw [recordPath_inspectSegment, hindex]
  exact names_reading hx

theorem neat_stageRows {staged rest : Bytes} (hstaged : Free j staged) (ls : List Bytes) :
    ∀ rows, (stageRows j staged rest ls rows).All (Neat j) := by
  induction ls with
  | nil => exact fun rows => trivial
  | cons line ls ih =>
    intro rows
    unfold stageRows
    split
    · trivial
    · refine all_ite trivial (.bind ?_ fun written => all_ite trivial (ih _))
      unfold appendIndex
      exact .bind ((Prog.all_op _).mpr trivial) fun _ => all_ite trivial
        (all_ite trivial (.bind ((Prog.all_op _).mpr hstaged) fun _ => trivial))

theorem neat_rebuildIndex (hx : Short x) : (rebuildIndex j (recordStem x)).All (Neat j) := by
  have hindex : Free j (indexStem x) := by
    have hfree : Free j (indexStem x ++ []) := free_index hx List.mem_cons_self
    rwa [List.append_nil] at hfree
  have hstaged : Free j (stagedPath (indexStem x)) := free_index hx (by simp)
  have hbackup : Free j (backupPath (indexStem x)) := free_index hx (by simp)
  have hexists (p : Bytes) : (fileExists p).All (Neat j) := (Prog.all_op _).mpr trivial
  have hread (p : Bytes) : (readFile p).All (Neat j) := (Prog.all_op _).mpr trivial
  have hremove {p : Bytes} (hp : Free j p) : (removeFile p).All (Neat j) := (Prog.all_op _).mpr hp.1
  have hrename {p q : Bytes} (hp : Free j p) (hq : Free j q) : (renameFile p q).All (Neat j) :=
    (Prog.all_op _).mpr ⟨hp.1, hq.1, fun content _ => hq.2 content⟩
  have hclear {p : Bytes} (hp : Free j p) : (removeIfPresent p).All (Neat j) :=
    .bind (hexists p) fun _ => all_ite (hremove hp) trivial
  unfold rebuildIndex
  simp only [pairedIndexPath_recordStem]
  refine all_ite trivial (.bind ((Prog.all_op _).mpr trivial) fun _ => .bind (all_runIf ?_) fun _ =>
    .bind (all_runIf (hclear hstaged)) fun _ => .bind (all_runIf (hclear hbackup)) fun _ => all_ite trivial
      (.bind ?_ fun rows => ?_))
  · unfold restorePrevious
    exact .bind (hexists _) fun _ => .bind (all_runIf (hexists _)) fun _ => all_runIf (hrename hbackup hindex)
  · unfold stageIndex
    refine .bind (hread _) fun input => ?_
    cases input with
    | none => trivial
    | some content =>
      refine .bind (neat_stageRows hstaged _ _) fun rows => ?_
      cases rows with
      | none => trivial
      | some rows => exact all_ite trivial (.bind (hread _) fun _ => .bind (hread _) fun _ => trivial)
  · cases rows with
    | none => exact .bind (hremove hstaged) fun _ => trivial
    | some rows =>
      refine .bind (hexists _) fun hadIndex => .bind ?_ fun swapped => all_ite trivial ?_
      · unfold swapIndex
        refine .bind (all_runIf (hrename hindex hbackup)) fun _ => .bind (all_runIf (hrename hstaged hindex)) fun _ =>
          all_ite trivial (.bind (hremove hstaged) fun _ => .bind (all_runIf (hexists _)) fun _ => ?_)
        exact .bind (all_runIf (hrename hbackup hindex)) fun _ => trivial
      · unfold acceptIndex
        refine .bind (hread _) fun _ => .bind (hread _) fun _ => all_ite ?_ ?_
        · exact .bind (hremove hindex) fun _ => .bind (all_runIf (hrename hbackup hindex)) fun _ => trivial
        · exact .bind (neat_persistSegmentMetadata (names_inspectSegment hx _ _)) fun _ =>
            .bind (hremove hbackup) fun _ => trivial

theorem neat_rebuildAll (paths : List Bytes) (h : ∀ p ∈ paths, ∃ x, Short x ∧ p = recordStem x) :
    (rebuildAll j paths).All (Neat j) := by
  induction paths with
  | nil => trivial
  | cons p rest ih =>
    rw [List.forall_mem_cons] at h
    obtain ⟨⟨x, hx, rfl⟩, hrest⟩ := h
    exact .bind (neat_rebuildIndex hx) fun _ => .bind (ih hrest) fun _ => trivial

/-! ### Recovering -/

theorem neat_recoverFile (hx : Short x) (t : Tally) : (recoverFile j (recordStem x) t).All (Neat j) := by
  refine neat_of_within (all_recoverFile (recordStem x) t) fun p hp => ?_
  simp only [List.mem_cons, List.not_mem_nil, or_false] at hp
  rcases hp with rfl | rfl
  · exact (free_record hx).1
  · exact (free_record hx).2

theorem neat_recoverSegments (paths : List Bytes) (h : ∀ p ∈ paths, ∃ x, Short x ∧ p = recordStem x) (t : Tally) :
    (recoverSegments j paths t).All (Neat j) := by
  refine neat_of_within (FaultyRecovery.all_recoverSegments paths t) fun p hp => ?_
  rcases List.mem_append.mp hp with hp | hp
  · obtain ⟨x, hx, rfl⟩ := h p hp
    exact (free_record hx).1
  · obtain ⟨q, hq, rfl⟩ := List.mem_map.mp hp
    obtain ⟨x, hx, rfl⟩ := h q hq
    exact (free_record hx).2

/-- The listed files of readings have the names of days and boots. -/
theorem Files.records (h : Files j s) (hp : p ∈ collectFiles (ascii "/POWERMON/records/") (ascii ".pmr") s) :
    ∃ x, Short x ∧ p = recordStem x := by
  obtain ⟨hleading, hsuffix, hpresent⟩ := mem_collectFiles hp
  obtain ⟨content, hcontent⟩ := Option.ne_none_iff_exists'.mp hpresent
  obtain ⟨x, hx, rfl | rfl⟩ := (h p content hcontent).records hleading
  · exact ⟨x, hx, rfl⟩
  · exact absurd rfl (ne_of_suffix hsuffix (repair_suffix _) (by decide) (by decide) (by decide))

end PowerMonitor.Storage.Writers
