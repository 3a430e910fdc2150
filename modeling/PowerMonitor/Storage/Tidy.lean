import PowerMonitor.Lib.JsonSize
import PowerMonitor.Storage.EventLines
import PowerMonitor.Storage.RebuildIndexes
import PowerMonitor.Storage.ResetCleanup
import PowerMonitor.Storage.TornTail
import PowerMonitor.Storage.Trash

/-! # The files that the storage writes

Every writer of the storage has its own names for its files, its temporary files and its copies. `Expected`
says which file may be where, and with which content. An operation that keeps to this is `Neat`; so are those
of every writer, but for the transactions of retention. -/

namespace PowerMonitor.Storage.Tidy

open PowerMonitor.Lib.Binary PowerMonitor.Lib.Scan PowerMonitor.Lib.Json PowerMonitor.Lib.Program
open PowerMonitor.Storage.RecordFormat PowerMonitor.Storage.Reading PowerMonitor.Storage.Media
open PowerMonitor.Storage.Segment PowerMonitor.Storage.SdStorage PowerMonitor.Storage.Frames
open PowerMonitor.Storage.Layout PowerMonitor.Storage.Cleanup PowerMonitor.Storage.CleanupRecovery
open PowerMonitor.Storage.Inspection PowerMonitor.Storage.RebuildIndexes PowerMonitor.Storage.Trash
open PowerMonitor.Storage.Events (DeviceEvent EventRam eventPath appendEvent mountEvents eventJournalTemporary)
open PowerMonitor.Storage.ResetCleanup (exportFile)

/-! ### Names -/

/-- The name of a day or of a boot. -/
def Short (x : Bytes) : Prop := x.length ≤ 128 ∧ 0 ∉ x

/-- The name that a device gives to a boot. -/
def BootName (bootId : Bytes) : Prop := bootId.length ≤ 64 ∧ 0 ∉ bootId

/-- A segment of readings with its index, or of events. -/
def Names (recordPath indexPath : Bytes) : Prop := ∃ x, Short x ∧
  ((recordPath = recordStem x ∧ indexPath = indexStem x) ∨ (recordPath = eventStem x ∧ indexPath = []))

/-- **What may be found on a card**: files of readings and their repaired copies; indexes, staged ones and backups;
files of events; sidecars and their temporary files; exports; and the journal of a transaction. -/
structure Expected (j : JsonLibrary) (p content : Bytes) : Prop where
  records : ascii "/POWERMON/records/" <+: p → ∃ x, Short x ∧ (p = recordStem x ∨ p = repairPath (recordStem x))
  indexes : ascii "/POWERMON/indexes/" <+: p → ∃ x, Short x ∧
    ∃ tail ∈ [[], ascii ".rebuild", ascii ".previous"], p = indexStem x ++ tail
  events : ascii "/POWERMON/events/" <+: p → ∃ x, Short x ∧ p = eventStem x
  sidecars : ascii "/POWERMON/state/segments/" <+: p →
    (∃ path, p = metadataPath path ∨ p = metadataPath path ++ ascii ".tmp") ∧
      ∃ m : InspectedSegment, Names m.recordPath m.indexPath ∧ content = sidecarEnvelope j m
  exports : ascii "/POWERMON/exports/" <+: p → exportFile p = true
  journal : p = cleanupJournalPath ∨ p = cleanupTemporary → ∃ segment request stage,
    Names segment.recordPath segment.indexPath ∧ request.reason.length ≤ 64 ∧
      content = journalLine j segment request stage

/-- Every file on the card is expected. -/
def Files (j : JsonLibrary) (s : Card) : Prop := ∀ p content, s.lookup p = some content → Expected j p content

/-- The file may hold anything, and is neither a journal of a transaction nor in the trash. -/
def Free (j : JsonLibrary) (path : Bytes) : Prop := Beside path ∧ ∀ content, Expected j path content

/-- The operation writes expected files only, and touches neither the journal of a transaction nor the trash. -/
def Neat (j : JsonLibrary) : Op → Prop
  | .append path _ => Free j path
  | .write path content => Beside path ∧ Expected j path content
  | .remove path => Beside path
  | .rename source target => Beside source ∧ Beside target ∧
      ∀ content, Expected j source content → Expected j target content
  | _ => True

variable {j : JsonLibrary} {fingerprint : Bytes} {x path p content : Bytes} {s s' : Card} {m : InspectedSegment}

/-! ### Where the files are -/

/-- The places where a file is expected to be one of certain. -/
def watched : List Bytes :=
  [ascii "/POWERMON/records/", ascii "/POWERMON/indexes/", ascii "/POWERMON/events/", ascii "/POWERMON/state/segments/",
    ascii "/POWERMON/exports/", ascii "/POWERMON/state/retention.journal"]

/-- A path in a directory is in no other. -/
theorem not_watched {directory : Bytes} (hpath : directory <+: p) {other : Bytes}
    (h : directory.isPrefixOf other = false ∧ other.isPrefixOf directory = false) : ¬ other <+: p := by
  refine not_prefix_of_prefix hpath ?_ ?_
  · rw [← List.isPrefixOf_iff_prefix, h.1]
    simp
  · rw [← List.isPrefixOf_iff_prefix, h.2]
    simp

theorem journal_watched (h : p = cleanupJournalPath ∨ p = cleanupTemporary) :
    ascii "/POWERMON/state/retention.journal" <+: p := by
  rcases h with rfl | rfl
  · exact List.prefix_rfl
  · exact List.prefix_append _ _

/-- Elsewhere a file may hold anything. -/
theorem expected_elsewhere {directory : Bytes} (hpath : directory <+: p)
    (h : ∀ other ∈ watched, directory.isPrefixOf other = false ∧ other.isPrefixOf directory = false) :
    Expected j p content := by
  have hnot (other : Bytes) (hother : other ∈ watched) : ¬ other <+: p := not_watched hpath (h other hother)
  constructor
  · exact fun hp => absurd hp (hnot _ (by simp [watched]))
  · exact fun hp => absurd hp (hnot _ (by simp [watched]))
  · exact fun hp => absurd hp (hnot _ (by simp [watched]))
  · exact fun hp => absurd hp (hnot _ (by simp [watched]))
  · exact fun hp => absurd hp (hnot _ (by simp [watched]))
  · exact fun hp => absurd (journal_watched hp) (hnot _ (by simp [watched]))

theorem expected_record (hx : Short x) (hp : p = recordStem x ∨ p = repairPath (recordStem x)) : Expected j p content := by
  have hpath : ascii "/POWERMON/records/" <+: p := by
    rcases hp with rfl | rfl
    · exact List.prefix_append _ _
    · rw [repairPath, recordStem, List.append_assoc]
      exact List.prefix_append _ _
  constructor
  · exact fun _ => ⟨x, hx, hp⟩
  · exact fun h => absurd h (not_watched hpath (by decide))
  · exact fun h => absurd h (not_watched hpath (by decide))
  · exact fun h => absurd h (not_watched hpath (by decide))
  · exact fun h => absurd h (not_watched hpath (by decide))
  · exact fun h => absurd (journal_watched h) (not_watched hpath (by decide))

theorem expected_index (hx : Short x) {tail : Bytes} (htail : tail ∈ [[], ascii ".rebuild", ascii ".previous"]) :
    Expected j (indexStem x ++ tail) content := by
  have hpath : ascii "/POWERMON/indexes/" <+: indexStem x ++ tail := by
    rw [indexStem, List.append_assoc]
    exact List.prefix_append _ _
  constructor
  · exact fun h => absurd h (not_watched hpath (by decide))
  · exact fun _ => ⟨x, hx, tail, htail, rfl⟩
  · exact fun h => absurd h (not_watched hpath (by decide))
  · exact fun h => absurd h (not_watched hpath (by decide))
  · exact fun h => absurd h (not_watched hpath (by decide))
  · exact fun h => absurd (journal_watched h) (not_watched hpath (by decide))

theorem expected_event (hx : Short x) : Expected j (eventStem x) content := by
  have hpath : ascii "/POWERMON/events/" <+: eventStem x := List.prefix_append _ _
  constructor
  · exact fun h => absurd h (not_watched hpath (by decide))
  · exact fun h => absurd h (not_watched hpath (by decide))
  · exact fun _ => ⟨x, hx, rfl⟩
  · exact fun h => absurd h (not_watched hpath (by decide))
  · exact fun h => absurd h (not_watched hpath (by decide))
  · exact fun h => absurd (journal_watched h) (not_watched hpath (by decide))

theorem metadata_leading (path tail : Bytes) : ascii "/POWERMON/state/segments/" <+: metadataPath path ++ tail := by
  rw [metadataPath, List.append_assoc]
  exact List.prefix_append _ _

theorem expected_sidecar (hm : Names m.recordPath m.indexPath) {tail : Bytes} (htail : tail = [] ∨ tail = ascii ".tmp") :
    Expected j (metadataPath path ++ tail) (sidecarEnvelope j m) := by
  have hpath := metadata_leading path tail
  constructor
  · exact fun h => absurd h (not_watched hpath (by decide))
  · exact fun h => absurd h (not_watched hpath (by decide))
  · exact fun h => absurd h (not_watched hpath (by decide))
  · refine fun _ => ⟨⟨path, ?_⟩, m, hm, rfl⟩
    rcases htail with rfl | rfl
    · exact Or.inl (List.append_nil _)
    · exact Or.inr rfl
  · exact fun h => absurd h (not_watched hpath (by decide))
  · exact fun h => absurd (journal_watched h) (not_watched hpath (by decide))

theorem expected_journal {segment : CleanupSegment} {request : CleanupRequest} (stage : Stage)
    (hnames : Names segment.recordPath segment.indexPath) (hreason : request.reason.length ≤ 64)
    (hp : p = cleanupJournalPath ∨ p = cleanupTemporary) : Expected j p (journalLine j segment request stage) := by
  have hpath := journal_watched hp
  constructor
  · exact fun h => absurd h (not_watched hpath (by decide))
  · exact fun h => absurd h (not_watched hpath (by decide))
  · exact fun h => absurd h (not_watched hpath (by decide))
  · exact fun h => absurd h (not_watched hpath (by decide))
  · exact fun h => absurd h (not_watched hpath (by decide))
  · exact fun _ => ⟨segment, request, stage, hnames, hreason, rfl⟩

/-! ### Files that may hold anything -/

theorem free_record (hx : Short x) : Free j (recordStem x) ∧ Free j (repairPath (recordStem x)) := by
  have hleading : ascii "/POWERMON/records/" <+: repairPath (recordStem x) := by
    rw [repairPath, recordStem, List.append_assoc]
    exact List.prefix_append _ _
  exact ⟨⟨beside_of_leading (List.prefix_append _ _) (by decide), fun _ => expected_record hx (Or.inl rfl)⟩,
    beside_of_leading hleading (by decide), fun _ => expected_record hx (Or.inr rfl)⟩

theorem free_index (hx : Short x) {tail : Bytes} (htail : tail ∈ [[], ascii ".rebuild", ascii ".previous"]) :
    Free j (indexStem x ++ tail) := by
  have hleading : ascii "/POWERMON/indexes/" <+: indexStem x ++ tail := by
    rw [indexStem, List.append_assoc]
    exact List.prefix_append _ _
  exact ⟨beside_of_leading hleading (by decide), fun _ => expected_index hx htail⟩

theorem free_event (hx : Short x) : Free j (eventStem x) :=
  ⟨beside_of_leading (List.prefix_append _ _) (by decide), fun _ => expected_event hx⟩

/-- The journals of sequences. -/
theorem free_journal (hp : (ascii "/POWERMON/state/sequence").isPrefixOf p = true ∨
    (ascii "/POWERMON/state/event-sequence").isPrefixOf p = true) : Free j p := by
  rcases hp with hp | hp
  · have hleading := List.isPrefixOf_iff_prefix.mp hp
    exact ⟨beside_of_leading hleading (by decide), fun _ => expected_elsewhere hleading (by decide)⟩
  · have hleading := List.isPrefixOf_iff_prefix.mp hp
    exact ⟨beside_of_leading hleading (by decide), fun _ => expected_elsewhere hleading (by decide)⟩

theorem free_journalPaths (hp : p ∈ journalPaths) : Free j p := by
  have hall : ∀ q ∈ journalPaths, (ascii "/POWERMON/state/sequence").isPrefixOf q = true := by decide
  exact free_journal (Or.inl (hall p hp))

/-- A program that writes only such files. -/
theorem neat_of_within {α : Type} {paths : List Bytes} {q : CardProg α} (hq : q.All (Op.Within paths))
    (hfree : ∀ p ∈ paths, Free j p) : q.All (Neat j) := by
  refine hq.mono fun o ho => ?_
  cases o with
  | append path content => exact hfree path ho
  | write path content => exact ⟨(hfree path ho).1, (hfree path ho).2 content⟩
  | remove path => exact (hfree path ho).1
  | rename source target =>
    exact ⟨(hfree source ho.1).1, (hfree target ho.2).1, fun content _ => (hfree target ho.2).2 content⟩
  | _ => trivial

/-! ### What a neat operation keeps -/

theorem Neat.besideOp {o : Op} (ho : Neat j o) : BesideOp o := by
  cases o with
  | append path content => exact ho.1
  | write path content => exact ho.1
  | remove path => exact ho
  | rename source target => exact ⟨ho.1, ho.2.1⟩
  | _ => trivial

theorem Files.insert (h : Files j s) (hcontent : Expected j path content) : Files j (s.insert path content) := by
  intro p c hp
  by_cases heq : p = path
  · subst heq
    rw [AList.lookup_insert, Option.some.injEq] at hp
    exact hp ▸ hcontent
  · rw [AList.lookup_insert_ne heq] at hp
    exact h p c hp

theorem Files.erase (h : Files j s) (path : Bytes) : Files j (s.erase path) := by
  intro p c hp
  by_cases heq : p = path
  · rw [heq, AList.lookup_erase] at hp
    cases hp
  · rw [AList.lookup_erase_ne heq] at hp
    exact h p c hp

theorem Files.act (h : Files j s) {o : Op} (ho : Neat j o) {e : Event} (he : Calm o e s) :
    Files j (device.act o e s).1 := by
  cases o with
  | append path content =>
    simp only [device]
    split_ifs
    · exact h
    · exact h.insert (ho.2 _)
  | write path content =>
    rcases he with rfl | ⟨n, rfl⟩
    · exact h.insert ho.2
    · exact h.insert ho.2
  | remove path =>
    simp only [device]
    split_ifs
    · exact h
    · exact h.erase path
  | rename source target =>
    simp only [device]
    split
    · exact h
    · next content hcontent =>
      split_ifs
      · exact h
      · exact (h.erase source).insert (ho.2.2 content (h source content hcontent))
  | _ => exact h

end PowerMonitor.Storage.Tidy
