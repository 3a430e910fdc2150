import PowerMonitor.Storage.SdStorage

/-! # The files an operation may change

Each operation changes the files it names, whatever fails (`Op.Within`): the journals, the file and the
index of the record that is appended, a file that is repaired and its copy. The names of these files end
differently, so they are different files (`ne_of_suffix`).

`Calm` admits the runs in which nothing fails. -/

namespace PowerMonitor.Storage.Frames

open PowerMonitor.Lib.Binary PowerMonitor.Lib.Scan PowerMonitor.Lib.Program PowerMonitor.Lib.Json
open PowerMonitor.Storage.Reading PowerMonitor.Storage.Media PowerMonitor.Storage.Segment
open PowerMonitor.Storage.SdStorage

/-! ### Names -/

/-- Paths whose last four bytes differ. -/
theorem ne_of_suffix {s s' p p' : Bytes} (hp : s <:+ p) (hp' : s' <:+ p')
    (h : s.reverse.take 4 ≠ s'.reverse.take 4) (hs : 4 ≤ s.length) (hs' : 4 ≤ s'.length) : p ≠ p' := by
  rintro rfl
  obtain ⟨t, rfl⟩ := hp
  obtain ⟨t', ht⟩ := hp'
  have := congrArg (fun l => l.reverse.take 4) ht
  simp only [List.reverse_append] at this
  rw [List.take_append_of_le_length (by simpa using hs'), List.take_append_of_le_length (by simpa using hs)]
    at this
  exact h this.symm

def journalPaths : List Bytes := [journalPath, journalTemporary, journalBackup]

theorem pmr_suffix {path : Bytes} (h : isRecordFile path = true) : ascii ".pmr" <:+ path := by
  simp only [isRecordFile, Bool.and_eq_true, List.isSuffixOf_iff_suffix] at h
  exact h.2

theorem metadata_suffix (path : Bytes) : ascii ".json" <:+ metadataPath path :=
  ⟨ascii "/POWERMON/state/segments/" ++ pathToken path, by simp [metadataPath]⟩

theorem repair_suffix (path : Bytes) : ascii ".repair" <:+ repairPath path := ⟨path, rfl⟩

theorem index_suffix (path : Bytes) : pairedIndexPath path = [] ∨ ascii ".idx" <:+ pairedIndexPath path := by
  unfold pairedIndexPath
  split
  · exact Or.inl rfl
  · split_ifs
    · exact Or.inl rfl
    · exact Or.inr (List.suffix_append _ _)

theorem journal_suffix {path : Bytes} (h : path ∈ journalPaths) :
    ascii ".journal" <:+ path ∨ ascii ".tmp" <:+ path ∨ ascii ".bak" <:+ path := by
  simp only [journalPaths, List.mem_cons, List.not_mem_nil, or_false] at h
  rcases h with rfl | rfl | rfl
  · exact Or.inl ⟨ascii "/POWERMON/state/sequence", by decide⟩
  · exact Or.inr (Or.inl ⟨ascii "/POWERMON/state/sequence.journal", by decide⟩)
  · exact Or.inr (Or.inr ⟨ascii "/POWERMON/state/sequence.journal", by decide⟩)

/-- A path that ends otherwise is not a journal. -/
theorem notMem_journalPaths {s path : Bytes} (hs : s <:+ path) (hlen : 4 ≤ s.length)
    (h1 : s.reverse.take 4 ≠ (ascii ".journal").reverse.take 4)
    (h2 : s.reverse.take 4 ≠ (ascii ".tmp").reverse.take 4)
    (h3 : s.reverse.take 4 ≠ (ascii ".bak").reverse.take 4) : path ∉ journalPaths := by
  intro h
  rcases journal_suffix h with h | h | h
  · exact ne_of_suffix hs h h1 hlen (by decide) rfl
  · exact ne_of_suffix hs h h2 hlen (by decide) rfl
  · exact ne_of_suffix hs h h3 hlen (by decide) rfl

theorem nil_notMem_journalPaths : [] ∉ journalPaths := by decide

theorem record_notMem_journalPaths {path : Bytes} (h : isRecordFile path = true) : path ∉ journalPaths :=
  notMem_journalPaths (pmr_suffix h) (by decide) (by decide) (by decide)
    (by decide)

theorem metadata_notMem_journalPaths (path : Bytes) : metadataPath path ∉ journalPaths :=
  notMem_journalPaths (metadata_suffix path) (by decide) (by decide) (by decide)
    (by decide)

theorem index_notMem_journalPaths (path : Bytes) : pairedIndexPath path ∉ journalPaths := by
  rcases index_suffix path with h | h
  · rw [h]; exact nil_notMem_journalPaths
  · exact notMem_journalPaths h (by decide) (by decide) (by decide)
      (by decide)

theorem repair_ne_record {path other : Bytes} (h : isRecordFile path = true) : path ≠ repairPath other :=
  ne_of_suffix (pmr_suffix h) (repair_suffix other) (by decide) (by decide)
    (by decide)

theorem repair_ne_self (path : Bytes) : repairPath path ≠ path := by
  intro h
  have := congrArg List.length h
  simp [repairPath, show (ascii ".repair").length = 7 by decide] at this

/-- The sidecar and the index of a segment are not files of readings, nor repaired copies. -/
theorem metadata_ne {path other : Bytes} (h : isRecordFile other = true) :
    metadataPath path ≠ other ∧ metadataPath path ≠ repairPath other :=
  ⟨ne_of_suffix (metadata_suffix path) (pmr_suffix h) (by decide) (by decide)
    (by decide), ne_of_suffix (metadata_suffix path) (repair_suffix other) (by decide)
    (by decide) (by decide)⟩

theorem index_ne {path other : Bytes} (h : isRecordFile other = true) :
    pairedIndexPath path ≠ other ∧ pairedIndexPath path ≠ repairPath other := by
  rcases index_suffix path with hnil | hidx
  · rw [hnil]
    constructor
    · rintro rfl; exact absurd h (by decide)
    · intro heq
      have := congrArg List.length heq
      simp [repairPath, show (ascii ".repair").length = 7 by decide] at this
  · exact ⟨ne_of_suffix hidx (pmr_suffix h) (by decide) (by decide) (by decide),
      ne_of_suffix hidx (repair_suffix other) (by decide) (by decide) (by decide)⟩

/-! ### Programs -/

variable {j : JsonLibrary} {fingerprint : Bytes}

theorem all_ite {α : Type} {P : Op → Prop} {c : Prop} [Decidable c] {p q : CardProg α} (hp : p.All P)
    (hq : q.All P) : (if c then p else q).All P := by
  split_ifs
  · exact hp
  · exact hq

theorem all_runIf {P : Op → Prop} {c otherwise : Bool} {p : CardProg Bool} (hp : p.All P) :
    (runIf c p otherwise).All P := all_ite hp trivial

theorem wp_runIf {A : Op → Event → Card → Prop} {C : Card → Prop} {c otherwise : Bool} {p : CardProg Bool}
    {Q : Bool → Card → Prop} {s : Card} (hp : c = true → wp device A C p Q s) (hotherwise : c = false → Q otherwise s) :
    wp device A C (runIf c p otherwise) Q s := by
  unfold runIf
  cases c with
  | false => exact (wp_pure ..).mpr (hotherwise rfl)
  | true => exact hp rfl

theorem all_bindingHolds (paths : List Bytes) (binding : CardBinding) :
    (bindingHolds j fingerprint binding).All (Op.Within paths) := by
  unfold bindingHolds currentCardManifestMatchesReset
  exact all_ite trivial (.bind ((Prog.all_op _).mpr trivial) fun present =>
    all_ite trivial (.bind ((Prog.all_op _).mpr trivial) fun _ => trivial))

/-- The operations by which a sequence is persisted. -/
def JournalOp (n : ℕ) : Op → Prop
  | .write path content => path ∈ journalPaths ∧ content = decimal n ++ [10]
  | .read path | .exists path | .remove path => path ∈ journalPaths
  | .rename source target => source ∈ journalPaths ∧ target ∈ journalPaths
  | _ => False

theorem JournalOp.within {n : ℕ} : ∀ o, JournalOp n o → o.Within journalPaths
  | .append _ _, h | .ensureDirectory _, h | .freeBytes, h | .list _ _, h => h.elim
  | .write _ _, h => h.1
  | .remove _, h => h
  | .rename _ _, h => h
  | .read _, _ | .exists _, _ => trivial

theorem journal_loadSequenceJournal {n : ℕ} {path : Bytes} (h : path ∈ journalPaths) :
    (loadSequenceJournal path).All (JournalOp n) :=
  .bind ((Prog.all_op _).mpr h) fun _ => trivial

theorem journal_remove {n : ℕ} {path : Bytes} (h : path ∈ journalPaths) :
    (removeFile path).All (JournalOp n) := (Prog.all_op _).mpr h

theorem journal_rename {n : ℕ} {source target : Bytes} (h : source ∈ journalPaths)
    (h' : target ∈ journalPaths) : (renameFile source target).All (JournalOp n) := (Prog.all_op _).mpr ⟨h, h'⟩

theorem journal_removeIfPresent {n : ℕ} {path : Bytes} (h : path ∈ journalPaths) :
    (removeIfPresent path).All (JournalOp n) :=
  .bind ((Prog.all_op _).mpr h) fun _ => all_ite (journal_remove h) trivial

theorem mem_journalPaths : journalPath ∈ journalPaths ∧ journalTemporary ∈ journalPaths ∧
    journalBackup ∈ journalPaths := by simp [journalPaths]

theorem journal_restoreBackup {n : ℕ} (hadTarget : Bool) :
    (restoreBackup hadTarget).All (JournalOp n) := by
  unfold restoreBackup
  exact all_ite (.bind (journal_rename mem_journalPaths.2.2 mem_journalPaths.1) fun _ => trivial) trivial

theorem journal_discardTemporary {n : ℕ} : discardTemporary.All (JournalOp n) :=
  .bind (journal_remove mem_journalPaths.2.1) fun _ => trivial

theorem journal_installSequence {n : ℕ} (m : ℕ) : (installSequence m).All (JournalOp n) := by
  unfold installSequence
  refine .bind ((Prog.all_op _).mpr mem_journalPaths.1) fun hadTarget => ?_
  refine .bind (all_runIf (journal_rename mem_journalPaths.1 mem_journalPaths.2.2)) fun backed =>
    all_ite journal_discardTemporary ?_
  refine .bind (journal_rename mem_journalPaths.2.1 mem_journalPaths.1) fun renamed =>
    all_ite (journal_restoreBackup hadTarget) (.bind (journal_loadSequenceJournal mem_journalPaths.1)
      fun installed => ?_)
  exact all_ite (.bind (journal_remove mem_journalPaths.2.2) fun _ => trivial)
    (.bind (journal_remove mem_journalPaths.1) fun _ => journal_restoreBackup hadTarget)

/-- Persisting a sequence writes it to a journal, and removes and renames journals. -/
theorem journal_persistSequence (n : ℕ) : (persistSequence n).All (JournalOp n) := by
  unfold persistSequence
  refine .bind (journal_removeIfPresent mem_journalPaths.2.1) fun cleared => all_ite trivial ?_
  refine .bind ((Prog.all_op _).mpr ⟨mem_journalPaths.2.1, rfl⟩) fun written =>
    all_ite journal_discardTemporary (.bind (journal_loadSequenceJournal mem_journalPaths.2.1) fun verified =>
      all_ite journal_discardTemporary (.bind (journal_removeIfPresent mem_journalPaths.2.2) fun unbacked =>
        all_ite journal_discardTemporary (journal_installSequence n)))

theorem all_persistSequence (n : ℕ) : (persistSequence n).All (Op.Within journalPaths) :=
  (journal_persistSequence n).mono JournalOp.within

/-- No journal holds the last sequence there is. -/
def JournalsBelow (card : Card) : Prop :=
  ∀ path ∈ journalPaths, (card.lookup path).bind parseJournal ≠ some (2 ^ 64 - 1)

/-- Only journals changed, and none came to hold the last sequence. -/
structure Journaled (card card' : Card) : Prop where
  same : SameExcept journalPaths card card'
  below : JournalsBelow card → JournalsBelow card'

theorem Journaled.refl (card : Card) : Journaled card card := ⟨SameExcept.refl _ _, id⟩

theorem all_repairFile (path : Bytes) (validEnd : ℕ) :
    (repairFile path validEnd).All (Op.Within [path, repairPath path]) := by
  unfold repairFile
  refine .bind ((Prog.all_op _).mpr (by simp [Op.Within])) fun _ => .bind ((Prog.all_op _).mpr trivial)
    fun source => .bind ((Prog.all_op _).mpr (by simp [Op.Within])) fun written => all_ite ?_ ?_
  · exact .bind ((Prog.all_op _).mpr (by simp [Op.Within])) fun _ => trivial
  · refine .bind ((Prog.all_op _).mpr (by simp [Op.Within])) fun removed => all_ite trivial ?_
    exact .bind ((Prog.all_op _).mpr (by simp [Op.Within])) fun _ => trivial

theorem all_recoverFile (path : Bytes) (t : Tally) :
    (recoverFile j path t).All (Op.Within [path, repairPath path]) := by
  unfold recoverFile
  refine .bind ((Prog.all_op _).mpr trivial) fun content => ?_
  cases content with
  | none => trivial
  | some content =>
    simp only
    split
    · exact .bind (all_repairFile path _) fun _ => trivial
    · trivial

/-- Recovering a segment changes its file and the repaired copy. -/
theorem all_recoverSegment (t : Tally) (path : Bytes) :
    (recoverSegment j t path).All (Op.Within [path, repairPath path]) := by
  unfold recoverSegment
  refine .bind ((Prog.all_op _).mpr trivial) fun sidecar => .bind ((Prog.all_op _).mpr trivial)
    fun record => .bind ((Prog.all_op _).mpr trivial) fun index => ?_
  split
  · exact all_recoverFile path t
  · exact all_ite trivial (all_recoverFile path t)

/-! ### Runs in which nothing fails -/

/-- Nothing fails. -/
def Calm (_ : Op) (e : Event) (_ : Card) : Prop := e = .done ∨ ∃ bytes, e = .free bytes

variable {C : Card → Prop} {card : Card} {path content : Bytes}

theorem calm_readFile {Q : Option Bytes → Card → Prop} (hC : C card) (h : Q (card.lookup path) card) :
    wp device Calm C (readFile path) Q card := by
  refine (wp_op _ _ _).mpr ⟨hC, fun e he => ?_⟩
  rcases he with rfl | ⟨n, rfl⟩ <;> exact h

theorem calm_fileExists {Q : Bool → Card → Prop} (hC : C card) (h : Q (card.lookup path).isSome card) :
    wp device Calm C (fileExists path) Q card := by
  refine (wp_op _ _ _).mpr ⟨hC, fun e he => ?_⟩
  rcases he with rfl | ⟨n, rfl⟩ <;> simpa [device] using h

theorem calm_removeFile {Q : Bool → Card → Prop} (hC : C card)
    (h : Q (card.lookup path).isSome (card.erase path)) :
    wp device Calm C (removeFile path) Q card := by
  refine (wp_op _ _ _).mpr ⟨hC, fun e he => ?_⟩
  have herase : card.lookup path = none → card.erase path = card := fun hnone => by
    refine AList.ext ?_
    exact List.kerase_of_notMem_keys (by
      rw [← AList.keys, ← AList.mem_keys, ← AList.lookup_isSome, hnone]; simp)
  rcases he with rfl | ⟨n, rfl⟩ <;>
  · simp only [device]
    cases hl : card.lookup path with
    | none => rw [herase hl, hl] at h; simpa using h
    | some content => rw [hl] at h; simpa using h

theorem calm_renameFile {Q : Bool → Card → Prop} {source target : Bytes} (hC : C card)
    (hsource : card.lookup source = some content) (htarget : card.lookup target = none)
    (h : Q true ((card.erase source).insert target content)) :
    wp device Calm C (renameFile source target) Q card := by
  refine (wp_op _ _ _).mpr ⟨hC, fun e he => ?_⟩
  rcases he with rfl | ⟨n, rfl⟩ <;> simpa [device, hsource, htarget] using h

theorem calm_writeFile {Q : Option ℕ → Card → Prop} (hC : C card)
    (h : Q (some content.length) (card.insert path content)) :
    wp device Calm C (writeFile path content) Q card := by
  refine (wp_op _ _ _).mpr ⟨hC, fun e he => ?_⟩
  rcases he with rfl | ⟨n, rfl⟩ <;> simpa [device, written] using h

theorem calm_appendFile {Q : Option (ℕ × ℕ) → Card → Prop} (hC : C card)
    (h : Q (some (((card.lookup path).getD []).length, content.length))
      (card.insert path ((card.lookup path).getD [] ++ content))) :
    wp device Calm C (appendFile path content) Q card := by
  refine (wp_op _ _ _).mpr ⟨hC, fun e he => ?_⟩
  rcases he with rfl | ⟨n, rfl⟩ <;> simpa [device, written] using h

theorem calm_ensureDirectory {Q : Bool → Card → Prop} (hC : C card) (h : Q true card) :
    wp device Calm C (ensureDirectory path) Q card := by
  refine (wp_op _ _ _).mpr ⟨hC, fun e he => ?_⟩
  rcases he with rfl | ⟨n, rfl⟩ <;> simpa [device] using h

theorem calm_freeBytes {Q : ℕ → Card → Prop} (hC : C card) (h : ∀ n, Q n card) :
    wp device Calm C freeBytes Q card :=
  (wp_op _ _ _).mpr ⟨hC, fun _ _ => h _⟩

theorem calm_listFiles {Q : List Bytes → Card → Prop} {directory suffix : Bytes} (hC : C card)
    (h : Q (collectFiles directory suffix card) card) :
    wp device Calm C (listFiles directory suffix) Q card := by
  refine (wp_op _ _ _).mpr ⟨hC, fun e he => ?_⟩
  rcases he with rfl | ⟨n, rfl⟩ <;> simpa [device] using h

end PowerMonitor.Storage.Frames
