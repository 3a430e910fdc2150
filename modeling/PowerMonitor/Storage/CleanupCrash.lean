import PowerMonitor.Storage.CleanupRecovery

/-! # A loss of power while a segment is removed

The transaction has one run without failures, and the power may be lost at any of its calls, a write then
being cut short. What is on the card is described by the two copies of the journal and the places of the
record and of the index (`view`). It is recovered whenever the journal that is found fits the places
(`recovers_of_fits`), which is so at every call but one: while the first journal is written its temporary
file is the only copy, and a part of it takes the place of the journal before anything is read. -/

namespace PowerMonitor.Storage.CleanupCrash

open PowerMonitor.Lib.Binary PowerMonitor.Lib.Lines PowerMonitor.Lib.Json PowerMonitor.Lib.Program
open PowerMonitor.Lib.Steady
open PowerMonitor.Storage.RecordFormat PowerMonitor.Storage.Reading PowerMonitor.Storage.Media
open PowerMonitor.Storage.Segment PowerMonitor.Storage.SdStorage PowerMonitor.Storage.Frames
open PowerMonitor.Storage.Layout PowerMonitor.Storage.Cleanup PowerMonitor.Storage.CleanupRecovery

/-! ### What is on the card -/

/-- Where a file of the segment is. -/
inductive Place
  | home
  | trash
  | removed
  deriving DecidableEq

/-- The six files, by the copies of the journal and the places of the record and of the index. -/
def view (record index : Bytes) (journal temporary : Option Bytes) (recordPlace indexPlace : Place) :
    Role → Option Bytes
  | .journal => journal
  | .temporary => temporary
  | .record => if recordPlace = .home then some record else none
  | .recordTrash => if recordPlace = .trash then some record else none
  | .index => if indexPlace = .home then some index else none
  | .indexTrash => if indexPlace = .trash then some index else none

/-- The copies beside the record and the index that a mount settles. -/
def Settled (segment : CleanupSegment) (s : Card) : Prop :=
  s.lookup (segment.recordPath ++ ascii ".repair") = none ∧
    (segment.hasIndex = true → s.lookup (segment.indexPath ++ ascii ".previous") = none)

structure Scene (segment : CleanupSegment) (s : Card) (v : Role → Option Bytes) : Prop where
  sees : Sees segment s v
  settled : Settled segment s

variable {j : JsonLibrary} {segment : CleanupSegment} {request : CleanupRequest} {s s' : Card}
variable {v : Role → Option Bytes} {role role' : Role} {content record index : Bytes}
variable {journal temporary : Option Bytes} {recordPlace indexPlace : Place}

@[simp] theorem update_journal (x : Option Bytes) :
    Function.update (view record index journal temporary recordPlace indexPlace) .journal x =
      view record index x temporary recordPlace indexPlace := by
  funext role
  cases role <;> rfl

@[simp] theorem update_temporary (x : Option Bytes) :
    Function.update (view record index journal temporary recordPlace indexPlace) .temporary x =
      view record index journal x recordPlace indexPlace := by
  funext role
  cases role <;> rfl

theorem move_record :
    Function.update (Function.update (view record index journal temporary .home indexPlace) .record none)
      .recordTrash (some record) = view record index journal temporary .trash indexPlace := by
  funext role
  cases role <;> rfl

theorem move_index :
    Function.update (Function.update (view record index journal temporary recordPlace .home) .index none)
      .indexTrash (some index) = view record index journal temporary recordPlace .trash := by
  funext role
  cases role <;> rfl

theorem remove_record :
    Function.update (view record index journal temporary .trash indexPlace) .recordTrash none =
      view record index journal temporary .removed indexPlace := by
  funext role
  cases role <;> rfl

theorem remove_index :
    Function.update (view record index journal temporary recordPlace .trash) .indexTrash none =
      view record index journal temporary recordPlace .removed := by
  funext role
  cases role <;> rfl

/-! ### The calls of a transaction -/

/-- The files that a transaction changes. -/
def transactionPaths (segment : CleanupSegment) : List Bytes :=
  [cleanupJournalPath, cleanupTemporary, segment.recordPath, segment.indexPath, recordTrash segment,
    indexTrash segment, metadataPath segment.recordPath]

theorem mem_transactionPaths {p : Bytes} (hp : p ∈ transactionPaths segment) :
    p = [] ∨ p = metadataPath segment.recordPath ∨ ∃ role : Role, role.Relevant segment ∧ p = role.path segment := by
  simp only [transactionPaths, List.mem_cons, List.not_mem_nil, or_false] at hp
  have hempty : segment.hasIndex = false → segment.indexPath = [] := by simp [CleanupSegment.hasIndex]
  rcases hp with rfl | rfl | rfl | rfl | rfl | rfl | rfl
  · exact Or.inr (Or.inr ⟨.journal, trivial, rfl⟩)
  · exact Or.inr (Or.inr ⟨.temporary, trivial, rfl⟩)
  · exact Or.inr (Or.inr ⟨.record, trivial, rfl⟩)
  · cases hhas : segment.hasIndex with
    | true => exact Or.inr (Or.inr ⟨.index, hhas, rfl⟩)
    | false => exact Or.inl (hempty hhas)
  · exact Or.inr (Or.inr ⟨.recordTrash, trivial, rfl⟩)
  · cases hhas : segment.hasIndex with
    | true => exact Or.inr (Or.inr ⟨.indexTrash, hhas, rfl⟩)
    | false => exact Or.inl (by simp [indexTrash, hempty hhas])
  · exact Or.inr (Or.inl rfl)

/-- A copy beside a file is not one of these files. -/
theorem beside_notMem (h : Removable j segment request) (p : Bytes) {suffix : Bytes}
    (hlong : 4 ≤ suffix.length) (hjson : (ascii ".json").reverse.take 4 ≠ suffix.reverse.take 4)
    (hroles : ∀ role : Role, (role.ending segment.hasIndex).reverse.take 4 ≠ suffix.reverse.take 4) :
    p ++ suffix ∉ transactionPaths segment := by
  intro hmem
  have hsuffix : suffix <:+ p ++ suffix := List.suffix_append _ _
  rcases mem_transactionPaths hmem with heq | heq | ⟨role, hrole, heq⟩
  · have hlength := congrArg List.length heq
    simp only [List.length_append, List.length_nil] at hlength
    omega
  · have hmetadata : ascii ".json" <:+ metadataPath segment.recordPath :=
      ⟨ascii "/POWERMON/state/segments/" ++ pathToken segment.recordPath, by simp [metadataPath]⟩
    exact ne_of_suffix hmetadata hsuffix hjson (by decide) hlong heq.symm
  · exact ne_of_suffix (h.suffix role hrole) hsuffix (hroles role) (Role.length_ending ..) hlong heq.symm

theorem Settled.act (h : Removable j segment request) (hs : Settled segment s) (o : Op)
    (ho : o.Within (transactionPaths segment)) (e : Event) : Settled segment (device.act o e s).1 := by
  have hsame := act_sameExcept ho e (SameExcept.refl (transactionPaths segment) s)
  refine ⟨?_, fun hhas => ?_⟩
  · rw [hsame _ (beside_notMem h _ (by decide) (by decide) fun role => by
      cases segment.hasIndex <;> cases role <;> decide), hs.1]
  · rw [hsame _ (beside_notMem h _ (by decide) (by decide) fun role => by
      cases segment.hasIndex <;> cases role <;> decide), hs.2 hhas]

theorem mem_path (segment : CleanupSegment) (role : Role) :
    role.path segment ∈ transactionPaths segment := by
  cases role <;> simp [transactionPaths, Role.path]

theorem Scene.remove (h : Removable j segment request) (hs : Scene segment s v) (role : Role)
    (hrole : role.Relevant segment) :
    Scene segment (device.act (.remove (role.path segment)) .done s).1 (Function.update v role none) ∧
      (device.act (.remove (role.path segment)) .done s).2 = (v role).isSome := by
  obtain ⟨s', hsteady, hsees⟩ := hs.sees.remove h role hrole
  rw [removeFile, steady_op, Prod.mk.injEq] at hsteady
  refine ⟨⟨hsteady.2 ▸ hsees, hs.settled.act h (.remove _) (mem_path segment role) _⟩, hsteady.1⟩

theorem Scene.write (h : Removable j segment request) (hs : Scene segment s v) (role : Role)
    (hrole : role.Relevant segment) (content : Bytes) (e : Event) (he : e ≠ .failed) :
    Scene segment (device.act (.write (role.path segment) content) e s).1
      (Function.update v role (some (written [] content e).1)) := by
  refine ⟨?_, hs.settled.act h (.write _ _) (mem_path segment role) _⟩
  simp only [device, if_neg he]
  exact hs.sees.insert h role hrole _

theorem Scene.rename (h : Removable j segment request) (hs : Scene segment s v) (role role' : Role)
    (hrole : role.Relevant segment) (hrole' : role'.Relevant segment) (hsource : v role = some content) (htarget : v role' = none) :
    Scene segment (device.act (.rename (role.path segment) (role'.path segment)) .done s).1
        (Function.update (Function.update v role none) role' (some content)) ∧
      (device.act (.rename (role.path segment) (role'.path segment)) .done s).2 = true := by
  obtain ⟨s', hsteady, hsees⟩ := hs.sees.rename h role role' hrole hrole' hsource htarget
  rw [renameFile, steady_op, Prod.mk.injEq] at hsteady
  exact ⟨⟨hsteady.2 ▸ hsees, hs.settled.act h (.rename _ _)
    ⟨mem_path segment role, mem_path segment role'⟩ _⟩, hsteady.1⟩

theorem Scene.exists (hs : Scene segment s v) (role : Role) (hrole : role.Relevant segment) :
    device.act (.exists (role.path segment)) .done s = (s, (v role).isSome) := by
  have hexists := hs.sees.exists role hrole
  rw [fileExists, steady_op, Prod.mk.injEq] at hexists
  exact Prod.ext hexists.2 hexists.1

/-- The metadata of the segment is not among the six files. -/
theorem Scene.metadata (h : Removable j segment request) (hs : Scene segment s v) :
    Scene segment (device.act (.remove (metadataPath segment.recordPath)) .done s).1 v := by
  have hjson : ascii ".json" <:+ metadataPath segment.recordPath :=
    ⟨ascii "/POWERMON/state/segments/" ++ pathToken segment.recordPath, by simp [metadataPath]⟩
  refine ⟨hs.sees.congr fun role hrole => ?_, hs.settled.act h (.remove _) (by simp [Op.Within, transactionPaths]) _⟩
  refine act_sameExcept (show Op.Within [metadataPath segment.recordPath] (.remove _) by simp [Op.Within]) _
    (SameExcept.refl _ _) _ ?_
  rw [List.mem_singleton]
  exact ne_of_suffix (h.suffix role hrole) hjson (by cases segment.hasIndex <;> cases role <;> decide)
    (Role.length_ending ..) (by decide)

/-! ### What is recovered -/

/-- **The card is recovered**: a recovery without failures succeeds and leaves the segment as it was, or
nothing of it, and in both cases nothing in the trash and no journal. -/
def Recovers (j : JsonLibrary) (segment : CleanupSegment) (record index : Bytes) (s : Card) : Prop :=
  ∃ s', steady device .done (recoverCleanupJournal j) s = (true, s') ∧
    (Sees segment s' (original record (some index)) ∨ Sees segment s' gone)

/-- The journal that is found fits the places of the files. -/
def Fits (j : JsonLibrary) (segment : CleanupSegment) (request : CleanupRequest) (found : Option Bytes)
    (recordPlace indexPlace : Place) : Prop :=
  (found = none ∧ recordPlace = .home ∧ indexPlace = .home) ∨
  (found = none ∧ recordPlace = .removed ∧ (segment.hasIndex = true → indexPlace = .removed)) ∨
  (found = some (journalLine j segment request .planned) ∧ recordPlace ≠ .removed ∧ indexPlace ≠ .removed) ∨
  ∃ stage, stage ≠ .planned ∧ found = some (journalLine j segment request stage) ∧ recordPlace ≠ .home ∧
    (segment.hasIndex = true → indexPlace ≠ .home)

/-- **A journal that fits is recovered.** -/
theorem recovers_of_fits (hj : j.Lawful) (h : Removable j segment request)
    (hs : Scene segment s (view record index journal temporary recordPlace indexPlace))
    (hfits : Fits j segment request (journal.or temporary) recordPlace indexPlace) :
    Recovers j segment record index s := by
  obtain ⟨hrepair, hprevious⟩ := hs.settled
  rcases hfits with ⟨hnone, rfl, rfl⟩ | ⟨hnone, rfl, hindex⟩ | ⟨hfound, hrecord, hindex⟩ |
    ⟨stage, hstage, hfound, hrecord, hindex⟩
  · rw [Option.or_eq_none_iff] at hnone
    obtain ⟨rfl, rfl⟩ := hnone
    obtain ⟨s', hsteady, hsees⟩ := recover_none h hs.sees hrepair hprevious rfl rfl
    refine ⟨s', hsteady, Or.inl fun role hrole => (hsees role hrole).trans ?_⟩
    cases role <;> rfl
  · rw [Option.or_eq_none_iff] at hnone
    obtain ⟨rfl, rfl⟩ := hnone
    obtain ⟨s', hsteady, hsees⟩ := recover_none h hs.sees hrepair hprevious rfl rfl
    refine ⟨s', hsteady, Or.inr fun role hrole => (hsees role hrole).trans ?_⟩
    cases role with
    | index =>
      rw [hindex hrole]
      rfl
    | indexTrash =>
      rw [hindex hrole]
      rfl
    | _ => rfl
  · obtain ⟨s', hsteady, hsees⟩ := recover_planned hj h hs.sees hrepair hprevious hfound
      record (some index) (by cases recordPlace <;> simp [view] at hrecord ⊢)
      fun _ => ⟨by simp, by cases indexPlace <;> simp [view] at hindex ⊢⟩
    exact ⟨s', hsteady, Or.inl hsees⟩
  · obtain ⟨s', hsteady, hsees⟩ := recover_moved hj h hs.sees hrepair hprevious hfound hstage
      (by simp [view, hrecord]) fun hhas => by simp [view, hindex hhas]
    exact ⟨s', hsteady, Or.inr hsees⟩

/-- **A part of a line is not recovered** when it is all there is of the journal. -/
theorem not_recovers_of_partial (hj : j.Lawful) (h : Removable j segment request)
    (hs : Scene segment s (view record index none (some content) recordPlace indexPlace))
    {stage : Stage} {k : ℕ} (hk : k < (journalLine j segment request stage).length)
    (hcontent : content = (journalLine j segment request stage).take k) :
    ¬ Recovers j segment record index s := by
  obtain ⟨init, hline, hinit⟩ := encodeEnvelope_line (hj.newline (cleanupDocument segment request stage))
  rw [← journalLine] at hline
  have hshort : content = init.take k := by
    rw [hline, List.length_append, List.length_singleton] at hk
    rw [hcontent, hline, List.take_append_of_le_length (by omega)]
  have hlines : lines content = [] :=
    (lines_of_notMem fun hmem => hinit (List.mem_of_mem_take (hshort ▸ hmem))).1
  obtain ⟨s1, h1, hs1⟩ := steady_recoverTemporaries h hs.sees hs.settled.1 hs.settled.2
  have hlookup : s1.lookup cleanupJournalPath = some content := (hs1 .journal trivial).trans rfl
  rintro ⟨s', hsteady, -⟩
  unfold recoverCleanupJournal at hsteady
  simp only [steady_bind, h1, Bool.not_true, Bool.false_eq_true, if_false, steady_fileExists, hlookup,
    Option.isSome_some, steady_readFile] at hsteady
  simp [parseCleanupJournal, readEnvelopeLine, hlines] at hsteady

/-! ### Losing the power -/

/-- The card is recovered if the power is lost at a call, before it or with a part of its effect. -/
def Survives (j : JsonLibrary) (segment : CleanupSegment) (record index : Bytes) (o : Op) (s : Card) : Prop :=
  Recovers j segment record index s ∧ ∀ k r, Recovers j segment record index (device.act o (.cut k r) s).1

theorem act_remove_cut (path : Bytes) (k r : ℕ) (s : Card) :
    device.act (.remove path) (.cut k r) s = device.act (.remove path) .done s := by
  simp [device]

theorem act_rename_cut (source target : Bytes) (k r : ℕ) (s : Card) :
    device.act (.rename source target) (.cut k r) s = device.act (.rename source target) .done s := by
  simp [device]

theorem act_exists_cut (path : Bytes) (k r : ℕ) (s : Card) :
    device.act (.exists path) (.cut k r) s = device.act (.exists path) .done s := by
  simp [device]

/-- A call whose effect is atomic. -/
theorem survives_of_atomic {o : Op} (hcut : ∀ k r, device.act o (.cut k r) s = device.act o .done s)
    (hbefore : Recovers j segment record index s) (hafter : Recovers j segment record index (device.act o .done s).1) :
    Survives j segment record index o s :=
  ⟨hbefore, fun k r => by rw [hcut]; exact hafter⟩

section Persist

variable (hj : j.Lawful) (h : Removable j segment request) (stage : Stage)
variable (hs : Scene segment s (view record index journal none recordPlace indexPlace))
include h hs

/-- **The calls of a journal write**, and what is on the card at each. -/
theorem persist_calls : ∃ s1 s2 s3 s4,
    Scene segment s1 (view record index journal none recordPlace indexPlace) ∧
    Scene segment s2 (view record index journal (some (journalLine j segment request stage)) recordPlace indexPlace) ∧
    Scene segment s3 (view record index none (some (journalLine j segment request stage)) recordPlace indexPlace) ∧
    Scene segment s4 (view record index (some (journalLine j segment request stage)) none recordPlace indexPlace) ∧
    steady device .done (persistCleanupJournal j segment request stage) s = (true, s4) ∧
    calls device .done (persistCleanupJournal j segment request stage) s = 4 ∧
    (∀ n, callAt device .done (persistCleanupJournal j segment request stage) n s =
      [(Op.remove cleanupTemporary, s), (.write cleanupTemporary (journalLine j segment request stage), s1),
        (.remove cleanupJournalPath, s2), (.rename cleanupTemporary cleanupJournalPath, s3)][n]?) ∧
    s1 = (device.act (.remove cleanupTemporary) .done s).1 ∧
    s3 = (device.act (.remove cleanupJournalPath) .done s2).1 ∧
    s4 = (device.act (.rename cleanupTemporary cleanupJournalPath) .done s3).1 := by
  obtain ⟨hs1, -⟩ := hs.remove h .temporary trivial
  rw [update_temporary] at hs1
  have hs2 := hs1.write h .temporary trivial (journalLine j segment request stage) .done (by simp)
  rw [update_temporary] at hs2
  obtain ⟨hs3, -⟩ := hs2.remove h .journal trivial
  rw [update_journal] at hs3
  obtain ⟨hs4, hrenamed⟩ := hs3.rename h .temporary .journal trivial trivial rfl rfl
  rw [update_temporary, update_journal] at hs4
  simp only [Role.path] at hs1 hs2 hs3 hs4 hrenamed
  have hwritten : ∀ s : Card, (device.act (.write cleanupTemporary (journalLine j segment request stage)) .done s).2 =
      some (journalLine j segment request stage).length := by
    intro s
    simp [device, written]
  refine ⟨_, _, _, _, hs1, hs2, hs3, hs4, ?_, ?_, ?_, rfl, rfl, rfl⟩
  · simp only [persistCleanupJournal, removeFile, writeFile, renameFile, steady_bind, steady_op, hwritten,
      ne_eq, not_true_eq_false, if_false, hrenamed]
  · simp only [persistCleanupJournal, removeFile, writeFile, renameFile, calls_bind, calls_op, steady_op,
      hwritten, ne_eq, not_true_eq_false, if_false]
  · intro n
    simp only [persistCleanupJournal, removeFile, writeFile, renameFile]
    rcases n with _ | _ | _ | _ | n
    · rfl
    · rfl
    all_goals
      simp only [callAt_op_bind, hwritten, ne_eq, not_true_eq_false, if_false]
      rfl

include hj

/-- **A journal write**: what is on the card is recovered, unless the first journal is written in part. -/
theorem persist_survives (hold : Fits j segment request journal recordPlace indexPlace)
    (hnew : Fits j segment request (some (journalLine j segment request stage)) recordPlace indexPlace)
    {n : ℕ} {o : Op} (hcall : callAt device .done (persistCleanupJournal j segment request stage) n s = some (o, s')) :
    Recovers j segment record index s' ∧ ∀ k r,
      (journal ≠ none ∨ n ≠ 1 ∨ (journalLine j segment request stage).length ≤ k) →
      Recovers j segment record index (device.act o (.cut k r) s').1 := by
  obtain ⟨s1, s2, s3, s4, hs1, hs2, hs3, hs4, -, -, hcallAt, h1, h3, h4⟩ := persist_calls h stage hs
  have hbefore : Fits j segment request (journal.or none) recordPlace indexPlace := by rwa [Option.or_none]
  have hwith : Fits j segment request (journal.or (some (journalLine j segment request stage))) recordPlace indexPlace := by
    cases journal with
    | none => exact hnew
    | some _ => exact hold
  have hr := recovers_of_fits hj h hs hbefore
  have hr1 := recovers_of_fits hj h hs1 hbefore
  have hr2 := recovers_of_fits hj h hs2 hwith
  have hr3 := recovers_of_fits hj h hs3 hnew
  have hr4 := recovers_of_fits hj h hs4 hnew
  rw [hcallAt] at hcall
  match n, hcall with
  | 0, hcall =>
    cases hcall
    exact ⟨hr, fun k r _ => by rw [act_remove_cut, ← h1]; exact hr1⟩
  | 1, hcall =>
    cases hcall
    refine ⟨hr1, fun k r hk => ?_⟩
    have hcut := hs1.write h .temporary trivial (journalLine j segment request stage) (.cut k r) (by simp)
    rw [update_temporary] at hcut
    refine recovers_of_fits hj h hcut ?_
    cases journal with
    | none =>
      have hlength : (journalLine j segment request stage).length ≤ k := by simpa using hk
      simpa only [written, List.nil_append, List.take_of_length_le hlength, Option.none_or] using hnew
    | some _ => exact hold
  | 2, hcall =>
    cases hcall
    exact ⟨hr2, fun k r _ => by rw [act_remove_cut, ← h3]; exact hr3⟩
  | 3, hcall =>
    cases hcall
    exact ⟨hr3, fun k r _ => by rw [act_rename_cut, ← h4]; exact hr4⟩
  | n + 4, hcall => cases hcall

/-- The first journal, written in part. -/
theorem not_recovers_partial (hnone : journal = none) {o : Op}
    (hcall : callAt device .done (persistCleanupJournal j segment request stage) 1 s = some (o, s')) {k : ℕ} (r : ℕ)
    (hk : k < (journalLine j segment request stage).length) :
    ¬ Recovers j segment record index (device.act o (.cut k r) s').1 := by
  obtain ⟨s1, s2, s3, s4, hs1, -, -, -, -, -, hcallAt, -⟩ := persist_calls h stage hs
  rw [hcallAt] at hcall
  cases hcall
  have hcut := hs1.write h .temporary trivial (journalLine j segment request stage) (.cut k r) (by simp)
  rw [update_temporary, hnone] at hcut
  exact not_recovers_of_partial hj h hcut hk rfl

/-- A later journal is written while another is there. -/
theorem persist_throughout (hsome : journal ≠ none) (hold : Fits j segment request journal recordPlace indexPlace)
    (hnew : Fits j segment request (some (journalLine j segment request stage)) recordPlace indexPlace) :
    Throughout device .done (Survives j segment record index) (persistCleanupJournal j segment request stage) s := by
  intro n o s' hcall
  obtain ⟨hbefore, hcut⟩ := persist_survives hj h stage hs hold hnew hcall
  exact ⟨hbefore, fun k r => hcut k r (Or.inl hsome)⟩

end Persist

/-! ### The transaction, call by call -/

/-- The number of checks before the journal is written. -/
def checks (segment : CleanupSegment) : ℕ := if segment.hasIndex then 4 else 2

section Transaction

variable (hj : j.Lawful) (h : Removable j segment request)
include hj h

theorem survives_exists (hs : Scene segment s (view record index journal temporary recordPlace indexPlace))
    (hfits : Fits j segment request (journal.or temporary) recordPlace indexPlace) (path : Bytes) :
    Survives j segment record index (.exists path) s := by
  have hr := recovers_of_fits hj h hs hfits
  exact survives_of_atomic (fun k r => act_exists_cut path k r s) hr hr

/-- The checks find the segment and change nothing. -/
theorem removable_calm (hs : Scene segment s (view record index none none .home .home)) :
    steady device .done (removable segment) s = (true, s) ∧
      calls device .done (removable segment) s = checks segment ∧
      Throughout device .done (Survives j segment record index) (removable segment) s := by
  have hsurvives : ∀ path, Survives j segment record index (.exists path) s := fun path =>
    survives_exists hj h hs (Or.inl ⟨rfl, rfl, rfl⟩) path
  have hrecord : device.act (.exists segment.recordPath) .done s = (s, true) :=
    hs.exists .record trivial
  have hrecordTrash : device.act (.exists (recordTrash segment)) .done s = (s, false) :=
    hs.exists .recordTrash trivial
  unfold removable runIf fileExists
  cases hhas : segment.hasIndex with
  | false =>
    refine ⟨?_, ?_, (throughout_op (hsurvives _)).bind ?_⟩
    · simp [hrecord, hrecordTrash]
    · simp [hrecord, hrecordTrash, hhas, checks]
    · simp only [steady_op, hrecord, Bool.not_true, Bool.false_eq_true, if_false]
      refine (throughout_pure _ _).bind ((throughout_op (hsurvives _)).bind ?_)
      simp only [steady_op, hrecordTrash, Bool.false_eq_true, if_false]
      exact (throughout_pure _ _).bind (throughout_pure _ _)
  | true =>
    have hindex : device.act (.exists segment.indexPath) .done s = (s, true) :=
      hs.exists .index hhas
    have hindexTrash : device.act (.exists (indexTrash segment)) .done s = (s, false) :=
      hs.exists .indexTrash hhas
    refine ⟨?_, ?_, (throughout_op (hsurvives _)).bind ?_⟩
    · simp [hrecord, hrecordTrash, hindex, hindexTrash]
    · simp [hrecord, hrecordTrash, hindex, hhas, checks]
    · simp only [steady_op, hrecord, Bool.not_true, Bool.false_eq_true, if_false, if_true]
      refine (throughout_op (hsurvives _)).bind ?_
      simp only [steady_op, hindex, Bool.not_true, Bool.false_eq_true, if_false]
      refine (throughout_op (hsurvives _)).bind ?_
      simp only [steady_op, hrecordTrash, Bool.false_eq_true, if_false]
      exact (throughout_op (hsurvives _)).bind (throughout_pure _ _)

/-- The files are moved while the journal says that they are planned to be. -/
theorem moveToTrash_calm
    (hs : Scene segment s (view record index (some (journalLine j segment request .planned)) none .home .home)) :
    ∃ s' place, steady device .done (moveToTrash segment) s = (true, s') ∧
      Scene segment s' (view record index (some (journalLine j segment request .planned)) none .trash place) ∧
      place ≠ .removed ∧ (segment.hasIndex = true → place = .trash) ∧
      Throughout device .done (Survives j segment record index) (moveToTrash segment) s := by
  have hfits : ∀ a b, a ≠ .removed → b ≠ .removed →
      Fits j segment request ((some (journalLine j segment request .planned)).or none) a b := fun a b ha hb =>
    Or.inr (Or.inr (Or.inl ⟨rfl, ha, hb⟩))
  obtain ⟨hs1, hmoved⟩ := hs.rename h .record .recordTrash trivial trivial rfl rfl
  rw [move_record] at hs1
  simp only [Role.path] at hs1 hmoved
  have hr := recovers_of_fits hj h hs (hfits _ _ (by simp) (by simp))
  have hr1 := recovers_of_fits hj h hs1 (hfits _ _ (by simp) (by simp))
  have hfirst : Survives j segment record index (.rename segment.recordPath (recordTrash segment)) s :=
    survives_of_atomic (fun k r => act_rename_cut _ _ k r s) hr hr1
  unfold moveToTrash runIf
  cases hhas : segment.hasIndex with
  | false =>
    refine ⟨_, .home, ?_, hs1, by simp, by simp, (throughout_op hfirst).bind ?_⟩
    · simp only [renameFile, steady_bind, steady_op, hmoved, Bool.and_false, Bool.false_eq_true, if_false, steady_pure]
    · simp only [renameFile, steady_op, hmoved, Bool.and_false, Bool.false_eq_true, if_false]
      exact throughout_pure _ _
  | true =>
    obtain ⟨hs2, hmoved2⟩ := hs1.rename h .index .indexTrash hhas hhas rfl rfl
    rw [move_index] at hs2
    simp only [Role.path] at hs2 hmoved2
    have hr2 := recovers_of_fits hj h hs2 (hfits _ _ (by simp) (by simp))
    refine ⟨_, .trash, ?_, hs2, by simp, by simp, (throughout_op hfirst).bind ?_⟩
    · simp only [renameFile, steady_bind, steady_op, hmoved, Bool.and_self, if_true, hmoved2]
    · simp only [renameFile, steady_op, hmoved, Bool.and_self, if_true]
      exact throughout_op (survives_of_atomic (fun k r => act_rename_cut _ _ k r _) hr1 hr2)

/-- The journal is cleared once nothing is left of the segment. -/
theorem clear_calm {line : Bytes} {stage : Stage} (hline : line = journalLine j segment request stage)
    (hstage : stage ≠ .planned) (hindex : segment.hasIndex = true → indexPlace = .removed)
    (hs : Scene segment s (view record index (some line) none .removed indexPlace)) :
    Throughout device .done (Survives j segment record index) clearCleanupJournal s := by
  have hfits : Fits j segment request ((some line).or none) .removed indexPlace :=
    Or.inr (Or.inr (Or.inr ⟨stage, hstage, congrArg some hline, by simp, fun hhas => by simp [hindex hhas]⟩))
  have hnone : Fits j segment request (Option.or none none) .removed indexPlace :=
    Or.inr (Or.inl ⟨rfl, rfl, hindex⟩)
  have hjournal : device.act (.exists cleanupJournalPath) .done s = (s, true) := hs.exists .journal trivial
  obtain ⟨hs1, -⟩ := hs.remove h .journal trivial
  rw [update_journal] at hs1
  simp only [Role.path] at hs1
  have htemporary : device.act (.exists cleanupTemporary) .done (device.act (.remove cleanupJournalPath) .done s).1 =
      ((device.act (.remove cleanupJournalPath) .done s).1, false) := hs1.exists .temporary trivial
  have hr := recovers_of_fits hj h hs hfits
  have hr1 := recovers_of_fits hj h hs1 hnone
  unfold clearCleanupJournal SdStorage.removeIfPresent fileExists removeFile
  refine Throughout.bind ((throughout_op (survives_exists hj h hs hfits _)).bind ?_) ?_
  · simp only [steady_op, hjournal, if_true]
    exact throughout_op (survives_of_atomic (fun k r => act_remove_cut _ k r s) hr hr1)
  · simp only [steady_bind, steady_op, hjournal, if_true]
    refine Throughout.bind ((throughout_op (survives_exists hj h hs1 hnone _)).bind ?_) (throughout_pure _ _)
    simp only [steady_op, htemporary, Bool.false_eq_true, if_false]
    exact throughout_pure _ _

/-- The files are removed while the journal says that they were moved. -/
theorem deleteMoved_calm (hindex : segment.hasIndex = true → indexPlace = .trash)
    (hs : Scene segment s (view record index (some (journalLine j segment request .filesMoved)) none .trash indexPlace)) :
    Throughout device .done (Survives j segment record index) (deleteMoved j segment request) s := by
  have hfits : ∀ stage a b, stage ≠ .planned → a ≠ .home → (segment.hasIndex = true → b ≠ .home) →
      Fits j segment request (some (journalLine j segment request stage)) a b := fun stage a b hstage ha hb =>
    Or.inr (Or.inr (Or.inr ⟨stage, hstage, rfl, ha, hb⟩))
  have hhome : segment.hasIndex = true → indexPlace ≠ .home := fun hhas => by simp [hindex hhas]
  -- the record
  obtain ⟨hs1, hremoved⟩ := hs.remove h .recordTrash trivial
  rw [remove_record] at hs1
  simp only [Role.path, view, if_true, Option.isSome_some] at hremoved hs1
  have hr := recovers_of_fits hj h hs (hfits .filesMoved _ _ (by simp) (by simp) hhome)
  have hr1 := recovers_of_fits hj h hs1 (hfits .filesMoved _ _ (by simp) (by simp) hhome)
  unfold deleteMoved
  refine (throughout_op (survives_of_atomic (fun k r => act_remove_cut _ k r s) hr hr1)).bind ?_
  simp only [steady_op, hremoved, Bool.not_true, Bool.false_eq_true, if_false]
  obtain ⟨-, -, -, s2, -, -, -, hs2, hpersist, -⟩ := persist_calls h .recordDeleted hs1
  refine (persist_throughout hj h .recordDeleted hs1 (by simp) (hfits _ _ _ (by simp) (by simp) hhome)
    (hfits _ _ _ (by simp) (by simp) hhome)).bind ?_
  simp only [hpersist, Bool.not_true, Bool.false_eq_true, if_false]
  -- the index
  obtain ⟨s3, place, hdropped, hs3, hplace, hthrough⟩ : ∃ s3 place,
      steady device .done (runIf segment.hasIndex (removeFile (indexTrash segment)) true) s2 = (true, s3) ∧
      Scene segment s3 (view record index (some (journalLine j segment request .recordDeleted)) none .removed place) ∧
      (segment.hasIndex = true → place = .removed) ∧
      Throughout device .done (Survives j segment record index)
        (runIf segment.hasIndex (removeFile (indexTrash segment)) true) s2 := by
    have hr2 := recovers_of_fits hj h hs2 (hfits .recordDeleted _ _ (by simp) (by simp) hhome)
    cases hhas : segment.hasIndex with
    | false => exact ⟨s2, indexPlace, rfl, hs2, by simp, throughout_pure _ _⟩
    | true =>
      rw [hindex hhas] at hs2
      obtain ⟨hs3, hremoved3⟩ := hs2.remove h .indexTrash hhas
      rw [remove_index] at hs3
      simp only [Role.path, view, if_true, Option.isSome_some] at hremoved3 hs3
      have hr3 := recovers_of_fits hj h hs3 (hfits .recordDeleted _ _ (by simp) (by simp) (by simp))
      refine ⟨_, .removed, ?_, hs3, by simp, ?_⟩
      · simp only [runIf, if_true, removeFile, steady_op, hremoved3]
      · simp only [runIf, if_true]
        exact throughout_op (survives_of_atomic (fun k r => act_remove_cut _ k r s2) hr2 hr3)
  refine hthrough.bind ?_
  simp only [hdropped, Bool.not_true, Bool.false_eq_true, if_false]
  have hplace' : segment.hasIndex = true → place ≠ .home := fun hhas => by simp [hplace hhas]
  -- the metadata
  have hs4 := hs3.metadata h
  have hr3 := recovers_of_fits hj h hs3 (hfits .recordDeleted _ _ (by simp) (by simp) hplace')
  have hr4 := recovers_of_fits hj h hs4 (hfits .recordDeleted _ _ (by simp) (by simp) hplace')
  refine (throughout_op (survives_of_atomic (fun k r => act_remove_cut _ k r s3) hr3 hr4)).bind ?_
  simp only [steady_op]
  obtain ⟨-, -, -, s5, -, -, -, hs5, hpersist5, -⟩ := persist_calls h .complete hs4
  refine (persist_throughout hj h .complete hs4 (by simp) (hfits _ _ _ (by simp) (by simp) hplace')
    (hfits _ _ _ (by simp) (by simp) hplace')).bind ?_
  simp only [hpersist5, Bool.not_true, Bool.false_eq_true, if_false]
  exact clear_calm hj h rfl (by simp) hplace hs5

/-- **From the plan on**, the card is recovered wherever the power is lost. -/
theorem executePlan_calm
    (hs : Scene segment s (view record index (some (journalLine j segment request .planned)) none .home .home)) :
    Throughout device .done (Survives j segment record index) (executePlan j segment request) s := by
  obtain ⟨s1, place, hmoved, hs1, hne, hplace, hthrough⟩ := moveToTrash_calm hj h hs
  unfold executePlan
  refine hthrough.bind ?_
  simp only [hmoved, Bool.not_true, Bool.false_eq_true, if_false]
  obtain ⟨-, -, -, s2, -, -, -, hs2, hpersist, -⟩ := persist_calls h .filesMoved hs1
  refine (persist_throughout hj h .filesMoved hs1 (by simp) ?_ ?_).bind ?_
  · exact Or.inr (Or.inr (Or.inl ⟨rfl, by simp, hne⟩))
  · exact Or.inr (Or.inr (Or.inr ⟨.filesMoved, by simp, rfl, by simp, fun hhas => by simp [hplace hhas]⟩))
  · simp only [hpersist, Bool.not_true, Bool.false_eq_true, if_false]
    exact deleteMoved_calm hj h hplace hs2

end Transaction

/-! ### Any loss of power -/

/-- The events of a transaction that loses the power after `n` calls, and maybe with a part of the next. -/
def interruption (n : ℕ) (last : Option (ℕ × ℕ)) : List Event :=
  List.replicate n .done ++ (last.map fun (stored, reported) => Event.cut stored reported).toList

/-- The power is lost while the journal of the plan is written, with a part of its line on the card. -/
def PlanCut (j : JsonLibrary) (segment : CleanupSegment) (request : CleanupRequest) (n : ℕ)
    (last : Option (ℕ × ℕ)) : Prop :=
  n = checks segment + 1 ∧ ∃ stored reported, last = some (stored, reported) ∧
    stored < (journalLine j segment request .planned).length

/-- What a loss of power leaves, by the call at which it comes. -/
theorem run_interruption {α : Type} {p : CardProg α} {n : ℕ} {o : Op}
    (hcall : callAt device .done p n s = some (o, s')) (last : Option (ℕ × ℕ)) :
    (run device p (interruption n last) s).1 =
      match last with
      | none => s'
      | some (stored, reported) => (device.act o (.cut stored reported) s').1 := by
  obtain ⟨hnone, hcut⟩ := run_of_callAt hcall
  cases last with
  | none =>
    rw [interruption, Option.map_none, Option.toList_none, List.append_nil, hnone]
  | some cut => exact hcut (.cut cut.1 cut.2)

theorem recovers_of_survives {α : Type} {p : CardProg α} {n : ℕ} {o : Op}
    (hcall : callAt device .done p n s = some (o, s')) (hsurvives : Survives j segment record index o s')
    (last : Option (ℕ × ℕ)) : Recovers j segment record index (run device p (interruption n last) s).1 := by
  rw [run_interruption hcall]
  cases last with
  | none => exact hsurvives.1
  | some cut => exact hsurvives.2 _ _

/-- **A segment is removed or kept as a whole wherever the power is lost, unless it is lost while the
journal of the plan is written.** -/
theorem recovers_iff_not_planCut (hj : j.Lawful) (h : Removable j segment request)
    (hs : Sees segment s (original record (some index))) (hsettled : Settled segment s) (n : ℕ)
    (last : Option (ℕ × ℕ))
    (hlost : (run device (removeSegmentTransactionally j segment request) (interruption n last) s).2 = none) :
    Recovers j segment record index
        (run device (removeSegmentTransactionally j segment request) (interruption n last) s).1 ↔
      ¬ PlanCut j segment request n last := by
  have hscene : Scene segment s (view record index none none .home .home) :=
    ⟨fun role hrole => (hs role hrole).trans (by cases role <;> rfl), hsettled⟩
  obtain ⟨o, s', hcall⟩ := callAt_of_run hlost
  obtain ⟨hready, hcalls, hchecks⟩ := removable_calm hj h hscene
  obtain ⟨-, -, -, s4, -, -, -, hs4, hpersist, hfour, -⟩ := persist_calls h .planned hscene
  have hplanned : Fits j segment request (some (journalLine j segment request .planned)) .home .home :=
    Or.inr (Or.inr (Or.inl ⟨rfl, by simp, by simp⟩))
  -- the call is a check, one of the first journal write, or a later one
  have hsplit := hcall
  unfold removeSegmentTransactionally at hsplit
  rw [callAt_bind, hcalls, hready] at hsplit
  by_cases hn : n < checks segment
  · rw [if_pos hn] at hsplit
    exact iff_of_true (recovers_of_survives hcall (hchecks n o s' hsplit) last) fun hcut => by
      have := hcut.1
      omega
  · rw [if_neg hn] at hsplit
    simp only [Bool.not_true, Bool.false_eq_true, if_false] at hsplit
    rw [callAt_bind, hfour, hpersist] at hsplit
    by_cases hn' : n - checks segment < 4
    · rw [if_pos hn'] at hsplit
      obtain ⟨hbefore, hwrite⟩ :=
        persist_survives hj h .planned hscene (Or.inl ⟨rfl, rfl, rfl⟩) hplanned hsplit
      rw [run_interruption hcall]
      cases last with
      | none => exact iff_of_true hbefore fun ⟨_, _, _, hcut, _⟩ => by cases hcut
      | some cut =>
        obtain ⟨stored, reported⟩ := cut
        by_cases hcut : PlanCut j segment request n (some (stored, reported))
        · refine iff_of_false ?_ (not_not_intro hcut)
          obtain ⟨hfirst, _, _, heq, hpart⟩ := hcut
          cases heq
          rw [hfirst, Nat.add_sub_cancel_left] at hsplit
          exact not_recovers_partial hj h .planned hscene rfl hsplit reported hpart
        · refine iff_of_true (hwrite stored reported (Or.inr ?_)) hcut
          by_contra hboth
          simp only [ne_eq, not_or, not_not, Nat.not_le] at hboth
          exact hcut ⟨by omega, stored, reported, rfl, hboth.2⟩
    · rw [if_neg hn'] at hsplit
      simp only [Bool.not_true, Bool.false_eq_true, if_false] at hsplit
      refine iff_of_true (recovers_of_survives hcall (executePlan_calm hj h hs4 _ o s' hsplit) last) fun hcut => ?_
      have := hcut.1
      omega

/-! ### One segment -/

def sampleSegment : CleanupSegment where
  recordPath := ascii "/POWERMON/records/2026/07/2026-07-20.pmr"
  indexPath := ascii "/POWERMON/indexes/2026/07/2026-07-20.idx"
  firstSequence := 1
  lastSequence := 96

def sampleRequest : CleanupRequest where
  serverAckSequence := 96
  nowUtcMs := 1784500000000
  reason := ascii "age"

def sampleCard : Card :=
  ((∅ : Card).insert sampleSegment.recordPath (ascii "readings")).insert sampleSegment.indexPath (ascii "rows")

theorem sample_removable : Removable textJson sampleSegment sampleRequest where
  kind := Or.inl ⟨ascii "2026/07/2026-07-20", by decide, by decide⟩
  terminated := by decide
  fits := journalLine_fits (by decide +kernel)

theorem sample_sees : Sees sampleSegment sampleCard (original (ascii "readings") (some (ascii "rows"))) := by
  intro role _
  cases role <;> decide

theorem sample_settled : Settled sampleSegment sampleCard := by
  unfold Settled
  decide

theorem sample_cuts :
    (run device (removeSegmentTransactionally textJson sampleSegment sampleRequest) (interruption 18 none)
      sampleCard).2 = none ∧
    (run device (removeSegmentTransactionally textJson sampleSegment sampleRequest) (interruption 5 (some (10, 0)))
      sampleCard).2.isNone = true ∧
    (steady device .done (recoverCleanupJournal textJson) (run device
      (removeSegmentTransactionally textJson sampleSegment sampleRequest) (interruption 5 (some (10, 0)))
      sampleCard).1).1 = false := by
  decide +kernel

/-- The power is lost between the removal of the record from the trash and that of the index. -/
theorem recovers_sample : Recovers textJson sampleSegment (ascii "readings") (ascii "rows")
    (run device (removeSegmentTransactionally textJson sampleSegment sampleRequest) (interruption 18 none)
      sampleCard).1 :=
  (recovers_iff_not_planCut textJson_lawful sample_removable sample_sees sample_settled 18 none
    sample_cuts.1).mpr fun h => by
      have := h.1
      revert this
      decide

/-- **Ten bytes of the first journal stop every later recovery.** -/
theorem plan_cut_not_recovered :
    (run device (removeSegmentTransactionally textJson sampleSegment sampleRequest) (interruption 5 (some (10, 0)))
      sampleCard).2.isNone = true ∧
    ¬ Recovers textJson sampleSegment (ascii "readings") (ascii "rows")
      (run device (removeSegmentTransactionally textJson sampleSegment sampleRequest) (interruption 5 (some (10, 0)))
        sampleCard).1 := by
  obtain ⟨-, hcut, hfalse⟩ := sample_cuts
  refine ⟨hcut, ?_⟩
  rintro ⟨s', hsteady, -⟩
  rw [hsteady] at hfalse
  cases hfalse

end PowerMonitor.Storage.CleanupCrash
