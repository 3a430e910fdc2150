import PowerMonitor.Lib.Steady
import PowerMonitor.Storage.Cleanup
import PowerMonitor.Storage.Layout

/-! # Recovering a transaction

Six files take part in the removal of a segment (`Role`). What a recovery does depends on what it sees of
them (`Sees`): it takes the moves back if the journal says that they were planned
(`recover_planned`), and finishes the transaction if it says that the files were moved
(`recover_moved`). The other temporary files that it settles first are not among the six
(`steady_recoverTemporaries`). -/

namespace PowerMonitor.Storage.CleanupRecovery

open PowerMonitor.Lib.Binary PowerMonitor.Lib.Lines PowerMonitor.Lib.Json PowerMonitor.Lib.Program
open PowerMonitor.Lib.Steady PowerMonitor.Lib.Scan
open PowerMonitor.Storage.RecordFormat PowerMonitor.Storage.Reading PowerMonitor.Storage.Media
open PowerMonitor.Storage.Segment PowerMonitor.Storage.SdStorage PowerMonitor.Storage.Frames
open PowerMonitor.Storage.Layout PowerMonitor.Storage.Cleanup

/-! ### The files of a transaction -/

inductive Role
  | journal
  | temporary
  | record
  | index
  | recordTrash
  | indexTrash
  deriving DecidableEq

def Role.path (segment : CleanupSegment) : Role → Bytes
  | .journal => cleanupJournalPath
  | .temporary => cleanupTemporary
  | .record => segment.recordPath
  | .index => segment.indexPath
  | .recordTrash => Cleanup.recordTrash segment
  | .indexTrash => Cleanup.indexTrash segment

/-- A segment without an index has no index files. -/
def Role.Relevant (segment : CleanupSegment) : Role → Prop
  | .index | .indexTrash => segment.hasIndex = true
  | _ => True

/-- What is seen of the files. -/
def Sees (segment : CleanupSegment) (s : Card) (v : Role → Option Bytes) : Prop :=
  ∀ role, role.Relevant segment → s.lookup (role.path segment) = v role

def eventStem (x : Bytes) : Bytes := ascii "/POWERMON/events/" ++ (x ++ ascii ".events")

/-- **A segment that retention removes**: a file of readings with its index, or a file of events. Paths end
at a zero byte, and the line of the journal is not longer than a reader's buffer. -/
structure Removable (j : JsonLibrary) (segment : CleanupSegment) (request : CleanupRequest) : Prop where
  kind : (∃ x, segment.recordPath = recordStem x ∧ segment.indexPath = indexStem x) ∨
    ∃ x, segment.recordPath = eventStem x ∧ segment.indexPath = []
  terminated : 0 ∉ segment.recordPath ∧ 0 ∉ segment.indexPath
  fits : ∀ stage, (journalLine j segment request stage).length ≤ 8193

variable {j : JsonLibrary} {segment : CleanupSegment} {request : CleanupRequest} {s : Card}
variable {v : Role → Option Bytes}

theorem length_journalLine (stage : Stage) : (journalLine j segment request stage).length =
    (j.serialize (cleanupDocument segment request stage)).length + 15 := length_encodeEnvelope _

theorem journalLine_fits (h : ∀ stage ∈ [Stage.planned, .filesMoved, .recordDeleted, .complete],
      (j.serialize (cleanupDocument segment request stage)).length + 15 ≤ 8193) (stage : Stage) :
    (journalLine j segment request stage).length ≤ 8193 := by
  rw [length_journalLine]
  exact h stage (by cases stage <;> decide)

/-- How the paths end. -/
def Role.ending (hasIndex : Bool) : Role → Bytes
  | .journal => ascii ".journal"
  | .temporary => ascii ".tmp"
  | .record => if hasIndex then ascii ".pmr" else ascii ".events"
  | .index => ascii ".idx"
  | .recordTrash => ascii ".pmr.trash"
  | .indexTrash => ascii ".idx.trash"

theorem Removable.cases (h : Removable j segment request) :
    (segment.hasIndex = true ∧ ∃ x, segment.recordPath = recordStem x ∧ segment.indexPath = indexStem x) ∨
      (segment.hasIndex = false ∧ ∃ x, segment.recordPath = eventStem x ∧ segment.indexPath = []) := by
  rcases h.kind with ⟨x, hrecord, hindex⟩ | ⟨x, hrecord, hindex⟩
  · refine Or.inl ⟨?_, x, hrecord, hindex⟩
    simp [CleanupSegment.hasIndex, hindex, indexStem, show ascii "/POWERMON/indexes/" ≠ [] by decide]
  · exact Or.inr ⟨by simp [CleanupSegment.hasIndex, hindex], x, hrecord, hindex⟩

theorem indexPath_ne_nil (h : segment.hasIndex = true) : segment.indexPath ≠ [] := by
  simpa [CleanupSegment.hasIndex] using h

theorem Removable.suffix (h : Removable j segment request) (role : Role) (hrole : role.Relevant segment) :
    role.ending segment.hasIndex <:+ role.path segment := by
  cases role with
  | journal =>
    have hpath : ascii "/POWERMON/state/retention" ++ ascii ".journal" = cleanupJournalPath := by decide
    exact ⟨ascii "/POWERMON/state/retention", hpath⟩
  | temporary => exact List.suffix_append _ _
  | record =>
    rcases h.cases with ⟨hhas, x, hrecord, -⟩ | ⟨hhas, x, hrecord, -⟩
    · rw [Role.path, Role.ending, hrecord, hhas]
      exact recordStem_suffix x
    · rw [Role.path, Role.ending, hrecord, hhas]
      exact ⟨ascii "/POWERMON/events/" ++ x, by simp [eventStem]⟩
  | index =>
    rcases h.cases with ⟨-, x, -, hindex⟩ | ⟨hhas, -⟩
    · rw [Role.path, Role.ending, hindex]
      exact indexStem_suffix x
    · rw [Role.Relevant, hhas] at hrole
      cases hrole
  | recordTrash =>
    exact ⟨cleanupTrashDirectory ++ (47 :: pathToken segment.recordPath), by
      simp [Role.path, Cleanup.recordTrash, Role.ending]⟩
  | indexTrash =>
    exact ⟨cleanupTrashDirectory ++ (47 :: pathToken segment.recordPath), by
      simp [Role.path, Cleanup.indexTrash, Role.ending, indexPath_ne_nil hrole]⟩

theorem recordTrash_ne_indexTrash (h : segment.hasIndex = true) :
    Cleanup.recordTrash segment ≠ Cleanup.indexTrash segment := by
  intro heq
  rw [Cleanup.recordTrash, Cleanup.indexTrash, if_neg (indexPath_ne_nil h)] at heq
  have htail := List.append_cancel_left heq
  rw [List.cons.injEq] at htail
  exact absurd (List.append_cancel_left htail.2) (by decide)

/-- The paths end differently, but for the two in the trash. -/
theorem Role.ending_injective (hasIndex : Bool) (role role' : Role)
    (h : (role.ending hasIndex).reverse.take 4 = (role'.ending hasIndex).reverse.take 4) :
    role = role' ∨ (role = .recordTrash ∧ role' = .indexTrash) ∨ (role = .indexTrash ∧ role' = .recordTrash) := by
  revert h
  cases hasIndex <;> cases role <;> cases role' <;> decide

theorem Role.length_ending (hasIndex : Bool) (role : Role) : 4 ≤ (role.ending hasIndex).length := by
  cases hasIndex <;> cases role <;> decide

/-- **The six files are different.** -/
theorem Removable.injective (h : Removable j segment request) {role role' : Role}
    (hrole : role.Relevant segment) (hrole' : role'.Relevant segment)
    (heq : role.path segment = role'.path segment) : role = role' := by
  have hlast : (role.ending segment.hasIndex).reverse.take 4 = (role'.ending segment.hasIndex).reverse.take 4 := by
    by_contra hdiff
    exact ne_of_suffix (h.suffix role hrole) (h.suffix role' hrole') hdiff (Role.length_ending ..)
      (Role.length_ending ..) heq
  rcases Role.ending_injective _ _ _ hlast with rfl | ⟨rfl, rfl⟩ | ⟨rfl, rfl⟩
  · rfl
  · exact absurd heq (recordTrash_ne_indexTrash hrole')
  · exact absurd heq.symm (recordTrash_ne_indexTrash hrole)

/-! ### Operations on the files -/

variable {role role' : Role} {content : Bytes}

theorem Sees.insert (h : Removable j segment request) (hs : Sees segment s v) (role : Role)
    (hrole : role.Relevant segment) (content : Bytes) : Sees segment (s.insert (role.path segment) content) (Function.update v role (some content)) := by
  intro other hother
  by_cases heq : other = role
  · subst heq
    rw [AList.lookup_insert, Function.update_self]
  · rw [AList.lookup_insert_ne fun hpath => heq (h.injective hother hrole hpath), Function.update_of_ne heq,
      hs other hother]

theorem Sees.erase (h : Removable j segment request) (hs : Sees segment s v) (role : Role)
    (hrole : role.Relevant segment) :
    Sees segment (s.erase (role.path segment)) (Function.update v role none) := by
  intro other hother
  by_cases heq : other = role
  · subst heq
    rw [AList.lookup_erase, Function.update_self]
  · rw [AList.lookup_erase_ne fun hpath => heq (h.injective hother hrole hpath), Function.update_of_ne heq,
      hs other hother]

theorem Sees.exists (hs : Sees segment s v) (role : Role) (hrole : role.Relevant segment) :
    steady device .done (fileExists (role.path segment)) s = ((v role).isSome, s) := by
  rw [steady_fileExists, hs role hrole]

theorem Sees.remove (h : Removable j segment request) (hs : Sees segment s v) (role : Role)
    (hrole : role.Relevant segment) :
    ∃ s', steady device .done (removeFile (role.path segment)) s = ((v role).isSome, s') ∧
      Sees segment s' (Function.update v role none) := by
  rw [steady_removeFile, hs role hrole]
  refine ⟨_, rfl, ?_⟩
  split
  · exact hs.erase h role hrole
  · next hnone =>
    have : v role = none := by simpa using hnone
    rwa [← this, Function.update_eq_self]

theorem Sees.rename (h : Removable j segment request) (hs : Sees segment s v) (role role' : Role)
    (hrole : role.Relevant segment) (hrole' : role'.Relevant segment) (hsource : v role = some content) (htarget : v role' = none) :
    ∃ s', steady device .done (renameFile (role.path segment) (role'.path segment)) s = (true, s') ∧
      Sees segment s' (Function.update (Function.update v role none) role' (some content)) := by
  refine ⟨_, steady_renameFile (hs role hrole ▸ hsource) (hs role' hrole' ▸ htarget), ?_⟩
  exact (hs.erase h role hrole).insert h role' hrole' content

/-! ### Temporary files -/

/-- The file that a temporary file is for. -/
def targetOf (suffix temporary : Bytes) : Bytes := temporary.take (temporary.length - suffix.length)

theorem targetOf_append {suffix temporary : Bytes} (h : suffix <:+ temporary) :
    targetOf suffix temporary ++ suffix = temporary := List.suffix_iff_eq_append.mp h

/-- A file in a directory is for a file in that directory. -/
theorem prefix_targetOf {directory suffix temporary : Bytes} (hdirectory : directory ++ [47] <+: temporary)
    (hsuffix : suffix <:+ temporary) (hslash : 47 ∉ suffix) : directory ++ [47] <+: targetOf suffix temporary := by
  obtain ⟨rest, rfl⟩ := hdirectory
  have hlength : suffix.length ≤ rest.length := by
    by_contra hlong
    have hinside : 47 :: rest <:+ suffix := by
      refine List.suffix_of_suffix_length_le ?_ hsuffix (by simp only [List.length_cons]; omega)
      exact ⟨directory, by simp⟩
    exact hslash (hinside.subset List.mem_cons_self)
  refine ⟨rest.take (rest.length - suffix.length), ?_⟩
  have htake : (directory ++ [47] ++ rest).length - suffix.length =
      (directory ++ [47]).length + (rest.length - suffix.length) := by
    simp only [List.length_append, List.length_cons, List.length_nil]
    omega
  rw [targetOf, htake, List.take_length_add_append]

/-- A temporary file takes its place, or is removed. -/
theorem steady_restoreArtifact_eq (suffix : Bytes) {temporary : Bytes} (hcontent : s.lookup temporary = some content) :
    steady device .done (restoreArtifact suffix temporary) s = (true,
      if (s.lookup (targetOf suffix temporary)).isSome then s.erase temporary
      else (s.erase temporary).insert (targetOf suffix temporary) content) := by
  unfold restoreArtifact
  simp only [steady_bind, steady_fileExists, steady_ite]
  rw [show temporary.take (temporary.length - suffix.length) = targetOf suffix temporary from rfl]
  split
  · rw [steady_removeFile, hcontent, Option.isSome_some, if_pos rfl]
  · next hmissing => rw [steady_renameFile hcontent (by simpa using hmissing)]

/-- Other files stay. -/
theorem steady_restoreArtifact (suffix : Bytes) {temporary : Bytes} (hpresent : s.lookup temporary ≠ none) :
    ∃ s', steady device .done (restoreArtifact suffix temporary) s = (true, s') ∧
      SameExcept [temporary, targetOf suffix temporary] s s' ∧
      ∀ p, p ≠ temporary → s.lookup p ≠ none → s'.lookup p ≠ none := by
  obtain ⟨content, hcontent⟩ := Option.ne_none_iff_exists'.mp hpresent
  refine ⟨_, steady_restoreArtifact_eq suffix hcontent, ?_⟩
  split
  · refine ⟨fun p hp => ?_, fun p hp hold => ?_⟩
    · exact AList.lookup_erase_ne fun heq => hp (by simp [heq])
    · rwa [AList.lookup_erase_ne hp]
  · refine ⟨fun p hp => ?_, fun p hp hold => ?_⟩
    · simp only [List.mem_cons, List.not_mem_nil, or_false, not_or] at hp
      rw [AList.lookup_insert_ne hp.2, AList.lookup_erase_ne hp.1]
    · by_cases heq : p = targetOf suffix temporary
      · rw [heq, AList.lookup_insert]
        simp
      · rwa [AList.lookup_insert_ne heq, AList.lookup_erase_ne hp]

theorem steady_restoreArtifacts (suffix : Bytes) : ∀ (temporaries : List Bytes) (s : Card),
    temporaries.Nodup → (∀ t ∈ temporaries, s.lookup t ≠ none) →
    ∃ s', steady device .done (restoreArtifacts suffix temporaries) s = (true, s') ∧
      ∀ p, (∀ t ∈ temporaries, p ≠ t ∧ p ≠ targetOf suffix t) → s'.lookup p = s.lookup p := by
  intro temporaries
  induction temporaries with
  | nil => exact fun s _ _ => ⟨s, rfl, fun _ _ => rfl⟩
  | cons t rest ih =>
    intro s hnodup hall
    rw [List.nodup_cons] at hnodup
    rw [List.forall_mem_cons] at hall
    obtain ⟨s1, hfirst, hsame, hkeep⟩ := steady_restoreArtifact suffix hall.1
    obtain ⟨s2, hrest, hsame2⟩ := ih s1 hnodup.2 fun t' ht' =>
      hkeep t' (fun heq => hnodup.1 (heq ▸ ht')) (hall.2 t' ht')
    refine ⟨s2, ?_, fun p hp => ?_⟩
    · simp only [restoreArtifacts, steady_bind, hfirst, hrest, steady_pure, Bool.and_self]
    · rw [List.forall_mem_cons] at hp
      rw [hsame2 p hp.2, hsame p (by simp [hp.1.1, hp.1.2])]

theorem steady_removeAll : ∀ (paths : List Bytes) (s : Card), paths.Nodup →
    (∀ path ∈ paths, s.lookup path ≠ none) →
    ∃ s', steady device .done (removeAll paths) s = (true, s') ∧ SameExcept paths s s' := by
  intro paths
  induction paths with
  | nil => exact fun s _ _ => ⟨s, rfl, fun _ _ => rfl⟩
  | cons path rest ih =>
    intro s hnodup hall
    rw [List.nodup_cons] at hnodup
    rw [List.forall_mem_cons] at hall
    obtain ⟨s2, hrest, hsame⟩ := ih (s.erase path) hnodup.2 fun p hp => by
      have hother : p ≠ path := by
        rintro rfl
        exact hnodup.1 hp
      rw [AList.lookup_erase_ne hother]
      exact hall.2 p hp
    refine ⟨s2, ?_, fun p hp => ?_⟩
    · have hsome : (s.lookup path).isSome = true := Option.isSome_iff_ne_none.mpr hall.1
      simp only [removeAll, steady_bind, steady_removeFile, hsome, if_true, hrest, steady_pure, Bool.and_self]
    · rw [List.mem_cons, not_or] at hp
      rw [hsame p hp.2, AList.lookup_erase_ne hp.1]

/-- The files of a listing. -/
theorem mem_collectFiles {directory suffix p : Bytes} (h : p ∈ collectFiles directory suffix s) :
    directory <+: p ∧ suffix <:+ p ∧ s.lookup p ≠ none := by
  simp only [collectFiles, List.mem_filter, Bool.and_eq_true, List.isPrefixOf_iff_prefix,
    List.isSuffixOf_iff_suffix] at h
  exact ⟨h.2.1, h.2.2, Option.isSome_iff_ne_none.mp (AList.lookup_isSome.mpr (AList.mem_keys.mpr h.1))⟩

theorem nodup_collectFiles (directory suffix : Bytes) (s : Card) : (collectFiles directory suffix s).Nodup :=
  (AList.keys_nodup s).filter _

/-- Where the files of a transaction are. -/
def Role.directory (hasIndex : Bool) : Role → Bytes
  | .journal | .temporary => ascii "/POWERMON/state/retention"
  | .record => if hasIndex then ascii "/POWERMON/records/" else ascii "/POWERMON/events/"
  | .index => ascii "/POWERMON/indexes/"
  | .recordTrash | .indexTrash => ascii "/POWERMON/recovery/"

theorem Removable.directory (h : Removable j segment request) (role : Role) (hrole : role.Relevant segment) :
    role.directory segment.hasIndex <+: role.path segment := by
  have htrash : ascii "/POWERMON/recovery/" ++ ascii "retention-trash" = cleanupTrashDirectory := by
    decide
  cases role with
  | journal =>
    have hpath : ascii "/POWERMON/state/retention" ++ ascii ".journal" = cleanupJournalPath := by decide
    exact ⟨_, hpath⟩
  | temporary =>
    have hpath : ascii "/POWERMON/state/retention" ++ ascii ".journal.tmp" = cleanupTemporary := by
      decide
    exact ⟨_, hpath⟩
  | record =>
    rcases h.cases with ⟨hhas, x, hrecord, -⟩ | ⟨hhas, x, hrecord, -⟩
    · rw [Role.path, Role.directory, hrecord, hhas]
      exact List.prefix_append _ _
    · rw [Role.path, Role.directory, hrecord, hhas]
      exact List.prefix_append _ _
  | index =>
    rcases h.cases with ⟨-, x, -, hindex⟩ | ⟨hhas, -⟩
    · rw [Role.path, Role.directory, hindex]
      exact List.prefix_append _ _
    · rw [Role.Relevant, hhas] at hrole
      cases hrole
  | recordTrash =>
    rw [Role.path, Role.directory, Cleanup.recordTrash, ← htrash, List.append_assoc]
    exact List.prefix_append _ _
  | indexTrash =>
    rw [Role.path, Role.directory, Cleanup.indexTrash, if_neg (indexPath_ne_nil hrole), ← htrash,
      List.append_assoc]
    exact List.prefix_append _ _

/-- A path is in one directory only. -/
theorem not_prefix_of_prefix {directory other p : Bytes} (h : directory <+: p)
    (h1 : ¬ directory <+: other) (h2 : ¬ other <+: directory) : ¬ other <+: p := fun h' =>
  (List.prefix_or_prefix_of_prefix h h').elim h1 h2

/-- What is seen once the temporary journal took its place. -/
def promoted (v : Role → Option Bytes) : Role → Option Bytes :=
  Function.update (Function.update v .journal ((v .journal).or (v .temporary))) .temporary none

theorem Sees.congr {s' : Card} (hs : Sees segment s v)
    (h : ∀ role : Role, role.Relevant segment → s'.lookup (role.path segment) = s.lookup (role.path segment)) :
    Sees segment s' v := fun role hrole => (h role hrole).trans (hs role hrole)

/-- Temporary files in another directory are not among the six. -/
theorem Sees.restore (hs : Sees segment s v) (directory suffix : Bytes) (hslash : 47 ∉ suffix)
    (hroles : ∀ role : Role, role.Relevant segment →
      ¬ directory ++ [47] <+: role.path segment ∨
        (¬ suffix <:+ role.path segment ∧ s.lookup (role.path segment ++ suffix) = none)) :
    ∃ s', steady device .done (restoreArtifacts suffix (collectFiles (directory ++ [47]) suffix s)) s = (true, s') ∧
      Sees segment s' v ∧ ∀ p, ¬ directory ++ [47] <+: p → s'.lookup p = s.lookup p := by
  obtain ⟨s', hsteady, hsame⟩ := steady_restoreArtifacts suffix (collectFiles (directory ++ [47]) suffix s) s
    (nodup_collectFiles ..) fun t ht => (mem_collectFiles ht).2.2
  have hother : ∀ p, ¬ directory ++ [47] <+: p → s'.lookup p = s.lookup p := by
    intro p hp
    refine hsame p fun t ht => ?_
    obtain ⟨hdirectory, hsuffix, -⟩ := mem_collectFiles ht
    constructor
    · rintro rfl
      exact hp hdirectory
    · rintro rfl
      exact hp (prefix_targetOf hdirectory hsuffix hslash)
  refine ⟨s', hsteady, hs.congr fun role hrole => ?_, hother⟩
  rcases hroles role hrole with hnot | ⟨hnot, hnone⟩
  · exact hother _ hnot
  · refine hsame _ fun t ht => ?_
    obtain ⟨-, hsuffix, hpresent⟩ := mem_collectFiles ht
    constructor
    · rintro heq
      exact hnot (heq ▸ hsuffix)
    · rintro heq
      rw [heq, targetOf_append hsuffix] at hnone
      exact hpresent hnone

/-- No file of a transaction is in a directory, except those of some roles. -/
theorem Removable.outside (h : Removable j segment request) {directory : Bytes} (role : Role)
    (hrole : role.Relevant segment) (h1 : ¬ role.directory segment.hasIndex <+: directory)
    (h2 : ¬ directory <+: role.directory segment.hasIndex) : ¬ directory <+: role.path segment :=
  not_prefix_of_prefix (h.directory role hrole) h1 h2

theorem not_suffix {s s' p : Bytes} (hp : s <:+ p) (h : s.reverse.take 4 ≠ s'.reverse.take 4)
    (hs : 4 ≤ s.length) (hs' : 4 ≤ s'.length) : ¬ s' <:+ p :=
  fun hp' => ne_of_suffix hp hp' h hs hs' rfl

/-- The temporary journal takes its place, or is removed. -/
theorem Sees.promote (h : Removable j segment request) (hs : Sees segment s v) :
    ∃ s', steady device .done (recoverAtomicTemp cleanupJournalPath) s = (true, s') ∧
      Sees segment s' (promoted v) ∧ SameExcept [cleanupJournalPath, cleanupTemporary] s s' := by
  have htemporary : s.lookup cleanupTemporary = v .temporary := hs .temporary trivial
  have hjournal : s.lookup cleanupJournalPath = v .journal := hs .journal trivial
  have htarget : targetOf (ascii ".tmp") cleanupTemporary = cleanupJournalPath := by decide
  have hframe : ∀ p, p ∉ [cleanupJournalPath, cleanupTemporary] → p ≠ cleanupJournalPath ∧ p ≠ cleanupTemporary := by
    simp
  unfold recoverAtomicTemp
  rw [show cleanupJournalPath ++ ascii ".tmp" = cleanupTemporary from rfl]
  simp only [steady_bind, steady_fileExists, steady_ite, htemporary]
  cases hv : v .temporary with
  | none =>
    refine ⟨s, by simp, fun role hrole => ?_, SameExcept.refl _ _⟩
    rw [hs role hrole, promoted, hv, Option.or_none, Function.update_eq_self, ← hv, Function.update_eq_self]
  | some content =>
    rw [if_neg (by simp), steady_restoreArtifact_eq (ascii ".tmp") (htemporary.trans hv), htarget, hjournal]
    refine ⟨_, rfl, ?_⟩
    cases hj : v .journal with
    | none =>
      rw [if_neg (by simp)]
      refine ⟨?_, fun p hp => ?_⟩
      · have hsees := (hs.erase h .temporary trivial).insert h .journal trivial content
        intro role hrole
        refine (hsees role hrole).trans ?_
        rw [promoted, hv, hj, Option.none_or]
        cases role <;> rfl
      · rw [AList.lookup_insert_ne (hframe p hp).1, AList.lookup_erase_ne (hframe p hp).2]
    | some old =>
      rw [if_pos (by simp)]
      refine ⟨?_, fun p hp => AList.lookup_erase_ne (hframe p hp).2⟩
      have hsees := hs.erase h .temporary trivial
      rwa [promoted, hj, Option.some_or, ← hj, Function.update_eq_self]

/-- The temporary file of the event journal. -/
theorem Sees.events (h : Removable j segment request) (hs : Sees segment s v) :
    ∃ s', steady device .done (recoverAtomicTemp eventJournalPath) s = (true, s') ∧ Sees segment s' v ∧
      SameExcept [eventJournalPath, eventJournalPath ++ ascii ".tmp"] s s' := by
  have hsees : ∀ s', SameExcept [eventJournalPath, eventJournalPath ++ ascii ".tmp"] s s' → Sees segment s' v := by
    intro s' hsame
    refine hs.congr fun role hrole => hsame _ fun hmem => ?_
    have hevents : ascii "/POWERMON/state/event" <+: role.path segment := by
      simp only [List.mem_cons, List.not_mem_nil, or_false] at hmem
      rcases hmem with heq | heq
      · rw [heq, ← List.isPrefixOf_iff_prefix]
        decide
      · rw [heq, ← List.isPrefixOf_iff_prefix]
        decide
    revert hevents
    refine h.outside role hrole ?_ ?_
    · rw [← List.isPrefixOf_iff_prefix]
      cases segment.hasIndex <;> cases role <;> decide
    · rw [← List.isPrefixOf_iff_prefix]
      cases segment.hasIndex <;> cases role <;> decide
  unfold recoverAtomicTemp
  simp only [steady_bind, steady_fileExists, steady_ite]
  cases hcontent : s.lookup (eventJournalPath ++ ascii ".tmp") with
  | none => exact ⟨s, by simp, hs, SameExcept.refl _ _⟩
  | some content =>
    have htarget : targetOf (ascii ".tmp") (eventJournalPath ++ ascii ".tmp") = eventJournalPath := by
      decide
    obtain ⟨s', hsteady, hsame, -⟩ := steady_restoreArtifact (ascii ".tmp") (hcontent ▸ Option.some_ne_none content)
    rw [htarget] at hsame
    have hsame' : SameExcept [eventJournalPath, eventJournalPath ++ ascii ".tmp"] s s' :=
      hsame.mono (by simp)
    rw [if_neg (by simp)]
    exact ⟨s', hsteady, hsees s' hsame', hsame'⟩

/-- The directory is none of those of the six files. -/
def Foreign (hasIndex : Bool) (directory : Bytes) (role : Role) : Prop :=
  (role.directory hasIndex).isPrefixOf directory = false ∧ directory.isPrefixOf (role.directory hasIndex) = false

instance (hasIndex : Bool) (directory : Bytes) (role : Role) : Decidable (Foreign hasIndex directory role) := by
  unfold Foreign
  infer_instance

theorem Removable.foreign (h : Removable j segment request) {directory : Bytes} {role : Role}
    (hrole : role.Relevant segment) (hforeign : Foreign segment.hasIndex directory role) :
    ¬ directory <+: role.path segment := by
  refine h.outside role hrole ?_ ?_
  · rw [← List.isPrefixOf_iff_prefix, hforeign.1]
    simp
  · rw [← List.isPrefixOf_iff_prefix, hforeign.2]
    simp

/-- A file beside one of the six, in the directory of the record or of the index. -/
theorem Removable.beside (h : Removable j segment request) (role : Role) (hrole : role.Relevant segment)
    (suffix : Bytes) {directory : Bytes} (hforeign : Foreign segment.hasIndex directory role) :
    ¬ directory <+: role.path segment ++ suffix :=
  not_prefix_of_prefix ((h.directory role hrole).trans (List.prefix_append _ _))
    (by rw [← List.isPrefixOf_iff_prefix, hforeign.1]; simp)
    (by rw [← List.isPrefixOf_iff_prefix, hforeign.2]; simp)

/-- **The temporary files are settled**: of the six, only the journal changes. -/
theorem steady_recoverTemporaries (h : Removable j segment request) (hs : Sees segment s v)
    (hrepair : s.lookup (segment.recordPath ++ ascii ".repair") = none)
    (hprevious : segment.hasIndex = true → s.lookup (segment.indexPath ++ ascii ".previous") = none) :
    ∃ s', steady device .done recoverTemporaries s = (true, s') ∧ Sees segment s' (promoted v) := by
  have hslashes : 47 ∉ ascii ".tmp" ∧ 47 ∉ ascii ".repair" ∧ 47 ∉ ascii ".previous" := by decide
  -- the copies beside the record and the index stay missing until they are looked for
  have hbeside : ∀ s s' : Card, (∀ p, ascii "/POWERMON/records/" <+: p ∨ ascii "/POWERMON/events/" <+: p ∨
      ascii "/POWERMON/indexes/" <+: p → s'.lookup p = s.lookup p) →
      s'.lookup (segment.recordPath ++ ascii ".repair") = s.lookup (segment.recordPath ++ ascii ".repair") ∧
      (segment.hasIndex = true →
        s'.lookup (segment.indexPath ++ ascii ".previous") = s.lookup (segment.indexPath ++ ascii ".previous")) := by
    intro s s' hsame
    rcases h.cases with ⟨hhas, x, hrecord, hindex⟩ | ⟨hhas, x, hrecord, hindex⟩
    · refine ⟨hsame _ (Or.inl ?_), fun _ => hsame _ (Or.inr (Or.inr ?_))⟩
      · rw [hrecord, recordStem, List.append_assoc]
        exact List.prefix_append _ _
      · rw [hindex, indexStem, List.append_assoc]
        exact List.prefix_append _ _
    · refine ⟨hsame _ (Or.inr (Or.inl ?_)), fun h => by rw [hhas] at h; cases h⟩
      rw [hrecord, eventStem, List.append_assoc]
      exact List.prefix_append _ _
  obtain ⟨s1, h1, hs1, hsame1⟩ := hs.events h
  obtain ⟨s2, h2, hs2, hsame2⟩ := hs1.promote h
  obtain ⟨s3, h3, hs3, hsame3⟩ := hs2.restore (ascii "/POWERMON/state/segments") (ascii ".tmp") hslashes.1 fun role hrole => Or.inl (h.foreign hrole (by
      cases segment.hasIndex <;> cases role <;> decide))
  have hnear3 : ∀ p, ascii "/POWERMON/records/" <+: p ∨ ascii "/POWERMON/events/" <+: p ∨
      ascii "/POWERMON/indexes/" <+: p → s3.lookup p = s.lookup p := by
    intro p hp
    have hoff : ¬ ascii "/POWERMON/state/" <+: p := by
      have hdirs : ∀ d : Bytes, d <+: p → d.isPrefixOf (ascii "/POWERMON/state/") = false →
          (ascii "/POWERMON/state/").isPrefixOf d = false → ¬ ascii "/POWERMON/state/" <+: p := by
        intro d hd h1 h2
        refine not_prefix_of_prefix hd ?_ ?_
        · rw [← List.isPrefixOf_iff_prefix, h1]
          simp
        · rw [← List.isPrefixOf_iff_prefix, h2]
          simp
      rcases hp with hp | hp | hp
      · exact hdirs _ hp (by decide) (by decide)
      · exact hdirs _ hp (by decide) (by decide)
      · exact hdirs _ hp (by decide) (by decide)
    have hunder : ∀ q : Bytes, (ascii "/POWERMON/state/").isPrefixOf q = true → p ≠ q := by
      rintro q hq rfl
      exact hoff (List.isPrefixOf_iff_prefix.mp hq)
    rw [hsame3 p fun hp' => hoff (List.IsPrefix.trans (List.isPrefixOf_iff_prefix.mp (by decide)) hp'),
      hsame2 p, hsame1 p]
    · simp only [List.mem_cons, List.not_mem_nil, or_false, not_or]
      exact ⟨hunder _ (by decide), hunder _ (by decide)⟩
    · simp only [List.mem_cons, List.not_mem_nil, or_false, not_or]
      exact ⟨hunder _ (by decide), hunder _ (by decide)⟩
  obtain ⟨hrepair3, hprevious3⟩ := hbeside s s3 hnear3
  obtain ⟨s4, h4, hs4, hsame4⟩ := hs3.restore (ascii "/POWERMON/records") (ascii ".repair") hslashes.2.1 fun role hrole => by
      cases hhas : segment.hasIndex with
      | false =>
        refine Or.inl (h.foreign hrole ?_)
        rw [hhas]
        cases role <;> decide
      | true =>
        by_cases heq : role = .record
        · subst heq
          refine Or.inr ⟨not_suffix (h.suffix .record hrole) ?_ ?_ ?_, hrepair3.trans hrepair⟩
          · rw [hhas]; decide
          · rw [hhas]; decide
          · decide
        · refine Or.inl (h.foreign hrole ?_)
          rw [hhas]
          cases role <;> first | exact absurd rfl heq | decide
  obtain ⟨s5, h5, hs5, -⟩ := hs4.restore (ascii "/POWERMON/indexes") (ascii ".previous") hslashes.2.2 fun role hrole => by
      by_cases heq : role = .index
      · subst heq
        refine Or.inr ⟨not_suffix (h.suffix .index hrole) (by cases segment.hasIndex <;> decide)
          (Role.length_ending ..) (by decide), ?_⟩
        have hnot : ¬ ascii "/POWERMON/records" ++ [47] <+: segment.indexPath ++ ascii ".previous" :=
          h.beside .index hrole _ (by cases segment.hasIndex <;> decide)
        rw [Role.path, hsame4 _ hnot, hprevious3 hrole, hprevious hrole]
      · refine Or.inl (h.foreign hrole ?_)
        cases segment.hasIndex <;> cases role <;> first | exact absurd rfl heq | decide
  obtain ⟨s6, h6, hsame6⟩ := steady_removeAll
    (collectFiles (ascii "/POWERMON/indexes/") (ascii ".rebuild") s5) s5 (nodup_collectFiles ..)
    fun p hp => (mem_collectFiles hp).2.2
  refine ⟨s6, ?_, hs5.congr fun role hrole => hsame6 _ fun hmem => ?_⟩
  · rw [show ascii "/POWERMON/state/segments" ++ [47] = ascii "/POWERMON/state/segments/" by decide] at h3
    rw [show ascii "/POWERMON/records" ++ [47] = ascii "/POWERMON/records/" by decide] at h4
    rw [show ascii "/POWERMON/indexes" ++ [47] = ascii "/POWERMON/indexes/" by decide] at h5
    simp only [recoverTemporaries, steady_bind, h1, runIf, if_true, h2, steady_listFiles, h3, h4, h5,
      h6, steady_pure, Bool.and_self]
  · exact not_suffix (h.suffix role hrole) (by cases segment.hasIndex <;> cases role <;> decide)
      (Role.length_ending ..) (by decide) (mem_collectFiles hmem).2.1

/-! ### The journal -/

/-- What the journal of a segment says. -/
def journalOf (segment : CleanupSegment) (stage : Stage) : CleanupJournal where
  stage := stage.text
  recordPath := segment.recordPath
  indexPath := segment.indexPath
  recordTrash := Cleanup.recordTrash segment
  indexTrash := Cleanup.indexTrash segment

theorem zero_notMem_trash (segment : CleanupSegment) :
    0 ∉ Cleanup.recordTrash segment ∧ 0 ∉ Cleanup.indexTrash segment := by
  have htoken : 0 ∉ pathToken segment.recordPath := notMem_hexText (by decide)
  have hdirectory : 0 ∉ cleanupTrashDirectory ∧ 0 ∉ ascii ".pmr.trash" ∧ 0 ∉ ascii ".idx.trash" := by
    decide
  constructor
  · simp [Cleanup.recordTrash, htoken, hdirectory]
  · unfold Cleanup.indexTrash
    split
    · simp
    · simp [htoken, hdirectory]

theorem readEnvelopeLine_line {init : Bytes} (h : (10 : UInt8) ∉ init) (hlength : (init ++ [10]).length ≤ 8193) :
    readEnvelopeLine (init ++ [10]) = some (init ++ [10]) := by
  have hlines := (lines_line h []).1
  unfold readEnvelopeLine
  rw [hlines]
  simp only
  rw [if_pos hlength]

/-- **The journal reads back.** -/
theorem parse_journalLine (hj : j.Lawful) (h : Removable j segment request) (stage : Stage) :
    parseCleanupJournal j (some (journalLine j segment request stage)) = some (journalOf segment stage) := by
  have hnodup : ((cleanupDocument segment request stage).map Prod.fst).Nodup := by
    have hnames : (cleanupDocument segment request stage).map Prod.fst =
        (cleanupDocument ⟨[], [], 0, 0⟩ {} .planned).map Prod.fst := rfl
    rw [hnames]
    decide
  obtain ⟨view, hview, hshows⟩ := hj.readsBack _ hnodup
  obtain ⟨init, hline, hinit⟩ := encodeEnvelope_line (hj.newline (cleanupDocument segment request stage))
  have htext : ∀ name t, (ascii name, text t) ∈ cleanupDocument segment request stage → 0 ∉ t →
      cString ((view (ascii name)).text.getD []) = t := by
    intro name t hmem hzero
    have hshow := hshows _ _ hmem
    simp only [Shows, text] at hshow
    rw [hshow, Option.getD_some, cString_of_notMem hzero]
  have hread : readEnvelopeLine (journalLine j segment request stage) = some (journalLine j segment request stage) := by
    have hfits := h.fits stage
    unfold journalLine at hfits ⊢
    rw [hline] at hfits ⊢
    exact readEnvelopeLine_line hinit hfits
  have hdecode := decodeEnvelope_encodeEnvelope (j.serialize (cleanupDocument segment request stage))
  obtain ⟨hrecord, hindex⟩ := zero_notMem_trash segment
  unfold parseCleanupJournal
  rw [Option.bind_some, hread]
  simp only [Option.bind_eq_bind, Option.bind_some]
  rw [journalLine, hdecode]
  simp only [Option.bind_some, hview]
  rw [htext "stage" stage.text (by simp [cleanupDocument]) (by cases stage <;> decide),
    htext "record_path" segment.recordPath (by simp [cleanupDocument]) h.terminated.1,
    htext "index_path" segment.indexPath (by simp [cleanupDocument]) h.terminated.2,
    htext "record_trash" _ (by simp [cleanupDocument]) hrecord,
    htext "index_trash" _ (by simp [cleanupDocument]) hindex]
  rfl

theorem pathsSafe_journalOf (h : Removable j segment request) (stage : Stage) :
    pathsSafe (journalOf segment stage) = true := by
  have htrash : ∀ t, cleanupTrashDirectory.isPrefixOf (cleanupTrashDirectory ++ t) = true := fun t =>
    List.isPrefixOf_iff_prefix.mpr (List.prefix_append _ _)
  have hne : Cleanup.recordTrash segment ≠ [] := by
    simp [Cleanup.recordTrash]
  rcases h.cases with ⟨-, x, hrecord, hindex⟩ | ⟨-, x, hrecord, hindex⟩
  · have hrecord' : (ascii "/POWERMON/records/").isPrefixOf segment.recordPath = true := by
      rw [hrecord, List.isPrefixOf_iff_prefix]
      exact List.prefix_append _ _
    have hindex' : (ascii "/POWERMON/indexes/").isPrefixOf segment.indexPath = true := by
      rw [hindex, List.isPrefixOf_iff_prefix]
      exact List.prefix_append _ _
    have hne' : segment.indexPath ≠ [] := by
      rw [hindex]
      simp [indexStem, show ascii "/POWERMON/indexes/" ≠ [] by decide]
    simp only [pathsSafe, journalOf, hrecord', hindex', Cleanup.recordTrash, Cleanup.indexTrash, if_neg hne',
      htrash]
    simp
  · have hrecord' : (ascii "/POWERMON/events/").isPrefixOf segment.recordPath = true := by
      rw [hrecord, List.isPrefixOf_iff_prefix]
      exact List.prefix_append _ _
    simp only [pathsSafe, journalOf, hrecord', hindex, Cleanup.recordTrash, Cleanup.indexTrash, if_true, htrash]
    simp

/-! ### What a recovery leaves -/

/-- The segment is at its place, and nothing is left of the transaction. -/
def original (record : Bytes) (index : Option Bytes) : Role → Option Bytes
  | .record => some record
  | .index => index
  | _ => none

/-- Nothing is left of the segment and of the transaction. -/
def gone : Role → Option Bytes := fun _ => none

theorem Sees.removeIfPresent (h : Removable j segment request) (hs : Sees segment s v)
    (role : Role) (hrole : role.Relevant segment) :
    ∃ s', steady device .done (removeIfPresent (role.path segment)) s = (true, s') ∧
      Sees segment s' (Function.update v role none) := by
  unfold SdStorage.removeIfPresent
  simp only [steady_bind, steady_ite]
  rw [hs.exists role hrole]
  cases hv : v role with
  | none =>
    rw [if_neg (by simp)]
    exact ⟨s, rfl, by rwa [← hv, Function.update_eq_self]⟩
  | some content =>
    obtain ⟨s', hsteady, hsees⟩ := hs.remove h role hrole
    rw [if_pos (by simp), hsteady, hv]
    exact ⟨s', rfl, hsees⟩

theorem Sees.clear (h : Removable j segment request) (hs : Sees segment s v) :
    ∃ s', steady device .done clearCleanupJournal s = (true, s') ∧
      Sees segment s' (Function.update (Function.update v .journal none) .temporary none) := by
  obtain ⟨s1, h1, hs1⟩ := hs.removeIfPresent h .journal trivial
  obtain ⟨s2, h2, hs2⟩ := hs1.removeIfPresent h .temporary trivial
  simp only [Role.path] at h1 h2
  exact ⟨s2, by simp only [clearCleanupJournal, steady_bind, h1, h2, steady_pure, Bool.and_self], hs2⟩

/-- A file in the trash goes back to its place, which is free. -/
theorem Sees.moveBack (h : Removable j segment request) (hs : Sees segment s v) (role role' : Role)
    (hrole : role.Relevant segment) (hrole' : role'.Relevant segment) (hfree : v role ≠ none → v role' = none) :
    ∃ s', steady device .done (runIf (v role).isSome (renameFile (role.path segment) (role'.path segment)) true) s =
        (true, s') ∧ Sees segment s' (Function.update (Function.update v role none) role' ((v role').or (v role))) := by
  unfold runIf
  rw [steady_ite]
  cases hv : v role with
  | none =>
    rw [if_neg (by simp)]
    refine ⟨s, rfl, ?_⟩
    rwa [Option.or_none, ← hv, Function.update_eq_self, Function.update_eq_self]
  | some content =>
    have hnone : v role' = none := hfree (by rw [hv]; simp)
    rw [if_pos (by simp), hnone, Option.none_or]
    exact hs.rename h role role' hrole hrole' hv hnone

/-- A file in the trash is removed. -/
theorem Sees.drop (h : Removable j segment request) (hs : Sees segment s v) (role : Role)
    (hrole : role.Relevant segment) :
    ∃ s', steady device .done (runIf (v role).isSome (removeFile (role.path segment)) true) s = (true, s') ∧
      Sees segment s' (Function.update v role none) := by
  unfold runIf
  rw [steady_ite]
  cases hv : v role with
  | none =>
    rw [if_neg (by simp)]
    exact ⟨s, rfl, by rwa [← hv, Function.update_eq_self]⟩
  | some content =>
    obtain ⟨s', hsteady, hsees⟩ := hs.remove h role hrole
    rw [if_pos (by simp), hsteady, hv]
    exact ⟨s', rfl, hsees⟩

/-- What is found of a transaction. -/
def snapshotOf (segment : CleanupSegment) (stage : Stage) (v : Role → Option Bytes) : CleanupRecoverySnapshot where
  stage := stage.text
  hasIndex := segment.hasIndex
  recordOriginalExists := (v .record).isSome
  recordTrashExists := (v .recordTrash).isSome
  indexOriginalExists := segment.hasIndex && (v .index).isSome
  indexTrashExists := segment.hasIndex && (v .indexTrash).isSome

theorem Sees.snapshot (hs : Sees segment s v) (stage : Stage) :
    steady device .done (takeSnapshot (journalOf segment stage)) s = (snapshotOf segment stage v, s) := by
  have hrecord := hs.exists .record trivial
  have htrash := hs.exists .recordTrash trivial
  simp only [Role.path] at hrecord htrash
  unfold takeSnapshot journalOf runIf
  simp only [steady_bind, hrecord, htrash, steady_ite]
  cases hhas : segment.hasIndex with
  | true =>
    have hindex := hs.exists .index hhas
    have hindexTrash := hs.exists .indexTrash hhas
    have hne := indexPath_ne_nil hhas
    have hne' : Cleanup.indexTrash segment ≠ [] := by
      simp [Cleanup.indexTrash, hne]
    simp only [Role.path] at hindex hindexTrash
    simp [hne, hne', hindex, hindexTrash, snapshotOf, hhas]
  | false =>
    have hnil : segment.indexPath = [] := by simpa [CleanupSegment.hasIndex] using hhas
    simp [hnil, Cleanup.indexTrash, snapshotOf, hhas]

/-- A planned transaction, each file at one of its two places. -/
theorem action_planned {s : CleanupRecoverySnapshot} (hstage : s.stage = Stage.planned.text)
    (hrecord : s.recordOriginalExists = !s.recordTrashExists)
    (hindex : s.hasIndex = true → s.indexOriginalExists = !s.indexTrashExists) :
    cleanupRecoveryAction s =
      if s.recordTrashExists || (s.hasIndex && s.indexTrashExists) then .reverseMoves else .clearJournal := by
  obtain ⟨stage, hasIndex, recordOriginal, recordTrash, indexOriginal, indexTrash⟩ := s
  simp only at hstage hrecord hindex
  subst hstage hrecord
  cases hasIndex with
  | false => cases recordTrash <;> rfl
  | true =>
    rw [hindex rfl]
    cases recordTrash <;> cases indexTrash <;> rfl

/-- A transaction whose files were moved. -/
theorem action_moved {s : CleanupRecoverySnapshot} {stage : Stage} (hstage : s.stage = stage.text)
    (hmoved : stage ≠ .planned) (hrecord : s.recordOriginalExists = false)
    (hindex : s.hasIndex = true → s.indexOriginalExists = false) :
    cleanupRecoveryAction s =
      if s.recordTrashExists || (s.hasIndex && s.indexTrashExists) then .forwardDelete else .clearJournal := by
  obtain ⟨text, hasIndex, recordOriginal, recordTrash, indexOriginal, indexTrash⟩ := s
  simp only at hstage hrecord hindex
  subst hstage hrecord
  have hplanned : stage.text ≠ Stage.planned.text := by
    cases stage <;> first | exact absurd rfl hmoved | decide
  have hknown : stage.text = Stage.filesMoved.text ∨ stage.text = Stage.recordDeleted.text ∨
      stage.text = Stage.complete.text := by
    cases stage <;> first | exact absurd rfl hmoved | simp
  unfold cleanupRecoveryAction
  cases hasIndex with
  | false => cases recordTrash <;> simp [hplanned, hknown]
  | true =>
    rw [hindex rfl]
    cases recordTrash <;> cases indexTrash <;> simp [hplanned, hknown]

theorem performRecovery_planned {s : CleanupRecoverySnapshot} (journal : CleanupJournal)
    (hstage : s.stage = Stage.planned.text) (hrecord : s.recordOriginalExists = !s.recordTrashExists)
    (hindex : s.hasIndex = true → s.indexOriginalExists = !s.indexTrashExists) :
    performRecovery journal s =
      if s.recordTrashExists || (s.hasIndex && s.indexTrashExists) then reverseMoves journal s else return true := by
  unfold performRecovery
  rw [action_planned hstage hrecord hindex]
  cases s.recordTrashExists || (s.hasIndex && s.indexTrashExists) <;> rfl

theorem performRecovery_moved {s : CleanupRecoverySnapshot} {stage : Stage} (journal : CleanupJournal)
    (hstage : s.stage = stage.text) (hmoved : stage ≠ .planned) (hrecord : s.recordOriginalExists = false)
    (hindex : s.hasIndex = true → s.indexOriginalExists = false) :
    performRecovery journal s =
      if s.recordTrashExists || (s.hasIndex && s.indexTrashExists) then forwardDelete journal s else return true := by
  unfold performRecovery
  rw [action_moved hstage hmoved hrecord hindex]
  cases s.recordTrashExists || (s.hasIndex && s.indexTrashExists) <;> rfl

/-- A recovery of a card with a journal that reads back. -/
theorem steady_recover_journal (hj : j.Lawful) (h : Removable j segment request) (hs : Sees segment s v)
    (hrepair : s.lookup (segment.recordPath ++ ascii ".repair") = none)
    (hprevious : segment.hasIndex = true → s.lookup (segment.indexPath ++ ascii ".previous") = none)
    {stage : Stage} (hjournal : (v .journal).or (v .temporary) = some (journalLine j segment request stage)) :
    ∃ s', Sees segment s' (promoted v) ∧ steady device .done (recoverCleanupJournal j) s =
      steady device .done (resumeCleanup (journalOf segment stage)) s' := by
  obtain ⟨s1, h1, hs1⟩ := steady_recoverTemporaries h hs hrepair hprevious
  have hcontent : promoted v .journal = some (journalLine j segment request stage) := by
    rw [promoted, Function.update_of_ne (by decide), Function.update_self, hjournal]
  have hlookup : s1.lookup cleanupJournalPath = some (journalLine j segment request stage) :=
    (hs1 .journal trivial).trans hcontent
  refine ⟨s1, hs1, ?_⟩
  unfold recoverCleanupJournal
  simp only [steady_bind, h1, Bool.not_true, Bool.false_eq_true, if_false, steady_fileExists, hlookup,
    Option.isSome_some, steady_readFile, parse_journalLine hj h, pathsSafe_journalOf h]

/-- **A planned transaction is taken back.** -/
theorem recover_planned (hj : j.Lawful) (h : Removable j segment request) (hs : Sees segment s v)
    (hrepair : s.lookup (segment.recordPath ++ ascii ".repair") = none)
    (hprevious : segment.hasIndex = true → s.lookup (segment.indexPath ++ ascii ".previous") = none)
    (hjournal : (v .journal).or (v .temporary) = some (journalLine j segment request .planned))
    (record : Bytes) (index : Option Bytes)
    (hrecord : (v .record = some record ∧ v .recordTrash = none) ∨ (v .record = none ∧ v .recordTrash = some record))
    (hindex : segment.hasIndex = true → index ≠ none ∧
      ((v .index = index ∧ v .indexTrash = none) ∨ (v .index = none ∧ v .indexTrash = index))) :
    ∃ s', steady device .done (recoverCleanupJournal j) s = (true, s') ∧ Sees segment s' (original record index) := by
  obtain ⟨s1, hs1, hsteady⟩ := steady_recover_journal hj h hs hrepair hprevious hjournal
  have hsame : ∀ role, role ≠ .journal → role ≠ .temporary → promoted v role = v role := by
    intro role h1 h2
    rw [promoted, Function.update_of_ne h2, Function.update_of_ne h1]
  rw [← hsame .record (by decide) (by decide), ← hsame .recordTrash (by decide) (by decide)] at hrecord
  rw [← hsame .index (by decide) (by decide), ← hsame .indexTrash (by decide) (by decide)] at hindex
  generalize promoted v = w at *
  rw [hsteady]
  -- the moves are taken back, or there are none
  have hmoved : ∃ s2 w2, steady device .done
      (performRecovery (journalOf segment .planned) (snapshotOf segment .planned w)) s1 = (true, s2) ∧
      Sees segment s2 w2 ∧ w2 .record = some record ∧ w2 .recordTrash = none ∧
      (segment.hasIndex = true → w2 .index = index ∧ w2 .indexTrash = none) := by
    have hreverse : ∃ s2 w2, steady device .done
        (reverseMoves (journalOf segment .planned) (snapshotOf segment .planned w)) s1 = (true, s2) ∧
        Sees segment s2 w2 ∧ w2 .record = some record ∧ w2 .recordTrash = none ∧
        (segment.hasIndex = true → w2 .index = index ∧ w2 .indexTrash = none) := by
      obtain ⟨s2, h2, hs2⟩ := hs1.moveBack h .recordTrash .record trivial trivial (by
        rcases hrecord with ⟨-, hnone⟩ | ⟨hnone, -⟩
        · exact fun hne => absurd hnone hne
        · exact fun _ => hnone)
      have hrecord2 : (w .record).or (w .recordTrash) = some record := by
        rcases hrecord with ⟨hr, ht⟩ | ⟨hr, ht⟩
        · rw [hr, ht]; rfl
        · rw [hr, ht]; rfl
      rw [hrecord2] at hs2
      simp only [Role.path] at h2
      unfold reverseMoves journalOf snapshotOf
      simp only [steady_bind, h2]
      cases hhas : segment.hasIndex with
      | false =>
        refine ⟨s2, _, by simp [runIf], hs2, ?_, ?_, by simp⟩
        · rw [Function.update_self]
        · rw [Function.update_of_ne (by decide), Function.update_self]
      | true =>
        obtain ⟨hsome, hplace⟩ := hindex hhas
        obtain ⟨s3, h3, hs3⟩ := hs2.moveBack h .indexTrash .index hhas hhas (by
          rw [Function.update_of_ne (by decide), Function.update_of_ne (by decide),
            Function.update_of_ne (by decide), Function.update_of_ne (by decide)]
          rcases hplace with ⟨-, hnone⟩ | ⟨hnone, -⟩
          · exact fun hne => absurd hnone hne
          · exact fun _ => hnone)
        simp only [Role.path, Function.update_of_ne (show Role.indexTrash ≠ .record by decide),
          Function.update_of_ne (show Role.indexTrash ≠ .recordTrash by decide)] at h3
        refine ⟨s3, _, by simp [h3], hs3, ?_, ?_, fun _ => ⟨?_, ?_⟩⟩
        · rw [Function.update_of_ne (by decide), Function.update_of_ne (by decide), Function.update_self]
        · rw [Function.update_of_ne (by decide), Function.update_of_ne (by decide),
            Function.update_of_ne (by decide), Function.update_self]
        · rw [Function.update_self, Function.update_of_ne (by decide), Function.update_of_ne (by decide),
            Function.update_of_ne (by decide), Function.update_of_ne (by decide)]
          rcases hplace with ⟨hi, ht⟩ | ⟨hi, ht⟩
          · rw [hi, ht, Option.or_none]
          · rw [hi, ht, Option.none_or]
        · rw [Function.update_of_ne (by decide), Function.update_self]
    rw [performRecovery_planned _ (s := snapshotOf segment .planned w) rfl ?_ ?_]
    · split
      · exact hreverse
      · next hnone =>
        simp only [snapshotOf, Bool.or_eq_true, Bool.and_eq_true, not_or, Bool.not_eq_true,
          Option.isSome_eq_false_iff, Option.isNone_iff_eq_none, not_and] at hnone
        refine ⟨s1, w, rfl, hs1, ?_, hnone.1, fun hhas => ?_⟩
        · rcases hrecord with hplace | hplace
          · exact hplace.1
          · rw [hnone.1] at hplace
            cases hplace.2
        · have htrash := hnone.2 hhas hhas
          rcases (hindex hhas).2 with hplace | hplace
          · exact hplace
          · exact absurd (htrash ▸ hplace.2).symm (hindex hhas).1
    · rcases hrecord with ⟨hr, ht⟩ | ⟨hr, ht⟩ <;> simp [snapshotOf, hr, ht]
    · intro hhas
      have hhas' : segment.hasIndex = true := hhas
      obtain ⟨hsome, hplace⟩ := hindex hhas'
      obtain ⟨content, rfl⟩ := Option.ne_none_iff_exists'.mp hsome
      rcases hplace with ⟨hi, ht⟩ | ⟨hi, ht⟩ <;> simp [snapshotOf, hhas', hi, ht]
  obtain ⟨s2, w2, hmove, hs2, h1, h2, h3⟩ := hmoved
  obtain ⟨s3, hclear, hs3⟩ := hs2.clear h
  refine ⟨s3, ?_, fun role hrole => ?_⟩
  · unfold resumeCleanup
    simp only [steady_bind, hs1.snapshot]
    rw [hmove]
    simp only [runIf, if_true, hclear]
  · rw [hs3 role hrole]
    cases role with
    | journal => rfl
    | temporary => rfl
    | record => exact h1
    | recordTrash => exact h2
    | index => exact (h3 hrole).1
    | indexTrash => exact (h3 hrole).2

/-- **A transaction whose files were moved is finished.** -/
theorem recover_moved (hj : j.Lawful) (h : Removable j segment request) (hs : Sees segment s v)
    (hrepair : s.lookup (segment.recordPath ++ ascii ".repair") = none)
    (hprevious : segment.hasIndex = true → s.lookup (segment.indexPath ++ ascii ".previous") = none)
    {stage : Stage} (hjournal : (v .journal).or (v .temporary) = some (journalLine j segment request stage))
    (hmoved : stage ≠ .planned) (hrecord : v .record = none) (hindex : segment.hasIndex = true → v .index = none) :
    ∃ s', steady device .done (recoverCleanupJournal j) s = (true, s') ∧ Sees segment s' gone := by
  obtain ⟨s1, hs1, hsteady⟩ := steady_recover_journal hj h hs hrepair hprevious hjournal
  have hsame : ∀ role, role ≠ .journal → role ≠ .temporary → promoted v role = v role := by
    intro role h1 h2
    rw [promoted, Function.update_of_ne h2, Function.update_of_ne h1]
  rw [← hsame .record (by decide) (by decide)] at hrecord
  rw [← hsame .index (by decide) (by decide)] at hindex
  generalize promoted v = w at *
  rw [hsteady]
  have hdeleted : ∃ s2 w2, steady device .done
      (performRecovery (journalOf segment stage) (snapshotOf segment stage w)) s1 = (true, s2) ∧
      Sees segment s2 w2 ∧ w2 .record = none ∧ w2 .recordTrash = none ∧
      (segment.hasIndex = true → w2 .index = none ∧ w2 .indexTrash = none) := by
    rw [performRecovery_moved _ (s := snapshotOf segment stage w) rfl hmoved (by simp [snapshotOf, hrecord])
      fun hhas => by simp [snapshotOf, hindex hhas]]
    split
    · obtain ⟨s2, h2, hs2⟩ := hs1.drop h .recordTrash trivial
      simp only [Role.path] at h2
      simp only [forwardDelete, journalOf, snapshotOf, steady_bind, h2]
      cases hhas : segment.hasIndex with
      | false =>
        refine ⟨s2, _, by simp [runIf], hs2, ?_, Function.update_self .., by simp⟩
        rw [Function.update_of_ne (by decide), hrecord]
      | true =>
        obtain ⟨s3, h3, hs3⟩ := hs2.drop h .indexTrash hhas
        simp only [Role.path, Function.update_of_ne (show Role.indexTrash ≠ .recordTrash by decide)] at h3
        refine ⟨s3, _, by simp [h3], hs3, ?_, ?_, fun _ => ⟨?_, Function.update_self ..⟩⟩
        · rw [Function.update_of_ne (by decide), Function.update_of_ne (by decide), hrecord]
        · rw [Function.update_of_ne (by decide), Function.update_self]
        · rw [Function.update_of_ne (by decide), Function.update_of_ne (by decide), hindex hhas]
    · next hnone =>
      simp only [snapshotOf, Bool.or_eq_true, Bool.and_eq_true, not_or, Bool.not_eq_true,
        Option.isSome_eq_false_iff, Option.isNone_iff_eq_none, not_and] at hnone
      exact ⟨s1, w, rfl, hs1, hrecord, hnone.1, fun hhas => ⟨hindex hhas, hnone.2 hhas hhas⟩⟩
  obtain ⟨s2, w2, hdelete, hs2, h1, h2, h3⟩ := hdeleted
  obtain ⟨s3, hclear, hs3⟩ := hs2.clear h
  refine ⟨s3, ?_, fun role hrole => ?_⟩
  · unfold resumeCleanup
    simp only [steady_bind, hs1.snapshot]
    rw [hdelete]
    simp only [runIf, if_true, hclear]
  · rw [hs3 role hrole]
    cases role with
    | journal => rfl
    | temporary => rfl
    | record => exact h1
    | recordTrash => exact h2
    | index => exact (h3 hrole).1
    | indexTrash => exact (h3 hrole).2

/-- **Without a journal there is nothing to recover.** -/
theorem recover_none (h : Removable j segment request) (hs : Sees segment s v)
    (hrepair : s.lookup (segment.recordPath ++ ascii ".repair") = none)
    (hprevious : segment.hasIndex = true → s.lookup (segment.indexPath ++ ascii ".previous") = none)
    (hjournal : v .journal = none) (htemporary : v .temporary = none) :
    ∃ s', steady device .done (recoverCleanupJournal j) s = (true, s') ∧ Sees segment s' v := by
  obtain ⟨s1, h1, hs1⟩ := steady_recoverTemporaries h hs hrepair hprevious
  have hpromoted : promoted v = v := by
    rw [promoted, htemporary, Option.or_none, Function.update_eq_self, ← htemporary, Function.update_eq_self]
  rw [hpromoted] at hs1
  have hlookup : s1.lookup cleanupJournalPath = none := (hs1 .journal trivial).trans hjournal
  refine ⟨s1, ?_, hs1⟩
  unfold recoverCleanupJournal
  simp only [steady_bind, h1, Bool.not_true, Bool.false_eq_true, if_false, steady_fileExists, hlookup,
    Option.isSome_none, Bool.not_false, if_true, steady_pure]

end PowerMonitor.Storage.CleanupRecovery
