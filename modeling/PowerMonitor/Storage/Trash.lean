import Mathlib.Logic.Relation
import PowerMonitor.Lib.Observe
import PowerMonitor.Storage.CleanupRecovery
import PowerMonitor.Storage.Faults

/-! # The trash is accounted for

What is in the trash is named by the journal of the transaction that put it there. A transaction keeps
this whatever rename, removal or write fails (`transaction_accounted`), unless the journal of an earlier
one is removed while its files are still in the trash, or a journal cannot take its place. Both are said of
the calls: the first of the removal of a journal (`Allowed`), the second of the last attempt to put one
into place (`installed`). -/

namespace PowerMonitor.Storage.Trash

open Relation
open PowerMonitor.Lib.Binary PowerMonitor.Lib.Json PowerMonitor.Lib.Program PowerMonitor.Lib.Observe
open PowerMonitor.Storage.RecordFormat PowerMonitor.Storage.Reading PowerMonitor.Storage.Media
open PowerMonitor.Storage.SdStorage PowerMonitor.Storage.Frames PowerMonitor.Storage.Cleanup
open PowerMonitor.Storage.CleanupRecovery

/-! ### The trash -/

def trashPrefix : Bytes := cleanupTrashDirectory ++ [47]

def trashFiles (s : Card) : List Bytes := collectFiles trashPrefix [] s

/-- The files in the trash that a journal names. -/
def named (j : JsonLibrary) (content : Option Bytes) : List Bytes :=
  match parseCleanupJournal j content with
  | none => []
  | some journal => [journal.recordTrash, journal.indexTrash]

/-- **Every file in the trash is named by the journal on the card.** -/
def Accounted (j : JsonLibrary) (s : Card) : Prop :=
  ∀ p ∈ trashFiles s, p ∈ named j (s.lookup cleanupJournalPath)

instance (j : JsonLibrary) (s : Card) : Decidable (Accounted j s) :=
  inferInstanceAs (Decidable (∀ p ∈ trashFiles s, p ∈ named j (s.lookup cleanupJournalPath)))

/-- The trash holds no other files. -/
def TrashIn (names : List Bytes) (s : Card) : Prop := ∀ p ∈ trashFiles s, p ∈ names

/-! ### What may fail -/

/-- Renames, removals and writes may fail. -/
def Faulty : Op → Event → Prop
  | .exists _, e | .read _, e | .list _ _, e => e = .done
  | _, _ => True

/-- Moreover no journal is removed while the trash holds a file that the next one does not name. -/
def Allowed (j : JsonLibrary) (o : Op) (e : Event) (s : Card) : Prop :=
  Faulty o e ∧ (o = .remove cleanupJournalPath → e = .failed ∨ TrashIn (named j (s.lookup cleanupTemporary)) s)

instance (o : Op) (e : Event) : Decidable (Faulty o e) :=
  match o with
  | .exists _ | .read _ | .list _ _ => inferInstanceAs (Decidable (e = .done))
  | .append _ _ | .write _ _ | .remove _ | .rename _ _ | .ensureDirectory _ | .freeBytes => .isTrue trivial

instance (names : List Bytes) (s : Card) : Decidable (TrashIn names s) :=
  inferInstanceAs (Decidable (∀ p ∈ trashFiles s, p ∈ names))

instance (j : JsonLibrary) (o : Op) (e : Event) (s : Card) : Decidable (Allowed j o e s) :=
  inferInstanceAs (Decidable (Faulty o e ∧
    (o = .remove cleanupJournalPath → e = .failed ∨ TrashIn (named j (s.lookup cleanupTemporary)) s)))

/-- The last attempt to put a journal into place succeeded, when there was none and the trash was not
empty. -/
def installed (o : Op) (e : Event) (s : Card) (before : Bool) : Bool :=
  if o = .rename cleanupTemporary cleanupJournalPath ∧ s.lookup cleanupJournalPath = none ∧ trashFiles s ≠ [] then
    decide (e ≠ .failed)
  else before

/-- A program that meets a specification, in the state and with the observation given. -/
abbrev Meets {α : Type} (j : JsonLibrary) (p : CardProg α) (Q : α → Card × Bool → Prop) (s : Card) (g : Bool) : Prop :=
  wp (observe device installed) (fun o e s => Allowed j o e s.1) (fun _ => True) p Q (s, g)

variable {j : JsonLibrary} {segment : CleanupSegment} {request : CleanupRequest} {s s' : Card} {g : Bool}
variable {path content : Bytes} {names : List Bytes}

theorem mem_trashFiles : path ∈ trashFiles s ↔ trashPrefix <+: path ∧ s.lookup path ≠ none := by
  simp only [trashFiles, collectFiles, List.mem_filter, Bool.and_eq_true, List.isPrefixOf_iff_prefix,
    List.isSuffixOf_iff_suffix, List.nil_suffix, and_true]
  rw [← AList.mem_keys, ← AList.lookup_isSome, Option.isSome_iff_ne_none, and_comm]

theorem trashFiles_eq_nil : trashFiles s = [] ↔ TrashIn [] s := by
  rw [List.eq_nil_iff_forall_not_mem]
  exact forall_congr' fun p => by simp

theorem TrashIn.mono {names' : List Bytes} (h : TrashIn names s) (hsub : names ⊆ names') : TrashIn names' s :=
  fun p hp => hsub (h p hp)

/-- The trash is the same. -/
def SameTrash (s s' : Card) : Prop := ∀ p, trashPrefix <+: p → s'.lookup p = s.lookup p

theorem SameTrash.trashIn (h : SameTrash s s') : TrashIn names s' ↔ TrashIn names s := by
  refine forall_congr' fun p => ?_
  rw [mem_trashFiles, mem_trashFiles]
  exact imp_congr_left (and_congr_right fun hp => by rw [h p hp])

/-! ### Operations -/

/-- The file is neither in the trash nor a copy of the journal. -/
def Beside (path : Bytes) : Prop := path ≠ cleanupJournalPath ∧ path ≠ cleanupTemporary ∧ ¬ trashPrefix <+: path

theorem beside_of_leading {directory : Bytes} (hpath : directory <+: path)
    (h : ∀ other ∈ [ascii "/POWERMON/state/retention.journal", ascii "/POWERMON/recovery/"],
      directory.isPrefixOf other = false ∧ other.isPrefixOf directory = false) : Beside path := by
  have hnot : ∀ other ∈ [ascii "/POWERMON/state/retention.journal", ascii "/POWERMON/recovery/"],
      ¬ other <+: path := fun other hother => by
    obtain ⟨h1, h2⟩ := h other hother
    refine not_prefix_of_prefix hpath ?_ ?_
    · rw [← List.isPrefixOf_iff_prefix, h1]
      simp
    · rw [← List.isPrefixOf_iff_prefix, h2]
      simp
  refine ⟨?_, ?_, fun htrash => ?_⟩
  · rintro rfl
    exact hnot _ List.mem_cons_self List.prefix_rfl
  · rintro rfl
    exact hnot _ List.mem_cons_self (List.prefix_append _ _)
  · refine hnot _ (List.mem_cons_of_mem _ List.mem_cons_self) (List.IsPrefix.trans ?_ htrash)
    rw [← List.isPrefixOf_iff_prefix]
    decide

/-- The operation changes only files beside. -/
def BesideOp : Op → Prop
  | .append path _ | .write path _ | .remove path => Beside path
  | .rename source target => Beside source ∧ Beside target
  | _ => True

/-- The journal, its temporary file and the trash are the same. -/
def Keeps (s s' : Card) : Prop := ∀ p, ¬ Beside p → s'.lookup p = s.lookup p

theorem Keeps.trash (h : Keeps s s') : SameTrash s s' := fun p hp => h p fun hbeside => hbeside.2.2 hp

theorem Keeps.journal (h : Keeps s s') : s'.lookup cleanupJournalPath = s.lookup cleanupJournalPath :=
  h _ fun hbeside => hbeside.1 rfl

theorem Keeps.temporary (h : Keeps s s') : s'.lookup cleanupTemporary = s.lookup cleanupTemporary :=
  h _ fun hbeside => hbeside.2.1 rfl

theorem act_keeps {o : Op} (ho : BesideOp o) (e : Event) (hs : Keeps s s') : Keeps s (device.act o e s').1 := by
  intro p hp
  rw [← hs p hp]
  have hne : ∀ q, Beside q → p ≠ q := by
    rintro q hq rfl
    exact hp hq
  cases o with
  | append path content =>
    refine act_sameExcept (show Op.Within [path] (.append path content) by simp [Op.Within]) e (SameExcept.refl _ _) p ?_
    rw [List.mem_singleton]
    exact hne path ho
  | write path content =>
    refine act_sameExcept (show Op.Within [path] (.write path content) by simp [Op.Within]) e (SameExcept.refl _ _) p ?_
    rw [List.mem_singleton]
    exact hne path ho
  | remove path =>
    refine act_sameExcept (show Op.Within [path] (.remove path) by simp [Op.Within]) e (SameExcept.refl _ _) p ?_
    rw [List.mem_singleton]
    exact hne path ho
  | rename source target =>
    refine act_sameExcept (show Op.Within [source, target] (.rename source target) by simp [Op.Within]) e
      (SameExcept.refl _ _) p ?_
    simp only [List.mem_cons, List.not_mem_nil, or_false, not_or]
    exact ⟨hne source ho.1, hne target ho.2⟩
  | _ => rfl

theorem installed_beside {o : Op} (ho : BesideOp o) (e : Event) (s : Card) : installed o e s g = g := by
  refine if_neg fun h => ?_
  rw [h.1] at ho
  exact ho.1.2.1 rfl

/-- **A program that changes only files beside.** -/
theorem meets_beside {α : Type} {p : CardProg α} (hp : p.All BesideOp) :
    Meets j p (fun _ r => Keeps s r.1 ∧ r.2 = g) s g := by
  have hinvariant := wp_of_all (D := observe device installed) (A := fun o e s => Allowed j o e s.1)
    (I := fun r => Keeps s r.1 ∧ r.2 = g) (fun o e r ho _ hr =>
      ⟨act_keeps ho e hr.1, (installed_beside ho e r.1).trans hr.2⟩) hp (s := (s, g)) ⟨fun _ _ => rfl, rfl⟩
  exact wp_mono (fun _ _ => trivial) (fun _ _ h => h) hinvariant

/-- The operation puts nothing into the trash. -/
def OutsideTrash : Op → Prop
  | .append path _ | .write path _ | .rename _ path => ¬ trashPrefix <+: path
  | _ => True

theorem TrashIn.erase (hs : TrashIn names s) (path : Bytes) : TrashIn names (s.erase path) := by
  intro p hp
  rw [mem_trashFiles] at hp
  by_cases heq : p = path
  · rw [heq, AList.lookup_erase] at hp
    exact absurd rfl hp.2
  · rw [AList.lookup_erase_ne heq] at hp
    exact hs p (mem_trashFiles.mpr hp)

theorem act_trashIn {o : Op} (ho : OutsideTrash o) (e : Event) (hs : TrashIn names s) :
    TrashIn names (device.act o e s).1 := by
  have hinsert : ∀ (s : Card) (path content : Bytes), ¬ trashPrefix <+: path → TrashIn names s →
      TrashIn names (s.insert path content) := by
    intro s path content hpath hs p hp
    rw [mem_trashFiles] at hp
    have hne : p ≠ path := by
      rintro rfl
      exact hpath hp.1
    rw [AList.lookup_insert_ne hne] at hp
    exact hs p (mem_trashFiles.mpr hp)
  cases o with
  | append path content =>
    simp only [device]
    split
    · exact hs
    · exact hinsert _ _ _ ho hs
  | write path content =>
    simp only [device]
    split
    · exact hs
    · exact hinsert _ _ _ ho hs
  | remove path =>
    simp only [device]
    split
    · exact hs
    · exact hs.erase path
  | rename source target =>
    simp only [device]
    split
    · exact hs
    · split
      · exact hs
      · exact hinsert _ _ _ ho (hs.erase source)
  | _ => exact hs

theorem meets_outside {α : Type} {p : CardProg α} (hp : p.All OutsideTrash) (hs : TrashIn names s) :
    Meets j p (fun _ r => TrashIn names r.1) s g := by
  have hinvariant := wp_of_all (D := observe device installed) (A := fun o e s => Allowed j o e s.1)
    (I := fun r => TrashIn names r.1) (fun o e r ho _ hr => act_trashIn ho e hr) hp (s := (s, g)) hs
  exact wp_mono (fun _ _ => trivial) (fun _ _ h => h) hinvariant

theorem meets_fileExists {Q : Bool → Card × Bool → Prop} (h : Q (s.lookup path).isSome (s, g)) :
    Meets j (fileExists path) Q s g := by
  refine (wp_op _ _ _).mpr ⟨trivial, fun e he => ?_⟩
  obtain rfl : e = .done := he.1
  simpa [observe, device, installed] using h

theorem meets_readFile {Q : Option Bytes → Card × Bool → Prop} (h : Q (s.lookup path) (s, g)) :
    Meets j (readFile path) Q s g := by
  refine (wp_op _ _ _).mpr ⟨trivial, fun e he => ?_⟩
  obtain rfl : e = .done := he.1
  simpa [observe, device, installed] using h

theorem meets_listFiles {directory suffix : Bytes} {Q : List Bytes → Card × Bool → Prop}
    (h : Q (collectFiles directory suffix s) (s, g)) : Meets j (listFiles directory suffix) Q s g := by
  refine (wp_op _ _ _).mpr ⟨trivial, fun e he => ?_⟩
  obtain rfl : e = .done := he.1
  simpa [observe, device, installed] using h

theorem meets_writeFile {Q : Option ℕ → Card × Bool → Prop} (hfail : Q none (s, g))
    (h : ∀ part reported, (reported = content.length → part = content) →
      Q (some reported) (s.insert path part, g)) : Meets j (writeFile path content) Q s g := by
  refine (wp_op _ _ _).mpr ⟨trivial, fun e _ => ?_⟩
  have hinstalled : ∀ s : Card, installed (.write path content) e s g = g := fun s => if_neg fun h => by cases h.1
  simp only [observe, hinstalled, device]
  split
  · exact hfail
  · obtain ⟨part, reported, hwritten, -, hall⟩ := Faults.written_cases [] content e
    rw [hwritten]
    exact h part reported hall

theorem meets_removeFile {Q : Bool → Card × Bool → Prop} (hfail : Q false (s, g))
    (h : (s.lookup path).isSome = true →
      (path = cleanupJournalPath → TrashIn (named j (s.lookup cleanupTemporary)) s) → Q true (s.erase path, g)) :
    Meets j (removeFile path) Q s g := by
  refine (wp_op _ _ _).mpr ⟨trivial, fun e he => ?_⟩
  have hinstalled : installed (.remove path) e s g = g := if_neg fun h => by cases h.1
  simp only [observe, hinstalled, device]
  split
  · exact hfail
  · next hdone =>
    rw [not_or] at hdone
    refine h (Option.isSome_iff_ne_none.mpr fun hnone => hdone.2 (by simp [hnone])) fun hpath => ?_
    exact (he.2 (by rw [hpath])).resolve_left hdone.1

/-- A rename that is not that of the journal. -/
theorem meets_renameFile {Q : Bool → Card × Bool → Prop} {source target : Bytes}
    (hother : target ≠ cleanupJournalPath) (hfail : Q false (s, g))
    (h : ∀ content, s.lookup source = some content → Q true ((s.erase source).insert target content, g)) :
    Meets j (renameFile source target) Q s g := by
  refine (wp_op _ _ _).mpr ⟨trivial, fun e _ => ?_⟩
  have hinstalled : installed (.rename source target) e s g = g := if_neg fun h => by
    have heq := h.1
    rw [Op.rename.injEq] at heq
    exact hother heq.2
  simp only [observe, hinstalled, device]
  split
  · exact hfail
  · next content hcontent =>
    split
    · exact hfail
    · exact h content hcontent

/-- The temporary file takes the place of the journal. -/
theorem meets_install {Q : Bool → Card × Bool → Prop} (hcontent : s.lookup cleanupTemporary = some content)
    (hpresent : s.lookup cleanupJournalPath ≠ none → Q false (s, g))
    (hfail : s.lookup cleanupJournalPath = none → ∀ g', TrashIn [] s ∨ g' = false → Q false (s, g'))
    (h : s.lookup cleanupJournalPath = none → ∀ g',
      Q true ((s.erase cleanupTemporary).insert cleanupJournalPath content, g')) :
    Meets j (renameFile cleanupTemporary cleanupJournalPath) Q s g := by
  refine (wp_op _ _ _).mpr ⟨trivial, fun e _ => ?_⟩
  simp only [observe, device, hcontent]
  cases hjournal : s.lookup cleanupJournalPath with
  | some old =>
    have hinstalled : installed (.rename cleanupTemporary cleanupJournalPath) e s g = g := if_neg fun h => by
      rw [hjournal] at h
      cases h.2.1
    rw [hinstalled]
    simpa using hpresent (by rw [hjournal]; simp)
  | none =>
    split
    · next hfailed =>
      refine hfail hjournal _ ?_
      by_cases hempty : trashFiles s = []
      · exact Or.inl (trashFiles_eq_nil.mp hempty)
      · refine Or.inr ?_
        rw [installed, if_pos ⟨rfl, hjournal, hempty⟩]
        simpa using hfailed
    · exact h hjournal _

/-! ### Writing a journal -/

theorem journal_beside_trash : ¬ trashPrefix <+: cleanupJournalPath ∧ ¬ trashPrefix <+: cleanupTemporary := by
  rw [← List.isPrefixOf_iff_prefix, ← List.isPrefixOf_iff_prefix]
  decide

theorem temporary_ne_journal : cleanupTemporary ≠ cleanupJournalPath := by
  decide

/-- A change of the temporary file only. -/
theorem sameTrash_of_ne (hpath : ¬ trashPrefix <+: path) (h : ∀ p, p ≠ path → s'.lookup p = s.lookup p) :
    SameTrash s s' := fun p hp => h p fun heq => hpath (heq ▸ hp)

/-- What a journal write leaves: the new journal; the old one; or only the temporary file. -/
structure Persisted (line : Bytes) (names : List Bytes) (s : Card) (g : Bool) (done : Bool) (r : Card × Bool) :
    Prop where
  trash : SameTrash s r.1
  written : done = true → r.1.lookup cleanupJournalPath = some line ∧ TrashIn names r.1
  kept : done = false → r.1.lookup cleanupJournalPath = s.lookup cleanupJournalPath ∨
    (r.1.lookup cleanupJournalPath = none ∧ r.1.lookup cleanupTemporary = some line ∧ TrashIn names r.1 ∧
      (TrashIn [] r.1 ∨ r.2 = false))

/-- The files of the segment that may be in the trash. -/
def own (segment : CleanupSegment) : List Bytes := [recordTrash segment, indexTrash segment]

theorem named_journalLine (hj : j.Lawful) (h : Removable j segment request) (stage : Stage) :
    named j (some (journalLine j segment request stage)) = own segment := by
  unfold named
  rw [parse_journalLine hj h]
  rfl

theorem meets_persist (hj : j.Lawful) (h : Removable j segment request) (stage : Stage)
    (hs : s.lookup cleanupJournalPath = none → TrashIn [] s) :
    Meets j (persistCleanupJournal j segment request stage)
      (Persisted (journalLine j segment request stage) (own segment) s g) s g := by
  obtain ⟨hjournal, htemporary⟩ := journal_beside_trash
  -- after a step that changes at most the temporary file
  have hkept : ∀ s' : Card, (∀ p, p ≠ cleanupTemporary → s'.lookup p = s.lookup p) →
      Persisted (journalLine j segment request stage) (own segment) s g false (s', g) := fun s' hsame =>
    ⟨sameTrash_of_ne htemporary hsame, by simp, fun _ => Or.inl (hsame _ temporary_ne_journal.symm)⟩
  have herase : ∀ s' : Card, (∀ p, p ≠ cleanupTemporary → s'.lookup p = s.lookup p) →
      ∀ p, p ≠ cleanupTemporary → (s'.erase cleanupTemporary).lookup p = s.lookup p := fun s' hsame p hp => by
    rw [AList.lookup_erase_ne hp, hsame p hp]
  have hwrite : ∀ s' : Card, (∀ p, p ≠ cleanupTemporary → s'.lookup p = s.lookup p) →
      Meets j (do
        let written ← writeFile cleanupTemporary (journalLine j segment request stage)
        if written ≠ some (journalLine j segment request stage).length then do
          let _ ← removeFile cleanupTemporary
          return false
        else do
          let _ ← removeFile cleanupJournalPath
          renameFile cleanupTemporary cleanupJournalPath)
        (Persisted (journalLine j segment request stage) (own segment) s g) s' g := by
    intro s' hsame
    refine wp_bind'.mpr (meets_writeFile ?_ fun part reported hall => ?_)
    · rw [if_pos (by simp)]
      exact wp_bind'.mpr (meets_removeFile (hkept s' hsame) fun _ _ => hkept _ (herase s' hsame))
    have hsame2 : ∀ p, p ≠ cleanupTemporary → (s'.insert cleanupTemporary part).lookup p = s.lookup p := by
      intro p hp
      rw [AList.lookup_insert_ne hp, hsame p hp]
    by_cases hfull : reported = (journalLine j segment request stage).length
    · rw [if_neg (by simp [hfull]), hall hfull]
      rw [hall hfull] at hsame2
      generalize hs2 : s'.insert cleanupTemporary (journalLine j segment request stage) = s2 at hsame2
      have hline : s2.lookup cleanupTemporary = some (journalLine j segment request stage) := by
        rw [← hs2, AList.lookup_insert]
      -- the rename, whether the old journal was there, was removed, or stays
      have hinstall : ∀ s3 : Card, s3.lookup cleanupTemporary = some (journalLine j segment request stage) →
          SameTrash s s3 → (s3.lookup cleanupJournalPath = none → TrashIn (own segment) s3) →
          (s3.lookup cleanupJournalPath ≠ none → s3.lookup cleanupJournalPath = s.lookup cleanupJournalPath) →
          Meets j (renameFile cleanupTemporary cleanupJournalPath)
            (Persisted (journalLine j segment request stage) (own segment) s g) s3 g := by
        intro s3 htmp htrash hown hold
        refine meets_install htmp (fun hpresent => ?_) (fun hnone g' hg' => ?_) fun hnone g' => ?_
        · exact ⟨htrash, by simp, fun _ => Or.inl (hold hpresent)⟩
        · exact ⟨htrash, by simp, fun _ => Or.inr ⟨hnone, htmp, hown hnone, hg'⟩⟩
        · have hmoved : SameTrash s3 ((s3.erase cleanupTemporary).insert cleanupJournalPath
              (journalLine j segment request stage)) := by
            intro p hp
            have hne : p ≠ cleanupJournalPath ∧ p ≠ cleanupTemporary :=
              ⟨by rintro rfl; exact hjournal hp, by rintro rfl; exact htemporary hp⟩
            rw [AList.lookup_insert_ne hne.1, AList.lookup_erase_ne hne.2]
          refine ⟨fun p hp => (hmoved p hp).trans (htrash p hp), fun _ => ⟨AList.lookup_insert _, ?_⟩, by simp⟩
          exact hmoved.trashIn.mpr (hown hnone)
      have htrash2 : SameTrash s s2 := sameTrash_of_ne htemporary hsame2
      have hold2 : s2.lookup cleanupJournalPath = s.lookup cleanupJournalPath :=
        hsame2 _ temporary_ne_journal.symm
      refine wp_bind'.mpr (meets_removeFile ?_ fun hpresent hallowed => ?_)
      · refine hinstall s2 hline htrash2 (fun hnone => ?_) fun _ => hold2
        exact htrash2.trashIn.mpr ((hs (hold2 ▸ hnone)).mono (List.nil_subset _))
      · have hremoved : SameTrash s2 (s2.erase cleanupJournalPath) :=
          sameTrash_of_ne hjournal fun p hp => AList.lookup_erase_ne hp
        refine hinstall _ ?_ (fun p hp => (hremoved p hp).trans (htrash2 p hp)) (fun _ => ?_) fun hne => ?_
        · rw [AList.lookup_erase_ne temporary_ne_journal, hline]
        · have hnamed := hallowed rfl
          rw [hline, named_journalLine hj h] at hnamed
          exact hremoved.trashIn.mpr hnamed
        · exact absurd (AList.lookup_erase _ _) hne
    · rw [if_pos (by simpa using hfull)]
      exact wp_bind'.mpr (meets_removeFile (hkept _ hsame2) fun _ _ => hkept _ (herase _ hsame2))
  unfold persistCleanupJournal
  exact wp_bind'.mpr (meets_removeFile (hwrite s fun _ _ => rfl) fun _ _ => hwrite _ (herase s fun _ _ => rfl))

/-! ### Recovering -/

/-- **The transaction is tracked**: only its files are in the trash, and its journal is on the card, or was
not put into place. -/
def Tracked (j : JsonLibrary) (segment : CleanupSegment) (request : CleanupRequest) (r : Card × Bool) : Prop :=
  TrashIn (own segment) r.1 ∧
    ((∃ stage, r.1.lookup cleanupJournalPath = some (journalLine j segment request stage)) ∨
      (r.1.lookup cleanupJournalPath = none ∧
        (∃ stage, r.1.lookup cleanupTemporary = some (journalLine j segment request stage)) ∧
        (TrashIn [] r.1 ∨ r.2 = false)))

theorem accounted_of_empty (h : TrashIn [] s) : Accounted j s := fun p hp => absurd (h p hp) List.not_mem_nil

theorem Tracked.accounted (hj : j.Lawful) (hr : Removable j segment request) (h : Tracked j segment request (s, g))
    (hg : g = true) : Accounted j s := by
  obtain ⟨htrash, ⟨stage, hjournal⟩ | ⟨-, -, hempty | hfalse⟩⟩ := h
  · intro p hp
    simp only at hjournal
    rw [hjournal, named_journalLine hj hr]
    exact htrash p hp
  · exact accounted_of_empty hempty
  · rw [hg] at hfalse
    cases hfalse

theorem Tracked.keeps (h : Tracked j segment request (s, g)) (hs : Keeps s s') :
    Tracked j segment request (s', g) := by
  obtain ⟨htrash, hjournal⟩ := h
  refine ⟨hs.trash.trashIn.mpr htrash, ?_⟩
  simp only at hjournal ⊢
  rwa [hs.journal, hs.temporary, hs.trash.trashIn]

theorem all_restoreArtifact {suffix temporary : Bytes} (htemporary : Beside temporary)
    (htarget : Beside (targetOf suffix temporary)) : (restoreArtifact suffix temporary).All BesideOp := by
  unfold restoreArtifact
  refine Prog.All.bind ⟨trivial, fun _ => trivial⟩ fun present => ?_
  cases present with
  | true => exact ⟨htemporary, fun _ => trivial⟩
  | false => exact ⟨⟨htemporary, htarget⟩, fun _ => trivial⟩

theorem all_recoverAtomicTemp {target : Bytes} (htemporary : Beside (target ++ ascii ".tmp")) (htarget : Beside target) :
    (recoverAtomicTemp target).All BesideOp := by
  have heq : targetOf (ascii ".tmp") (target ++ ascii ".tmp") = target := by simp [targetOf]
  unfold recoverAtomicTemp
  refine Prog.All.bind ⟨trivial, fun _ => trivial⟩ fun present => ?_
  cases present with
  | true => exact all_restoreArtifact htemporary (by rwa [heq])
  | false => trivial

theorem all_restoreArtifacts (suffix : Bytes) : ∀ temporaries : List Bytes,
    (∀ t ∈ temporaries, Beside t ∧ Beside (targetOf suffix t)) → (restoreArtifacts suffix temporaries).All BesideOp := by
  intro temporaries
  induction temporaries with
  | nil => exact fun _ => trivial
  | cons t rest ih =>
    intro h
    rw [List.forall_mem_cons] at h
    exact Prog.All.bind (all_restoreArtifact h.1.1 h.1.2) fun _ => Prog.All.bind (ih h.2) fun _ => trivial

theorem all_removeAll : ∀ paths : List Bytes, (∀ p ∈ paths, Beside p) → (removeAll paths).All BesideOp := by
  intro paths
  induction paths with
  | nil => exact fun _ => trivial
  | cons p rest ih =>
    intro h
    rw [List.forall_mem_cons] at h
    exact Prog.All.bind ⟨h.1, fun _ => trivial⟩ fun _ => Prog.All.bind (ih h.2) fun _ => trivial

/-- Temporary files of a directory that is beside. -/
theorem meets_restored (directory : Bytes) {suffix : Bytes} (hslash : 47 ∉ suffix)
    (hdirectory : ∀ other ∈ [ascii "/POWERMON/state/retention.journal", ascii "/POWERMON/recovery/"],
      (directory ++ [47]).isPrefixOf other = false ∧ other.isPrefixOf (directory ++ [47]) = false) :
    Meets j (restoreArtifacts suffix (collectFiles (directory ++ [47]) suffix s)) (fun _ r => Keeps s r.1 ∧ r.2 = g)
      s g := by
  refine meets_beside (all_restoreArtifacts _ _ fun t ht => ?_)
  obtain ⟨hleading, hsuffix, -⟩ := mem_collectFiles ht
  exact ⟨beside_of_leading hleading hdirectory,
    beside_of_leading (prefix_targetOf hleading hsuffix hslash) hdirectory⟩

/-- The temporary journal takes its place, or is removed. -/
theorem meets_promote (h : Tracked j segment request (s, g)) :
    Meets j (recoverAtomicTemp cleanupJournalPath) (fun done r => Tracked j segment request r ∧
      (done = true → ∃ stage, r.1.lookup cleanupJournalPath = some (journalLine j segment request stage))) s g := by
  obtain ⟨hjournal, htemporary⟩ := journal_beside_trash
  unfold recoverAtomicTemp
  rw [show cleanupJournalPath ++ ascii ".tmp" = cleanupTemporary from rfl]
  refine wp_bind'.mpr (meets_fileExists ?_)
  have htarget : cleanupTemporary.take (cleanupTemporary.length - (ascii ".tmp").length) = cleanupJournalPath := by
    decide
  have htracked := h
  obtain ⟨htrash, ⟨stage, hline⟩ | ⟨hnone, ⟨stage, hline⟩, hfailed⟩⟩ := h
  · -- the journal is there: at most the temporary file goes
    cases htmp : s.lookup cleanupTemporary with
    | none => exact ⟨htracked, fun _ => ⟨stage, hline⟩⟩
    | some content =>
      have hpresent : (s.lookup cleanupJournalPath).isSome = true := by
        simp only at hline
        rw [hline]
        rfl
      refine wp_bind'.mpr (meets_fileExists ?_)
      rw [htarget, hpresent]
      refine meets_removeFile ⟨htracked, fun _ => ⟨stage, hline⟩⟩ fun _ _ => ?_
      have hkept : (s.erase cleanupTemporary).lookup cleanupJournalPath = some (journalLine j segment request stage) := by
        rw [AList.lookup_erase_ne temporary_ne_journal.symm]
        exact hline
      have hsame : SameTrash s (s.erase cleanupTemporary) :=
        sameTrash_of_ne htemporary fun p hp => AList.lookup_erase_ne hp
      exact ⟨⟨hsame.trashIn.mpr htrash, Or.inl ⟨stage, hkept⟩⟩, fun _ => ⟨stage, hkept⟩⟩
  · simp only at hnone hline hfailed
    rw [hline]
    unfold restoreArtifact
    refine wp_bind'.mpr (meets_fileExists ?_)
    rw [htarget, hnone]
    refine meets_install hline (fun hne => absurd hnone hne) (fun _ g' hg' => ?_) fun _ g' => ?_
    · exact ⟨⟨htrash, Or.inr ⟨hnone, ⟨stage, hline⟩, hg'⟩⟩, by simp⟩
    · have hsame : SameTrash s ((s.erase cleanupTemporary).insert cleanupJournalPath
          (journalLine j segment request stage)) := by
        intro p hp
        have hne : p ≠ cleanupJournalPath ∧ p ≠ cleanupTemporary :=
          ⟨by rintro rfl; exact hjournal hp, by rintro rfl; exact htemporary hp⟩
        rw [AList.lookup_insert_ne hne.1, AList.lookup_erase_ne hne.2]
      exact ⟨⟨hsame.trashIn.mpr htrash, Or.inl ⟨stage, AList.lookup_insert _⟩⟩,
        fun _ => ⟨stage, AList.lookup_insert _⟩⟩

theorem meets_recoverTemporaries (h : Tracked j segment request (s, g)) :
    Meets j recoverTemporaries (fun done r => Tracked j segment request r ∧
      (done = true → ∃ stage, r.1.lookup cleanupJournalPath = some (journalLine j segment request stage))) s g := by
  have hslashes : 47 ∉ ascii ".tmp" ∧ 47 ∉ ascii ".repair" ∧ 47 ∉ ascii ".previous" := by decide
  have hevents : Beside (eventJournalPath ++ ascii ".tmp") ∧ Beside eventJournalPath := by
    have hleading : ∀ p, (ascii "/POWERMON/state/event").isPrefixOf p = true → Beside p := fun p hp =>
      beside_of_leading (List.isPrefixOf_iff_prefix.mp hp) (by decide)
    exact ⟨hleading _ (by decide), hleading _ (by decide)⟩
  unfold recoverTemporaries
  refine wp_bind'.mpr (wp_post (meets_beside (all_recoverAtomicTemp hevents.1 hevents.2)) fun events r1 hr1 => ?_)
  obtain ⟨s1, g1⟩ := r1
  obtain ⟨hkeeps1, rfl⟩ := hr1
  have htracked1 := h.keeps hkeeps1
  -- the journal
  refine wp_bind'.mpr (wp_post (Q := fun done r => Tracked j segment request r ∧ (done = true →
    ∃ stage, r.1.lookup cleanupJournalPath = some (journalLine j segment request stage))) ?_ fun done r2 hr2 => ?_)
  · cases events with
    | true => exact meets_promote htracked1
    | false => exact ⟨htracked1, by simp⟩
  obtain ⟨s2, g2⟩ := r2
  obtain ⟨htracked2, hdone⟩ := hr2
  -- the others are beside
  refine wp_bind'.mpr (meets_listFiles (wp_bind'.mpr (wp_post
    (meets_restored (ascii "/POWERMON/state/segments") hslashes.1 (by decide)) fun b3 r3 hr3 => ?_)))
  obtain ⟨s3, g3⟩ := r3
  obtain ⟨hkeeps3, rfl⟩ := hr3
  refine wp_bind'.mpr (meets_listFiles (wp_bind'.mpr (wp_post
    (meets_restored (ascii "/POWERMON/records") hslashes.2.1 (by decide)) fun b4 r4 hr4 => ?_)))
  obtain ⟨s4, g4⟩ := r4
  obtain ⟨hkeeps4, rfl⟩ := hr4
  refine wp_bind'.mpr (meets_listFiles (wp_bind'.mpr (wp_post
    (meets_restored (ascii "/POWERMON/indexes") hslashes.2.2 (by decide)) fun b5 r5 hr5 => ?_)))
  obtain ⟨s5, g5⟩ := r5
  obtain ⟨hkeeps5, rfl⟩ := hr5
  refine wp_bind'.mpr (meets_listFiles (wp_bind'.mpr (wp_post (meets_beside (all_removeAll _ fun p hp => ?_))
    fun b6 r6 hr6 => ?_)))
  · exact beside_of_leading (mem_collectFiles hp).1 (by decide)
  obtain ⟨s6, g6⟩ := r6
  obtain ⟨hkeeps6, rfl⟩ := hr6
  refine ⟨(((htracked2.keeps hkeeps3).keeps hkeeps4).keeps hkeeps5).keeps hkeeps6, fun hall => ?_⟩
  simp only [Bool.and_eq_true] at hall
  obtain ⟨stage, hline⟩ := hdone hall.1.1.1.1
  refine ⟨stage, ?_⟩
  rw [hkeeps6.journal, hkeeps5.journal, hkeeps4.journal, hkeeps3.journal]
  exact hline

/-- At most one file of the trash is gone. -/
def Without (path : Bytes) (s s' : Card) : Prop :=
  (∀ p, ¬ Beside p → p ≠ path → s'.lookup p = s.lookup p) ∧
    (s'.lookup path = s.lookup path ∨ s'.lookup path = none)

theorem Without.refl (path : Bytes) (s : Card) : Without path s s := ⟨fun _ _ _ => rfl, Or.inl rfl⟩

theorem Without.trashIn (h : Without path s s') (hs : TrashIn names s) : TrashIn names s' := by
  intro p hp
  rw [mem_trashFiles] at hp
  refine hs p (mem_trashFiles.mpr ⟨hp.1, ?_⟩)
  by_cases heq : p = path
  · subst heq
    rcases h.2 with hsame | hnone
    · rw [← hsame]
      exact hp.2
    · exact absurd hnone hp.2
  · rw [← h.1 p (fun hbeside => hbeside.2.2 hp.1) heq]
    exact hp.2

/-- A file of the trash is taken away: moved to a place beside, or removed. -/
def TakesAway (q : CardProg Bool) (path : Bytes) : Prop :=
  q = removeFile path ∨ ∃ target, Beside target ∧ q = renameFile path target

theorem meets_takeAway {q : CardProg Bool} (hq : TakesAway q path) (hpath : trashPrefix <+: path) :
    Meets j (runIf (s.lookup path).isSome q true) (fun done r => r.2 = g ∧ Without path s r.1 ∧
      (done = true → r.1.lookup path = none)) s g := by
  obtain ⟨hjournal, -⟩ := journal_beside_trash
  cases hcontent : s.lookup path with
  | none => exact ⟨rfl, Without.refl path s, fun _ => hcontent⟩
  | some content =>
    have hkept : (false = true → s.lookup path = none) := by simp
    rcases hq with rfl | ⟨target, htarget, rfl⟩
    · refine meets_removeFile ⟨rfl, Without.refl path s, hkept⟩ fun _ _ => ?_
      have hnone : (s.erase path).lookup path = none := AList.lookup_erase _ _
      exact ⟨rfl, ⟨fun p _ hp => AList.lookup_erase_ne hp, Or.inr hnone⟩, fun _ => hnone⟩
    · refine meets_renameFile htarget.1 ⟨rfl, Without.refl path s, hkept⟩ fun _ _ => ?_
      have hne : path ≠ target := by
        rintro rfl
        exact htarget.2.2 hpath
      have hnone : ∀ c, ((s.erase path).insert target c).lookup path = none := fun c => by
        rw [AList.lookup_insert_ne hne, AList.lookup_erase]
      refine ⟨rfl, ⟨fun p hp hp' => ?_, Or.inr (hnone _)⟩, fun _ => hnone _⟩
      have hother : p ≠ target := by
        rintro rfl
        exact hp htarget
      rw [AList.lookup_insert_ne hother, AList.lookup_erase_ne hp']

theorem beside_home (h : Removable j segment request) :
    Beside segment.recordPath ∧ (segment.hasIndex = true → Beside segment.indexPath) := by
  have hrecord := h.directory .record trivial
  refine ⟨beside_of_leading hrecord (by cases segment.hasIndex <;> decide), fun hhas => ?_⟩
  exact beside_of_leading (h.directory .index hhas) (by cases segment.hasIndex <;> decide)

theorem trashPrefix_own (segment : CleanupSegment) : trashPrefix <+: recordTrash segment ∧
    (segment.hasIndex = true → trashPrefix <+: indexTrash segment) := by
  refine ⟨⟨pathToken segment.recordPath ++ ascii ".pmr.trash", by simp [recordTrash, trashPrefix]⟩, fun hhas => ?_⟩
  exact ⟨pathToken segment.recordPath ++ ascii ".idx.trash", by
    simp [indexTrash, trashPrefix, indexPath_ne_nil hhas]⟩

/-- Once neither file is in the trash it is empty. -/
theorem trashIn_nil (hs : TrashIn (own segment) s) (hrecord : s.lookup (recordTrash segment) = none)
    (hindex : segment.hasIndex = true → s.lookup (indexTrash segment) = none) : TrashIn [] s := by
  intro p hp
  have hmem := hs p hp
  rw [mem_trashFiles] at hp
  simp only [own, List.mem_cons, List.not_mem_nil, or_false] at hmem
  rcases hmem with rfl | rfl
  · exact absurd hrecord hp.2
  · cases hhas : segment.hasIndex with
    | true => exact absurd (hindex hhas) hp.2
    | false =>
      have hnil : segment.indexPath = [] := by simpa [CleanupSegment.hasIndex] using hhas
      rw [indexTrash, if_pos hnil, List.prefix_nil] at hp
      exact absurd hp.1 (by decide)

/-- The two files of a transaction are taken away, one after the other. -/
theorem meets_takeBoth {record index : CardProg Bool} (hs : TrashIn (own segment) s)
    (hrecord : TakesAway record (recordTrash segment))
    (hindex : segment.hasIndex = true → TakesAway index (indexTrash segment)) :
    Meets j (do
        let first ← runIf (s.lookup (recordTrash segment)).isSome record true
        let second ← runIf (segment.hasIndex && (s.lookup (indexTrash segment)).isSome) index true
        return first && second)
      (fun done r => r.2 = g ∧ TrashIn (own segment) r.1 ∧
        r.1.lookup cleanupJournalPath = s.lookup cleanupJournalPath ∧ (done = true → TrashIn [] r.1)) s g := by
  obtain ⟨htrashRecord, htrashIndex⟩ := trashPrefix_own segment
  obtain ⟨hjournal, -⟩ := journal_beside_trash
  have hne : ∀ p, trashPrefix <+: p → cleanupJournalPath ≠ p := by
    rintro p hp rfl
    exact hjournal hp
  have hnot : ¬ Beside cleanupJournalPath := fun hbeside => hbeside.1 rfl
  refine wp_bind'.mpr (wp_post (meets_takeAway hrecord htrashRecord) fun first r1 hr1 => ?_)
  obtain ⟨s1, g1⟩ := r1
  obtain ⟨rfl, hwithout1, hgone1⟩ := hr1
  have htrash1 := hwithout1.trashIn hs
  have hjournal1 : s1.lookup cleanupJournalPath = s.lookup cleanupJournalPath :=
    hwithout1.1 _ hnot (hne _ htrashRecord)
  cases hhas : segment.hasIndex with
  | false =>
    refine ⟨rfl, htrash1, hjournal1, fun hdone => ?_⟩
    rw [Bool.and_true] at hdone
    exact trashIn_nil htrash1 (hgone1 hdone) fun h => by rw [hhas] at h; cases h
  | true =>
    have hsame : s1.lookup (indexTrash segment) = s.lookup (indexTrash segment) :=
      hwithout1.1 _ (fun hbeside => hbeside.2.2 (htrashIndex hhas)) (recordTrash_ne_indexTrash hhas).symm
    rw [Bool.true_and, ← hsame]
    refine wp_bind'.mpr (wp_post (meets_takeAway (hindex hhas) (htrashIndex hhas)) fun second r2 hr2 => ?_)
    obtain ⟨s2, g2⟩ := r2
    obtain ⟨rfl, hwithout2, hgone2⟩ := hr2
    have htrash2 := hwithout2.trashIn htrash1
    refine ⟨rfl, htrash2, (hwithout2.1 _ hnot (hne _ (htrashIndex hhas))).trans hjournal1, fun hdone => ?_⟩
    rw [Bool.and_eq_true] at hdone
    refine trashIn_nil htrash2 ?_ fun _ => hgone2 hdone.2
    rw [hwithout2.1 _ (fun hbeside => hbeside.2.2 htrashRecord) (recordTrash_ne_indexTrash hhas)]
    exact hgone1 hdone.1

theorem meets_takeSnapshot (stage : Stage) : Meets j (takeSnapshot (journalOf segment stage)) (fun snapshot r =>
    r = (s, g) ∧ snapshot.recordTrashExists = (s.lookup (recordTrash segment)).isSome ∧
      snapshot.hasIndex = segment.hasIndex ∧
      (segment.hasIndex = true → snapshot.indexTrashExists = (s.lookup (indexTrash segment)).isSome)) s g := by
  unfold takeSnapshot journalOf runIf
  refine wp_bind'.mpr (meets_fileExists (wp_bind'.mpr (meets_fileExists ?_)))
  cases hhas : segment.hasIndex with
  | true =>
    have hne := indexPath_ne_nil hhas
    have hne' : indexTrash segment ≠ [] := by simp [indexTrash, hne]
    simp only [hne, hne', ne_eq, not_false_eq_true, decide_true, if_true]
    exact wp_bind'.mpr (meets_fileExists (wp_bind'.mpr (meets_fileExists ⟨rfl, rfl, rfl, fun _ => rfl⟩)))
  | false =>
    have hnil : segment.indexPath = [] := by simpa [CleanupSegment.hasIndex] using hhas
    simp only [hnil, indexTrash, if_true, ne_eq, not_true_eq_false, decide_false, Bool.false_eq_true, if_false]
    exact ⟨rfl, rfl, rfl, fun h => by cases h⟩

theorem not_inTrash_of_clear {snapshot : CleanupRecoverySnapshot}
    (h : cleanupRecoveryAction snapshot = .clearJournal) :
    snapshot.recordTrashExists = false ∧ (snapshot.hasIndex = true → snapshot.indexTrashExists = false) := by
  have hnone : (snapshot.recordTrashExists || (snapshot.hasIndex && snapshot.indexTrashExists)) = false := by
    by_contra hin
    rw [Bool.not_eq_false] at hin
    revert h
    simp only [cleanupRecoveryAction, hin, if_true]
    split_ifs <;> simp
  simpa using hnone

theorem all_clear : clearCleanupJournal.All OutsideTrash := by
  have hone : ∀ path, (removeIfPresent path).All OutsideTrash := fun path => by
    unfold removeIfPresent
    refine Prog.All.bind ⟨trivial, fun _ => trivial⟩ fun present => ?_
    cases present with
    | true => exact ⟨trivial, fun _ => trivial⟩
    | false => trivial
  exact Prog.All.bind (hone _) fun _ => Prog.All.bind (hone _) fun _ => trivial

/-- **A recovery leaves the transaction tracked, or the trash empty.** -/
theorem meets_recover (hj : j.Lawful) (h : Removable j segment request) (hs : Tracked j segment request (s, g)) :
    Meets j (recoverCleanupJournal j) (fun _ r => Tracked j segment request r ∨ TrashIn [] r.1) s g := by
  unfold recoverCleanupJournal
  refine wp_bind'.mpr (wp_post (meets_recoverTemporaries hs) fun done r1 hr1 => ?_)
  obtain ⟨s1, g1⟩ := r1
  obtain ⟨htracked, hdone⟩ := hr1
  cases done with
  | false => exact Or.inl htracked
  | true =>
    obtain ⟨stage, hline⟩ := hdone rfl
    simp only at hline
    refine wp_bind'.mpr (meets_fileExists ?_)
    rw [hline]
    refine wp_bind'.mpr (meets_readFile ?_)
    simp only [hline, parse_journalLine hj h, pathsSafe_journalOf h, Bool.not_true, Bool.false_eq_true, if_false]
    refine wp_bind'.mpr (wp_post (meets_takeSnapshot stage) fun snapshot r2 hr2 => ?_)
    obtain ⟨rfl, hrecord, hhas, hindex⟩ := hr2
    have hexists : (snapshot.hasIndex && snapshot.indexTrashExists) =
        (segment.hasIndex && (s1.lookup (indexTrash segment)).isSome) := by
      rw [hhas]
      cases hc : segment.hasIndex with
      | true => rw [hindex hc]
      | false => rfl
    obtain ⟨hbesideRecord, hbesideIndex⟩ := beside_home h
    -- what is done with the files leaves the journal, and the trash empty if it succeeds
    refine wp_bind'.mpr (wp_post (Q := fun done r => r.2 = g1 ∧ TrashIn (own segment) r.1 ∧
      r.1.lookup cleanupJournalPath = s1.lookup cleanupJournalPath ∧ (done = true → TrashIn [] r.1)) ?_
      fun moved r3 hr3 => ?_)
    · unfold performRecovery
      cases haction : cleanupRecoveryAction snapshot with
      | block => exact ⟨rfl, htracked.1, rfl, by simp⟩
      | clearJournal =>
        obtain ⟨h1, h2⟩ := not_inTrash_of_clear haction
        refine ⟨rfl, htracked.1, rfl, fun _ => trashIn_nil htracked.1 ?_ fun hc => ?_⟩
        · rw [hrecord] at h1
          simpa using h1
        · have h3 := h2 (hhas.trans hc)
          rw [hindex hc] at h3
          simpa using h3
      | reverseMoves =>
        unfold reverseMoves journalOf
        rw [hrecord, hexists]
        exact meets_takeBoth htracked.1 (Or.inr ⟨_, hbesideRecord, rfl⟩) fun hc => Or.inr ⟨_, hbesideIndex hc, rfl⟩
      | forwardDelete =>
        unfold forwardDelete journalOf
        rw [hrecord, hexists]
        exact meets_takeBoth htracked.1 (Or.inl rfl) fun _ => Or.inl rfl
    · obtain ⟨s3, g3⟩ := r3
      obtain ⟨rfl, htrash, hjournal, hempty⟩ := hr3
      cases moved with
      | false => exact Or.inl ⟨htrash, Or.inl ⟨stage, hjournal.trans hline⟩⟩
      | true => exact wp_post (meets_outside all_clear (hempty rfl)) fun _ _ hr => Or.inr hr

/-! ### A transaction -/

/-- The journal of the transaction is on the card. -/
def Held (j : JsonLibrary) (segment : CleanupSegment) (request : CleanupRequest) (s : Card) : Prop :=
  TrashIn (own segment) s ∧ ∃ stage, s.lookup cleanupJournalPath = some (journalLine j segment request stage)

theorem Held.tracked (h : Held j segment request s) (g : Bool) : Tracked j segment request (s, g) :=
  ⟨h.1, Or.inl h.2⟩

/-- A journal write that fails leaves the transaction tracked. -/
theorem Persisted.tracked {stage : Stage} {r : Card × Bool} (hs : Held j segment request s)
    (h : Persisted (journalLine j segment request stage) (own segment) s g false r) :
    Tracked j segment request r := by
  rcases h.kept rfl with hsame | ⟨hnone, hline, htrash, hempty⟩
  · obtain ⟨stage', hjournal⟩ := hs.2
    exact ⟨h.trash.trashIn.mpr hs.1, Or.inl ⟨stage', hsame.trans hjournal⟩⟩
  · exact ⟨htrash, Or.inr ⟨hnone, ⟨stage, hline⟩, hempty⟩⟩

theorem Persisted.held {stage : Stage} {r : Card × Bool}
    (h : Persisted (journalLine j segment request stage) (own segment) s g true r) : Held j segment request r.1 :=
  ⟨(h.written rfl).2, stage, (h.written rfl).1⟩

theorem Held.persist (hj : j.Lawful) (h : Removable j segment request) (stage : Stage) (hs : Held j segment request s) :
    Meets j (persistCleanupJournal j segment request stage)
      (Persisted (journalLine j segment request stage) (own segment) s g) s g :=
  meets_persist hj h stage fun hnone => by
    obtain ⟨stage', hjournal⟩ := hs.2
    rw [hnone] at hjournal
    cases hjournal

/-- A file goes to its place in the trash. -/
theorem Held.move {source target : Bytes} (hs : Held j segment request s) (hsource : Beside source)
    (htarget : target ∈ own segment) (htrash : trashPrefix <+: target) (content : Bytes) :
    Held j segment request ((s.erase source).insert target content) := by
  have hne : cleanupJournalPath ≠ target := by
    rintro rfl
    exact journal_beside_trash.1 htrash
  refine ⟨fun p hp => ?_, ?_⟩
  · by_cases heq : p = target
    · rwa [heq]
    · rw [mem_trashFiles, AList.lookup_insert_ne heq] at hp
      have hother : p ≠ source := by
        rintro rfl
        exact hsource.2.2 hp.1
      rw [AList.lookup_erase_ne hother] at hp
      exact hs.1 p (mem_trashFiles.mpr hp)
  · rw [AList.lookup_insert_ne hne, AList.lookup_erase_ne hsource.1.symm]
    exact hs.2

theorem meets_moveToTrash (h : Removable j segment request) (hs : Held j segment request s) :
    Meets j (moveToTrash segment) (fun _ r => Held j segment request r.1) s g := by
  obtain ⟨hrecord, hindex⟩ := beside_home h
  obtain ⟨htrashRecord, htrashIndex⟩ := trashPrefix_own segment
  have hne : ∀ p, trashPrefix <+: p → p ≠ cleanupJournalPath := by
    rintro p hp rfl
    exact journal_beside_trash.1 hp
  unfold moveToTrash
  refine wp_bind'.mpr (meets_renameFile (hne _ htrashRecord) hs fun content _ => ?_)
  have hs1 := hs.move hrecord (List.mem_cons_self) htrashRecord content
  cases hhas : segment.hasIndex with
  | false => exact hs1
  | true =>
    refine meets_renameFile (hne _ (htrashIndex hhas)) hs1 fun content' _ => ?_
    exact hs1.move (hindex hhas) (List.mem_cons_of_mem _ List.mem_cons_self) (htrashIndex hhas) content'

theorem all_persist (stage : Stage) : (persistCleanupJournal j segment request stage).All OutsideTrash := by
  obtain ⟨hjournal, htemporary⟩ := journal_beside_trash
  unfold persistCleanupJournal
  refine Prog.All.bind ⟨trivial, fun _ => trivial⟩ fun _ => ?_
  refine Prog.All.bind ⟨htemporary, fun _ => trivial⟩ fun written => ?_
  split
  · exact Prog.All.bind ⟨trivial, fun _ => trivial⟩ fun _ => trivial
  · exact Prog.All.bind ⟨trivial, fun _ => trivial⟩ fun _ => ⟨hjournal, fun _ => trivial⟩

theorem meets_deleteMoved (hj : j.Lawful) (h : Removable j segment request) (hs : Held j segment request s) :
    Meets j (deleteMoved j segment request) (fun _ r => Tracked j segment request r ∨ TrashIn [] r.1) s g := by
  obtain ⟨htrashRecord, htrashIndex⟩ := trashPrefix_own segment
  have hne : ∀ p, trashPrefix <+: p → cleanupJournalPath ≠ p := by
    rintro p hp rfl
    exact journal_beside_trash.1 hp
  have hheld : ∀ (s : Card) (p : Bytes), trashPrefix <+: p → Held j segment request s →
      Held j segment request (s.erase p) := by
    intro s p hp hs
    refine ⟨hs.1.erase p, ?_⟩
    rw [AList.lookup_erase_ne (hne p hp)]
    exact hs.2
  unfold deleteMoved
  refine wp_bind'.mpr (meets_removeFile (Or.inl (hs.tracked g)) fun _ _ => ?_)
  have hs1 := hheld s _ htrashRecord hs
  have hgone : (s.erase (recordTrash segment)).lookup (recordTrash segment) = none := AList.lookup_erase _ _
  refine wp_bind'.mpr (wp_post (hs1.persist hj h .recordDeleted) fun noted r2 hr2 => ?_)
  obtain ⟨s2, g2⟩ := r2
  cases noted with
  | false => exact Or.inl (hr2.tracked hs1)
  | true =>
    have hs2 := hr2.held
    have hgone2 : s2.lookup (recordTrash segment) = none := (hr2.trash _ htrashRecord).trans hgone
    -- once the index is removed too the trash is empty, and stays so
    have hrest : ∀ s3 : Card, TrashIn [] s3 → Meets j (do
          let _ ← removeFile (metadataPath segment.recordPath)
          let completed ← persistCleanupJournal j segment request .complete
          if !completed then return false else clearCleanupJournal)
        (fun _ r => Tracked j segment request r ∨ TrashIn [] r.1) s3 g2 := by
      intro s3 hs3
      refine wp_post (meets_outside ?_ hs3) fun _ _ hr => Or.inr hr
      refine Prog.All.bind ⟨trivial, fun _ => trivial⟩ fun _ => Prog.All.bind (all_persist _) fun completed => ?_
      cases completed with
      | true => exact all_clear
      | false => trivial
    cases hhas : segment.hasIndex with
    | false =>
      refine hrest s2 (trashIn_nil hs2.1 hgone2 fun hc => ?_)
      rw [hhas] at hc
      cases hc
    | true =>
      refine wp_bind'.mpr (meets_removeFile (Or.inl (hs2.tracked g2)) fun _ _ => ?_)
      have hs3 := hheld s2 _ (htrashIndex hhas) hs2
      refine hrest _ (trashIn_nil hs3.1 ?_ fun _ => AList.lookup_erase _ _)
      rw [AList.lookup_erase_ne (recordTrash_ne_indexTrash hhas), hgone2]

theorem meets_executePlan (hj : j.Lawful) (h : Removable j segment request) (hs : Held j segment request s) :
    Meets j (executePlan j segment request) (fun _ r => Tracked j segment request r ∨ TrashIn [] r.1) s g := by
  unfold executePlan
  refine wp_bind'.mpr (wp_post (meets_moveToTrash h hs) fun moved r1 hs1 => ?_)
  obtain ⟨s1, g1⟩ := r1
  cases moved with
  | false => exact wp_bind'.mpr (wp_post (meets_recover hj h (hs1.tracked g1)) fun _ _ hr => hr)
  | true =>
    refine wp_bind'.mpr (wp_post (hs1.persist hj h .filesMoved) fun noted r2 hr2 => ?_)
    obtain ⟨s2, g2⟩ := r2
    cases noted with
    | false => exact wp_bind'.mpr (wp_post (meets_recover hj h (hr2.tracked hs1)) fun _ _ hr => hr)
    | true => exact meets_deleteMoved hj h hr2.held

theorem all_removable (segment : CleanupSegment) : (removable segment).All BesideOp := by
  have hexists : ∀ path, (fileExists path).All BesideOp := fun path => ⟨trivial, fun _ => trivial⟩
  have hif : ∀ (c : Bool) path (b : Bool), (runIf c (fileExists path) b).All BesideOp := fun c path b => by
    cases c with
    | true => exact hexists path
    | false => trivial
  unfold removable
  refine Prog.All.bind (hexists _) fun record => ?_
  split
  · trivial
  · refine Prog.All.bind (hif _ _ _) fun index => ?_
    split
    · trivial
    · refine Prog.All.bind (hexists _) fun inTrash => ?_
      split
      · trivial
      · exact Prog.All.bind (hif _ _ _) fun _ => trivial

/-- **A transaction keeps the trash accounted for**, unless its last attempt to put a journal into place
failed. -/
theorem meets_removeSegment (hj : j.Lawful) (h : Removable j segment request) (hs : Accounted j s) :
    Meets j (removeSegmentTransactionally j segment request) (fun _ r => r.2 = true → Accounted j r.1) s g := by
  have hsame : ∀ s' : Card, SameTrash s s' → s'.lookup cleanupJournalPath = s.lookup cleanupJournalPath →
      Accounted j s' := by
    intro s' htrash hjournal p hp
    rw [hjournal]
    refine hs p ?_
    rw [mem_trashFiles] at hp ⊢
    rwa [htrash p hp.1] at hp
  unfold removeSegmentTransactionally
  refine wp_bind'.mpr (wp_post (meets_beside (all_removable segment)) fun ready r1 hr1 => ?_)
  obtain ⟨s1, g1⟩ := r1
  obtain ⟨hkeeps, rfl⟩ := hr1
  cases ready with
  | false => exact fun _ => hsame s1 hkeeps.trash hkeeps.journal
  | true =>
    have hnone : s1.lookup cleanupJournalPath = none → TrashIn [] s1 := by
      intro hnone p hp
      have hnamed := hsame s1 hkeeps.trash hkeeps.journal p hp
      rwa [hnone] at hnamed
    refine wp_bind'.mpr (wp_post (meets_persist hj h .planned hnone) fun planned r2 hr2 => ?_)
    obtain ⟨s2, g2⟩ := r2
    cases planned with
    | false =>
      intro hg
      rcases hr2.kept rfl with hjournal | ⟨-, -, -, hempty | hfalse⟩
      · exact hsame s2 (fun p hp => (hr2.trash p hp).trans (hkeeps.trash p hp)) (hjournal.trans hkeeps.journal)
      · exact accounted_of_empty hempty
      · rw [hg] at hfalse
        cases hfalse
    | true =>
      refine wp_post (meets_executePlan hj h hr2.held) fun _ r3 hr3 hg => ?_
      obtain ⟨s3, g3⟩ := r3
      rcases hr3 with htracked | hempty
      · exact htracked.accounted hj h hg
      · exact accounted_of_empty hempty

/-! ### Runs -/

/-- The last attempt of a transaction to put a journal into place, when there was none and the trash was not
empty, succeeded, or there was no such attempt. -/
def journalInstalled (j : JsonLibrary) (segment : CleanupSegment) (request : CleanupRequest) (events : List Event)
    (s : Card) : Bool :=
  observed device installed (removeSegmentTransactionally j segment request) events s true

/-- **What retention does with a card while it is mounted**: transactions, in which renames, removals and
writes may fail, and between them changes to other files. -/
inductive CleanupStep (j : JsonLibrary) (s s' : Card) : Prop
  | transaction (segment : CleanupSegment) (request : CleanupRequest) (events rest : List Event) (result : Bool)
    (removable : Removable j segment request)
    (along : Along device (fun o e _ => Faulty o e) (removeSegmentTransactionally j segment request) events s)
    (ends : run device (removeSegmentTransactionally j segment request) events s = (s', some (result, rest)))
  | other (keeps : Keeps s s')

/-- No journal is removed while files of another transaction are in the trash, and the last attempt to put
one into place does not fail. -/
inductive OrderlyStep (j : JsonLibrary) (s s' : Card) : Prop
  | transaction (segment : CleanupSegment) (request : CleanupRequest) (events rest : List Event) (result : Bool)
    (removable : Removable j segment request)
    (along : Along device (Allowed j) (removeSegmentTransactionally j segment request) events s)
    (installs : journalInstalled j segment request events s = true)
    (ends : run device (removeSegmentTransactionally j segment request) events s = (s', some (result, rest)))
  | other (keeps : Keeps s s')

theorem Along.faulty {α : Type} {p : CardProg α} {events : List Event} (h : Along device (Allowed j) p events s) :
    Along device (fun o e _ => Faulty o e) p events s := by
  induction p generalizing events s with
  | ret a => trivial
  | call o k ih =>
    cases events with
    | nil => trivial
    | cons e events => exact ⟨h.1.1, ih _ h.2⟩

theorem OrderlyStep.cleanupStep (h : OrderlyStep j s s') : CleanupStep j s s' := by
  cases h with
  | transaction segment request events rest result removable along installs ends =>
    exact .transaction segment request events rest result removable (Along.faulty along) ends
  | other keeps => exact .other keeps

/-- What one step preserves. -/
theorem OrderlyStep.accounted (hj : j.Lawful) (h : OrderlyStep j s s') (hs : Accounted j s) : Accounted j s' := by
  cases h with
  | transaction segment request events rest result removable along installs ends =>
    exact of_wp_observe (meets_removeSegment hj removable hs) along ends installs
  | other keeps =>
    intro p hp
    rw [keeps.journal]
    refine hs p ?_
    rw [mem_trashFiles] at hp ⊢
    rwa [keeps.trash p hp.1] at hp

/-- **The trash is accounted for in every run of such steps** that starts with an empty one. -/
theorem accounted_run (hj : j.Lawful) (hempty : trashFiles s = []) (h : ReflTransGen (OrderlyStep j) s s') :
    Accounted j s' := by
  induction h with
  | refl => exact accounted_of_empty (trashFiles_eq_nil.mp hempty)
  | tail _ hstep ih => exact hstep.accounted hj ih

/-! ### Two segments -/

def readingSegment : CleanupSegment where
  recordPath := ascii "/POWERMON/records/2026/07/2026-07-20.pmr"
  indexPath := ascii "/POWERMON/indexes/2026/07/2026-07-20.idx"
  firstSequence := 1
  lastSequence := 96

def eventSegment : CleanupSegment where
  recordPath := ascii "/POWERMON/events/2026/07/2026-07-20.events"
  firstSequence := 1
  lastSequence := 7

def twoSegments : Card :=
  (((∅ : Card).insert readingSegment.recordPath (ascii "readings")).insert readingSegment.indexPath
    (ascii "rows")).insert eventSegment.recordPath (ascii "events")

def removedBy (segment : CleanupSegment) (events : List Event) (s : Card) : Card :=
  (run device (removeSegmentTransactionally textJson segment {}) events s).1

theorem run_removedBy {events rest : List Event} {result : Bool}
    (h : (run device (removeSegmentTransactionally textJson segment {}) events s).2 = some (result, rest)) :
    run device (removeSegmentTransactionally textJson segment {}) events s =
      (removedBy segment events s, some (result, rest)) := Prod.ext rfl h

theorem removable_segments : Removable textJson readingSegment {} ∧ Removable textJson eventSegment {} := by
  have hlengths : ∀ segment ∈ [readingSegment, eventSegment],
      ∀ stage ∈ [Stage.planned, .filesMoved, .recordDeleted, .complete],
        (textJson.serialize (cleanupDocument segment {} stage)).length + 15 ≤ 8193 := by decide +kernel
  exact ⟨⟨Or.inl ⟨ascii "2026/07/2026-07-20", by decide, by decide⟩, by decide,
      journalLine_fits (hlengths _ (by decide))⟩,
    ⟨Or.inr ⟨ascii "2026/07/2026-07-20", by decide, rfl⟩, by decide, journalLine_fits (hlengths _ (by decide))⟩⟩

/-- The record stays in the trash. -/
def stuck : List Event := List.replicate 14 .done ++ [.failed]

/-- The removal of the readings is cut, and the events of that day are removed next. -/
theorem run_stuck : ((Along device (Allowed textJson) (removeSegmentTransactionally textJson readingSegment {}) stuck
      twoSegments ∧ journalInstalled textJson readingSegment {} stuck twoSegments = true) ∧
    (run device (removeSegmentTransactionally textJson readingSegment {}) stuck twoSegments).2 = some (false, []) ∧
      trashFiles (removedBy readingSegment stuck twoSegments) ≠ []) ∧
    (Along device (fun o e _ => Faulty o e) (removeSegmentTransactionally textJson eventSegment {})
        (List.replicate 40 .done) (removedBy readingSegment stuck twoSegments) ∧
      (run device (removeSegmentTransactionally textJson eventSegment {}) (List.replicate 40 .done)
        (removedBy readingSegment stuck twoSegments)).2 = some (true, List.replicate 16 .done)) ∧
      ¬ Accounted textJson
        (removedBy eventSegment (List.replicate 40 .done) (removedBy readingSegment stuck twoSegments)) := by
  decide +kernel

theorem trashFiles_twoSegments : trashFiles twoSegments = [] := by
  decide +kernel

theorem accounted_stuck : trashFiles (removedBy readingSegment stuck twoSegments) ≠ [] ∧
    Accounted textJson (removedBy readingSegment stuck twoSegments) := by
  obtain ⟨⟨⟨halong, hinstalls⟩, hends, htrash⟩, -⟩ := run_stuck
  refine ⟨htrash, accounted_run textJson_lawful trashFiles_twoSegments (.single ?_)⟩
  exact .transaction readingSegment {} stuck [] false removable_segments.1 halong hinstalls (run_removedBy hends)

/-- **The record stays in the trash, and no journal names it**: the events of that day are removed next. -/
theorem orphaned : trashFiles twoSegments = [] ∧
    ReflTransGen (CleanupStep textJson) twoSegments
      (removedBy eventSegment (List.replicate 40 .done) (removedBy readingSegment stuck twoSegments)) ∧
    ¬ Accounted textJson
      (removedBy eventSegment (List.replicate 40 .done) (removedBy readingSegment stuck twoSegments)) := by
  obtain ⟨⟨⟨halong, -⟩, hends, -⟩, ⟨hfaulty, hremoved⟩, horphan⟩ := run_stuck
  have hfirst : CleanupStep textJson twoSegments (removedBy readingSegment stuck twoSegments) :=
    .transaction readingSegment {} stuck [] false removable_segments.1 (Along.faulty halong) (run_removedBy hends)
  have hsecond : CleanupStep textJson (removedBy readingSegment stuck twoSegments)
      (removedBy eventSegment (List.replicate 40 .done) (removedBy readingSegment stuck twoSegments)) :=
    .transaction eventSegment {} (List.replicate 40 .done) (List.replicate 16 .done) true removable_segments.2 hfaulty
      (run_removedBy hremoved)
  exact ⟨trashFiles_twoSegments, (ReflTransGen.single hfirst).tail hsecond, horphan⟩

end PowerMonitor.Storage.Trash
