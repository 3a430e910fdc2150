import Mathlib.Logic.Relation
import PowerMonitor.Storage.FaultyOperations
import PowerMonitor.Storage.HealthMirror
import PowerMonitor.Storage.Unavailable

/-! # Repairing a file with a torn end

A file of readings whose last line is not finished is repaired when its card is recovered: the complete lines are
copied, the file is removed, and the copy takes its place. Whatever fails and wherever the power is lost, the file
or the copy of its complete lines is on the card (`Recoverable`). A mount at which nothing fails leaves exactly the
complete lines, counts them, and leaves no copy (`repaired`). -/

namespace PowerMonitor.Storage.TornTail

open PowerMonitor.Lib.Binary PowerMonitor.Lib.Lines PowerMonitor.Lib.Json PowerMonitor.Lib.Program
open PowerMonitor.Storage.RecordFormat PowerMonitor.Storage.Reading PowerMonitor.Storage.Media
open PowerMonitor.Storage.Segment PowerMonitor.Storage.ReadPage PowerMonitor.Storage.SdStorage
open PowerMonitor.Storage.Frames PowerMonitor.Storage.Intact PowerMonitor.Storage.Recovery
open PowerMonitor.Storage.CalmOperations PowerMonitor.Storage.Standing PowerMonitor.Storage.Faults
open PowerMonitor.Storage.FaultyRecovery PowerMonitor.Storage.FaultyOperations
open PowerMonitor.Storage.Unavailable (minuteReading)
open Relation (ReflTransGen)

/-! ### The file -/

/-- The complete lines of a file. -/
def complete (content : Bytes) : Bytes := (lines content).flatten

/-- Every complete line is an envelope that is not too long. -/
def GoodLines (j : JsonLibrary) (content : Bytes) : Prop :=
  ∀ line ∈ lines content, line.length ≤ 8193 ∧ ∃ e, decodeLine j .readings line = .ok e

/-- The file as it was, or its complete lines; or the copy of these while the file is missing. -/
def Recoverable (content path : Bytes) (card : Card) : Prop :=
  (card.lookup path).or (card.lookup (repairPath path)) = some content ∨
    (card.lookup path).or (card.lookup (repairPath path)) = some (complete content)

variable {j : JsonLibrary} {fingerprint : Bytes} {A : Op → Event → Card → Prop} {card card' : Card}
variable {content path : Bytes} {ram : Ram}

theorem complete_lines (content : Bytes) :
    lines (complete content) = lines content ∧ unterminated (complete content) = [] := by
  obtain ⟨hlines, hrest⟩ := lines_flatten (lines content) (fun _ => mem_lines) []
  rw [List.append_nil, lines_nil, List.append_nil] at hlines
  rw [List.append_nil, unterminated_nil] at hrest
  exact ⟨hlines, hrest⟩

theorem complete_of_ended (h : unterminated content = []) : complete content = content := by
  have hflatten := flatten_lines content
  rw [h, List.append_nil] at hflatten
  exact hflatten

theorem take_complete (content : Bytes) : content.take (complete content).length = complete content := by
  conv_lhs => arg 2; rw [← flatten_lines content]
  exact List.take_left

theorem GoodLines.complete (h : GoodLines j content) : GoodLines j (complete content) := by
  unfold GoodLines
  rw [(complete_lines content).1]
  exact h

/-- **Where the reading of a good file ends**: after its complete lines. -/
theorem recoverLines_good (rest : Bytes) : ∀ (ls : List Bytes) (validEnd : ℕ) (t : Tally),
    (∀ line ∈ ls, line.length ≤ 8193 ∧ ∃ e, decodeLine j .readings line = .ok e) →
    ∃ es, Decodes j ls es ∧ recoverLines j rest ls validEnd t = (es.foldl Tally.addRecord t,
      if rest = [] then .complete else .torn (validEnd + ls.flatten.length)) := by
  intro ls
  induction ls with
  | nil =>
    intro validEnd t _
    exact ⟨[], .nil, by simp [recoverLines]⟩
  | cons line ls ih =>
    intro validEnd t hgood
    rw [List.forall_mem_cons] at hgood
    obtain ⟨⟨hlength, e, he⟩, hrest⟩ := hgood
    obtain ⟨es, hes, hout⟩ := ih (validEnd + line.length) (t.addRecord e) hrest
    refine ⟨e :: es, .cons he hes, ?_⟩
    unfold recoverLines
    rw [if_neg (by omega), he]
    simp only [hout, List.foldl_cons, List.flatten_cons, List.length_append, Nat.add_assoc]

/-! ### Whatever fails -/

theorem Recoverable.congr {paths : List Bytes} (h : Recoverable content path card)
    (hsame : SameExcept paths card card') (hpath : path ∉ paths) (hcopy : repairPath path ∉ paths) :
    Recoverable content path card' := by
  unfold Recoverable
  rw [hsame _ hpath, hsame _ hcopy]
  exact h

theorem recoverable_of_file (h : card.lookup path = some content) : Recoverable content path card :=
  Or.inl (by rw [h, Option.some_or])

theorem recoverable_of_complete (h : card.lookup path = some (complete content)) :
    Recoverable content path card := Or.inr (by rw [h, Option.some_or])

theorem recoverable_of_copy (h : card.lookup path = none)
    (hcopy : card.lookup (repairPath path) = some (complete content)) : Recoverable content path card :=
  Or.inr (by rw [h, hcopy, Option.none_or])

/-- A file that is there holds what is recoverable. -/
theorem Recoverable.file (h : Recoverable content path card) {found : Bytes} (hfound : card.lookup path = some found) :
    found = content ∨ found = complete content := by
  unfold Recoverable at h
  rw [hfound, Option.some_or, Option.some.injEq, Option.some.injEq] at h
  exact h

/-- A program that leaves the file and its copy alone. -/
theorem recoverable_frame {α : Type} {paths : List Bytes} {p : CardProg α} (hp : p.All (Op.Within paths))
    (hpath : path ∉ paths) (hcopy : repairPath path ∉ paths) (h : Recoverable content path card) :
    wp device A (Recoverable content path) p (fun _ => Recoverable content path) card :=
  wp_mono (fun _ hs => h.congr hs hpath hcopy) (fun _ _ hs => h.congr hs hpath hcopy) (wp_sameExcept hp card)

/-- Another file and its copy. -/
theorem other_file {other : Bytes} (hpath : isRecordFile path = true) (hother : isRecordFile other = true)
    (hne : path ≠ other) : path ∉ [other, repairPath other] ∧ repairPath path ∉ [other, repairPath other] := by
  simp only [List.mem_cons, List.not_mem_nil, or_false, not_or]
  exact ⟨⟨hne, repair_ne_record hpath⟩, (repair_ne_record hother).symm, fun h => hne (repairPath_injective h)⟩

/-- **The repair**: until the copy is whole the file stays, and then one of them does. -/
theorem recoverable_repairFile (hfile : card.lookup path = some content) :
    wp device A (Recoverable content path) (repairFile path (complete content).length)
      (fun _ => Recoverable content path) card := by
  have hne := repair_ne_self path
  have hstays {s : Card} (hs : s.lookup path = some content) : Recoverable content path s := recoverable_of_file hs
  have hinsert {s : Card} (part : Bytes) (hs : s.lookup path = some content) :
      (s.insert (repairPath path) part).lookup path = some content := by
    rw [AList.lookup_insert_ne hne.symm, hs]
  have herase {s : Card} (hs : s.lookup path = some content) :
      (s.erase (repairPath path)).lookup path = some content := by
    rw [AList.lookup_erase_ne hne.symm, hs]
  have hdiscard {s : Card} (hs : s.lookup path = some content) :
      wp device A (Recoverable content path) (do let _ ← removeFile (repairPath path); return ())
        (fun _ => Recoverable content path) s :=
    wp_bind'.mpr (wp_removeFile (hstays hs) ((wp_pure ..).mpr (hstays hs))
      fun _ => (wp_pure ..).mpr (hstays (herase hs)))
  -- once the copy is whole
  have hswap {s : Card} (hs : s.lookup path = some content)
      (hcopy : s.lookup (repairPath path) = some (complete content)) :
      wp device A (Recoverable content path) (do
        let removed ← removeFile path
        if !removed then return ()
        else do
          let _ ← renameFile (repairPath path) path
          return ()) (fun _ => Recoverable content path) s := by
    refine wp_bind'.mpr (wp_removeFile (hstays hs) ?_ fun _ => ?_)
    · rw [wp_ite, if_pos (by simp)]
      exact (wp_pure ..).mpr (hstays hs)
    · have hmissing : (s.erase path).lookup path = none := AList.lookup_erase ..
      have hkept : (s.erase path).lookup (repairPath path) = some (complete content) := by
        rw [AList.lookup_erase_ne hne, hcopy]
      have hrecoverable := recoverable_of_copy hmissing hkept
      rw [wp_ite, if_neg (by simp)]
      refine wp_bind'.mpr (wp_renameFile hrecoverable ((wp_pure ..).mpr hrecoverable) fun kept hkept' _ => ?_)
      rw [hkept, Option.some.injEq] at hkept'
      subst hkept'
      exact (wp_pure ..).mpr (recoverable_of_complete (AList.lookup_insert _))
  have hwrite {s : Card} (hs : s.lookup path = some content) (source : Option Bytes)
      (hsource : source = some content ∨ source = none) : wp device A (Recoverable content path) (do
        let kept := (source.getD []).take (complete content).length
        let written ← writeFile (repairPath path) kept
        if source = none ∨ kept.length ≠ (complete content).length ∨ written ≠ some (complete content).length then do
          let _ ← removeFile (repairPath path)
          return ()
        else
          let removed ← removeFile path
          if !removed then return ()
          else do
            let _ ← renameFile (repairPath path) path
            return ()) (fun _ => Recoverable content path) s := by
    refine wp_bind'.mpr (wp_writeFile (hstays hs) ?_ fun part reported hpart hall => ?_)
    · rw [wp_ite, if_pos (by simp)]
      exact hdiscard hs
    · rw [wp_ite]
      split
      · exact hdiscard (hinsert part hs)
      · next hdone =>
        simp only [not_or, not_not, Option.some.injEq] at hdone
        obtain ⟨hsome, hlength, hreported⟩ := hdone
        have hwhole : part = complete content := by
          have htaken := hall (by rw [hlength]; exact hreported)
          rw [hsource.resolve_right hsome, Option.getD_some, take_complete] at htaken
          exact htaken
        subst hwhole
        exact hswap (hinsert _ hs) (AList.lookup_insert _)
  have hread {s : Card} (hs : s.lookup path = some content) : wp device A (Recoverable content path) (do
        let source ← readFile path
        let kept := (source.getD []).take (complete content).length
        let written ← writeFile (repairPath path) kept
        if source = none ∨ kept.length ≠ (complete content).length ∨ written ≠ some (complete content).length then do
          let _ ← removeFile (repairPath path)
          return ()
        else
          let removed ← removeFile path
          if !removed then return ()
          else do
            let _ ← renameFile (repairPath path) path
            return ()) (fun _ => Recoverable content path) s := by
    refine wp_bind'.mpr (wp_readFile (hstays hs) ?_ fun _ => ?_)
    · rw [hs]
      exact hwrite hs _ (Or.inl rfl)
    · exact hwrite hs none (Or.inr rfl)
  unfold repairFile
  refine wp_bind'.mpr (wp_removeFile (hstays hfile) ?_ fun _ => ?_)
  · exact hread hfile
  · exact hread (herase hfile)

theorem recoverable_recoverFile (hgood : GoodLines j content) (t : Tally) (h : Recoverable content path card) :
    wp device A (Recoverable content path) (recoverFile j path t) (fun _ => Recoverable content path) card := by
  unfold recoverFile
  refine wp_bind'.mpr (wp_readFile h ?_ fun _ => (wp_pure ..).mpr h)
  cases hfile : card.lookup path with
  | none => exact (wp_pure ..).mpr h
  | some found =>
    have hfound : GoodLines j found ∧ complete found = complete content := by
      rcases h.file hfile with rfl | rfl
      · exact ⟨hgood, rfl⟩
      · exact ⟨hgood.complete, complete_of_ended (complete_lines content).2⟩
    obtain ⟨es, -, hout⟩ := recoverLines_good (unterminated found) (lines found) 0 t hfound.1
    simp only [hout, Nat.zero_add]
    split
    · next stop hstop =>
      -- only a file that is not cut off yet is repaired
      have hrest : unterminated found ≠ [] := by
        intro hnil
        rw [if_pos hnil] at hstop
        cases hstop
      rw [if_neg hrest, Ending.torn.injEq] at hstop
      have heq : found = content := by
        rcases h.file hfile with heq | heq
        · exact heq
        · rw [heq] at hrest
          exact absurd (complete_lines content).2 hrest
      subst heq
      rw [← hstop]
      exact wp_bind'.mpr (wp_post (recoverable_repairFile hfile) fun _ _ hs => (wp_pure ..).mpr hs)
    · exact (wp_pure ..).mpr h

theorem recoverable_recoverSegment (hgood : GoodLines j content) (hpath : isRecordFile path = true) {other : Bytes}
    (hother : isRecordFile other = true) (t : Tally) (h : Recoverable content path card) :
    wp device A (Recoverable content path) (recoverSegment j t other) (fun _ => Recoverable content path) card := by
  by_cases hne : path = other
  · subst hne
    have hread (p : Bytes) (f : Option Bytes → CardProg Tally)
        (hf : ∀ found, wp device A (Recoverable content path) (f found) (fun _ => Recoverable content path) card) :
        wp device A (Recoverable content path) (readFile p >>= f) (fun _ => Recoverable content path) card :=
      wp_bind'.mpr (wp_readFile h (hf _) fun _ => hf _)
    unfold recoverSegment
    refine hread _ _ fun sidecar => hread _ _ fun record => hread _ _ fun index => ?_
    split
    · exact recoverable_recoverFile hgood t h
    · rw [wp_ite]
      split
      · exact (wp_pure ..).mpr h
      · exact recoverable_recoverFile hgood t h
  · obtain ⟨hfile, hcopy⟩ := other_file hpath hother hne
    exact recoverable_frame (all_recoverSegment t other) hfile hcopy h

theorem recoverable_recoverSegments (hgood : GoodLines j content) (hpath : isRecordFile path = true)
    (paths : List Bytes) : ∀ (t : Tally) (card : Card), (∀ p ∈ paths, isRecordFile p = true) →
    Recoverable content path card → wp device A (Recoverable content path) (recoverSegments j paths t)
      (fun _ => Recoverable content path) card := by
  induction paths with
  | nil => exact fun t card _ h => (wp_pure ..).mpr h
  | cons p paths ih =>
    intro t card hrecord h
    rw [List.forall_mem_cons] at hrecord
    unfold recoverSegments
    exact wp_bind'.mpr (wp_post (recoverable_recoverSegment hgood hpath hrecord.1 t h)
      fun t' s hs => ih t' s hrecord.2 hs)

/-! ### Other files -/

/-- Every file of repairs is the copy of a file of readings. -/
def Copies (card : Card) : Prop :=
  ∀ p, card.lookup p ≠ none → ascii ".repair" <:+ p → ∃ file, isRecordFile file = true ∧ p = repairPath file

/-- A sidecar that counts for a file says the truth: the file ends with a line, and the bounds hold. -/
def Honest (j : JsonLibrary) (path content : Bytes) (sidecar : Option Bytes) : Prop :=
  ∀ index metadata, acceptMetadata j .readings path sidecar (some content.length) index = some metadata →
    unterminated content = [] ∧ ∀ line ∈ lines content, ∀ e, decodeLine j .readings line = .ok e →
      metadata.firstSequence ≤ e.sequence ∧ e.sequence ≤ metadata.lastSequence

/-- No reading that stands has the sequence zero. -/
def Numbered (j : JsonLibrary) (card : Card) : Prop :=
  ∀ p, isRecordFile p = true → 0 ∉ lineSequences j (standing card p)

theorem honest_none : Honest j path content none := by
  intro index metadata h
  cases h

theorem Numbered.shrinks (h : Numbered j card) (hshrinks : Shrinks card card') : Numbered j card' :=
  fun p hp hmem => h p hp ((lineSequences_sublist (hshrinks p hp)).subset hmem)

theorem known_copy {p : Bytes} (h : Known p) (hsuffix : ascii ".repair" <:+ p) :
    ∃ file, isRecordFile file = true ∧ p = repairPath file := by
  have htidy : Tidy (AList.insert p [] ∅) := by
    intro q hq
    by_cases heq : q = p
    · rwa [heq]
    · rw [AList.lookup_insert_ne heq, AList.lookup_empty] at hq
      exact absurd rfl hq
  exact htidy.repair hsuffix (by rw [AList.lookup_insert]; exact Option.some_ne_none _)

theorem sidecar_unknown (path : Bytes) : ¬ Known (metadataPath path) := by
  intro hknown
  have htidy : Tidy (AList.insert (metadataPath path) [] ∅) := by
    intro q hq
    by_cases heq : q = metadataPath path
    · rwa [heq]
    · rw [AList.lookup_insert_ne heq, AList.lookup_empty] at hq
      exact absurd rfl hq
  have hnone := htidy.sidecar path
  rw [AList.lookup_insert] at hnone
  cases hnone

/-- **A file that is not known** is as it was, or gone. -/
theorem act_unknown {o : Op} (ho : KnownOp o) (e : Event) (s : Card) {p : Bytes} (hp : ¬ Known p) :
    (device.act o e s).1.lookup p = s.lookup p ∨ (device.act o e s).1.lookup p = none := by
  have hinsert {s : Card} {q content : Bytes} (hq : Known q) : (s.insert q content).lookup p = s.lookup p :=
    AList.lookup_insert_ne fun heq => hp (heq ▸ hq)
  have herase (s : Card) (q : Bytes) : (s.erase q).lookup p = s.lookup p ∨ (s.erase q).lookup p = none := by
    by_cases heq : p = q
    · rw [heq]
      exact Or.inr (AList.lookup_erase ..)
    · exact Or.inl (AList.lookup_erase_ne heq)
  cases o with
  | append q content =>
    simp only [device]
    split
    · exact Or.inl rfl
    · exact Or.inl (hinsert ho)
  | write q content =>
    simp only [device]
    split
    · exact Or.inl rfl
    · exact Or.inl (hinsert ho)
  | remove q =>
    simp only [device]
    split
    · exact Or.inl rfl
    · exact herase s q
  | rename source target =>
    simp only [device]
    split
    · exact Or.inl rfl
    · split
      · exact Or.inl rfl
      · rw [hinsert ho]
        exact herase s source
  | _ => exact Or.inl rfl

/-- What is required of the other files of the card. -/
structure Around (j : JsonLibrary) (content path : Bytes) (card : Card) : Prop where
  copies : Copies card
  torn : Honest j path content (card.lookup (metadataPath path))
  whole : Honest j path (complete content) (card.lookup (metadataPath path))

theorem act_around {o : Op} (ho : KnownOp o) (e : Event) {s : Card} (hs : Around j content path s) :
    Around j content path (device.act o e s).1 := by
  refine ⟨fun p hp hsuffix => ?_, ?_, ?_⟩
  · by_cases hknown : Known p
    · exact known_copy hknown hsuffix
    · rcases act_unknown ho e s hknown with hsame | hnone
      · exact hs.copies p (hsame ▸ hp) hsuffix
      · exact absurd hnone hp
  · rcases act_unknown ho e s (sidecar_unknown path) with hsame | hnone
    · exact hsame ▸ hs.torn
    · exact hnone ▸ honest_none
  · rcases act_unknown ho e s (sidecar_unknown path) with hsame | hnone
    · exact hsame ▸ hs.whole
    · exact hnone ▸ honest_none

theorem wp_around {α : Type} {p : CardProg α} (hp : p.All KnownOp) (h : Around j content path card) :
    wp device A (Around j content path) p (fun _ => Around j content path) card :=
  wp_of_all (fun _ e _ ho _ hs => act_around ho e hs) hp h

/-! ### Mounting -/

theorem all_recoverRepair {file : Bytes} :
    (recoverRepair (repairPath file)).All (Op.Within [file, repairPath file]) := by
  have htarget : (repairPath file).take ((repairPath file).length - 7) = file := by
    simp [repairPath, show (ascii ".repair").length = 7 by decide]
  unfold recoverRepair
  simp only [htarget]
  refine .bind ((Prog.all_op _).mpr trivial) fun present => all_ite ?_ ?_
  · exact (Prog.all_op _).mpr (by simp [Op.Within])
  · exact (Prog.all_op _).mpr (by simp [Op.Within])

theorem recoverable_recoverRepair (hpath : isRecordFile path = true) {file : Bytes} (hfile : isRecordFile file = true)
    (h : Recoverable content path card) :
    wp device A (Recoverable content path) (recoverRepair (repairPath file)) (fun _ => Recoverable content path)
      card := by
  by_cases hne : path = file
  · subst hne
    have htarget : (repairPath path).take ((repairPath path).length - 7) = path := by
      simp [repairPath, show (ascii ".repair").length = 7 by decide]
    have hcopy := repair_ne_self path
    have hrename : wp device A (Recoverable content path) (renameFile (repairPath path) path)
        (fun _ => Recoverable content path) card := by
      refine wp_renameFile h h fun kept hkept hmissing => ?_
      unfold Recoverable at h ⊢
      rw [hmissing, Option.none_or, hkept] at h
      rw [AList.lookup_insert, Option.some_or]
      exact h
    unfold recoverRepair
    simp only [htarget]
    refine wp_bind'.mpr (wp_fileExists h ?_ fun _ => ?_)
    · rw [wp_ite]
      split
      · next hpresent =>
        obtain ⟨found, hfound⟩ := Option.isSome_iff_exists.mp hpresent
        refine wp_removeFile h h fun _ => ?_
        unfold Recoverable at h ⊢
        rw [hfound, Option.some_or] at h
        rw [AList.lookup_erase_ne hcopy.symm, hfound, Option.some_or]
        exact h
      · exact hrename
    · rw [wp_ite, if_neg (by simp)]
      exact hrename
  · obtain ⟨hnot, hnotCopy⟩ := other_file hpath hfile hne
    exact recoverable_frame all_recoverRepair hnot hnotCopy h

theorem recoverable_recoverRepairs (hpath : isRecordFile path = true) (copies : List Bytes) : ∀ card : Card,
    (∀ copy ∈ copies, ∃ file, isRecordFile file = true ∧ copy = repairPath file) → Recoverable content path card →
    wp device A (Recoverable content path) (recoverRepairs copies) (fun _ => Recoverable content path) card := by
  induction copies with
  | nil => exact fun card _ h => (wp_pure ..).mpr h
  | cons copy copies ih =>
    intro card hcopies h
    rw [List.forall_mem_cons] at hcopies
    obtain ⟨⟨file, hfile, rfl⟩, hrest⟩ := hcopies
    unfold recoverRepairs
    refine wp_bind'.mpr (wp_post (recoverable_recoverRepair hpath hfile h) fun done s hs => ?_)
    exact wp_bind'.mpr (wp_post (ih s hrest hs) fun _ _ hs' => (wp_pure ..).mpr hs')

theorem all_recoverFloor (t : Tally) (ram : Ram) : (recoverFloor t ram).All (Op.Within journalPaths) := by
  have hload (p : Bytes) : (loadSequenceJournal p).All (Op.Within journalPaths) :=
    .bind ((Prog.all_op _).mpr trivial) fun _ => trivial
  unfold recoverFloor
  refine .bind (hload _) fun _ => .bind (hload _) fun _ => .bind (hload _) fun _ => ?_
  exact .bind (all_runIf (all_persistSequence _)) fun _ => all_ite trivial (all_ite trivial trivial)

theorem all_advance (acknowledged : ℕ) :
    (advanceSequenceFloor j fingerprint acknowledged {} ram).All (Op.Within journalPaths) := by
  unfold advanceSequenceFloor
  refine .bind (all_bindingHolds journalPaths _) fun _ => all_ite trivial (all_ite trivial (all_ite trivial ?_))
  exact .bind (all_persistBound _) fun _ => all_ite trivial trivial

/-- The files that are listed as copies are. -/
theorem Copies.listed (h : Copies card) (keep : Bytes → Bool) {copy : Bytes}
    (hcopy : copy ∈ (collectFiles (ascii "/POWERMON/records/") (ascii ".repair") card).filter keep) :
    ∃ file, isRecordFile file = true ∧ copy = repairPath file := by
  have hlisted := (List.mem_filter.mp hcopy).1
  simp only [collectFiles, List.mem_filter, Bool.and_eq_true, List.isSuffixOf_iff_suffix] at hlisted
  refine h copy ?_ hlisted.2.2
  exact Option.isSome_iff_ne_none.mp (AList.lookup_isSome.mpr (AList.mem_keys.mpr hlisted.1))

theorem recordFile_of_listed {keep : Bytes → Bool} {p : Bytes}
    (h : p ∈ ((collectFiles (ascii "/POWERMON/records/") (ascii ".pmr") card).filter keep).insertionSort
      fun a b => decide (a ≤ b)) : isRecordFile p = true := by
  rw [List.mem_insertionSort, List.mem_filter] at h
  exact isRecordFile_of_mem ((List.mem_insertionSort _).mpr h.1)

/-- **Whatever a recovery keeps**: what its parts keep. -/
theorem wp_recover {I : Card → Prop}
    (hsegments : ∀ s paths t, I s → (∀ p ∈ paths, isRecordFile p = true) →
      wp device A I (recoverSegments j paths t) (fun _ => I) s)
    (hjournals : ∀ s s', I s → SameExcept journalPaths s s' → I s') (h : I card) :
    wp device A I (recover j ram) (fun _ => I) card := by
  unfold recover
  refine wp_bind'.mpr (wp_listFiles h fun keep _ => wp_bind'.mpr ?_)
  refine wp_post (hsegments card _ _ h fun _ => recordFile_of_listed) fun t s hs => ?_
  exact wp_mono (fun _ hs' => hjournals s _ hs hs') (fun _ _ hs' => hjournals s _ hs hs')
    (wp_sameExcept (all_recoverFloor t _) s)

/-- **Whatever a mount keeps**: what its parts keep. -/
theorem wp_mount {I : Card → Prop} (hcopies : ∀ s, I s → Copies s)
    (hrepairs : ∀ s copies, I s → (∀ copy ∈ copies, ∃ file, isRecordFile file = true ∧ copy = repairPath file) →
      wp device A I (recoverRepairs copies) (fun _ => I) s)
    (hsegments : ∀ s paths t, I s → (∀ p ∈ paths, isRecordFile p = true) →
      wp device A I (recoverSegments j paths t) (fun _ => I) s)
    (hjournals : ∀ s s', I s → SameExcept journalPaths s s' → I s') (h : I card) (required : ℕ) :
    wp device A I (remountPreferred j fingerprint required ram) (fun _ => I) card := by
  unfold remountPreferred
  refine wp_bind'.mpr (wp_listFiles h fun keep _ => wp_bind'.mpr ?_)
  refine wp_post (hrepairs card _ h fun _ => (hcopies card h).listed keep) fun repaired s hs => ?_
  rw [wp_ite]
  split
  · exact (wp_pure ..).mpr hs
  · refine wp_bind'.mpr (wp_post (wp_recover hsegments hjournals hs) fun result s hs => ?_)
    obtain ⟨recovered, ok⟩ := result
    rw [wp_ite]
    split
    · exact (wp_pure ..).mpr hs
    · simp only
      rw [wp_ite]
      split
      · exact (wp_pure ..).mpr hs
      · refine wp_bind'.mpr (wp_mono (fun _ hs' => hjournals s _ hs hs') (fun _ s' hs' => ?_)
          (wp_sameExcept (all_advance _) s))
        exact (wp_pure ..).mpr (hjournals s s' hs hs')

theorem shrinks_recoverSegment (hpath : isRecordFile path = true) (t : Tally) :
    wp device A (Shrinks card) (recoverSegment j t path) (fun _ => Shrinks card) card := by
  have hfile : wp device A (Shrinks card) (recoverFile j path t) (fun _ => Shrinks card) card :=
    wp_post (faulty_recoverFile hpath t) fun _ _ h => h.1.shrinks
  have hread (p : Bytes) (f : Option Bytes → CardProg Tally)
      (hf : ∀ found, wp device A (Shrinks card) (f found) (fun _ => Shrinks card) card) :
      wp device A (Shrinks card) (readFile p >>= f) (fun _ => Shrinks card) card :=
    wp_bind'.mpr (wp_readFile (Shrinks.refl card) (hf _) fun _ => hf _)
  unfold recoverSegment
  refine hread _ _ fun sidecar => hread _ _ fun record => hread _ _ fun index => ?_
  split
  · exact hfile
  · rw [wp_ite]
    split
    · exact (wp_pure ..).mpr (Shrinks.refl card)
    · exact hfile

theorem shrinks_recoverSegments (paths : List Bytes) : ∀ (t : Tally) (card : Card),
    (∀ p ∈ paths, isRecordFile p = true) →
    wp device A (Shrinks card) (recoverSegments j paths t) (fun _ => Shrinks card) card := by
  induction paths with
  | nil => exact fun t card _ => (wp_pure ..).mpr (Shrinks.refl card)
  | cons p paths ih =>
    intro t card hrecord
    rw [List.forall_mem_cons] at hrecord
    unfold recoverSegments
    refine wp_bind'.mpr (wp_post (shrinks_recoverSegment hrecord.1 t) fun t' s hs => ?_)
    exact wp_mono (fun _ h => hs.trans h) (fun _ _ h => hs.trans h) (ih t' s hrecord.2)

/-- **What no mount breaks**, whatever fails at it. -/
structure Sound (j : JsonLibrary) (content path : Bytes) (card : Card) : Prop where
  file : Recoverable content path card
  around : Around j content path card
  numbered : Numbered j card

theorem Sound.journals (hpath : isRecordFile path = true) (h : Sound j content path card)
    (hsame : SameExcept journalPaths card card') : Sound j content path card' where
  file := h.file.congr hsame (record_notMem_journalPaths hpath) (repair_notMem_journalPaths path)
  around := by
    have hsidecar := hsame _ (metadata_notMem_journalPaths path)
    refine ⟨fun p hp hsuffix => ?_, hsidecar ▸ h.around.torn, hsidecar ▸ h.around.whole⟩
    by_cases hjournal : p ∈ journalPaths
    · exact known_copy (Or.inr (Or.inl hjournal)) hsuffix
    · exact h.around.copies p (hsame p hjournal ▸ hp) hsuffix
  numbered := h.numbered.shrinks (.of_eq (standing_journals hsame))

theorem sound_recoverSegments (hgood : GoodLines j content) (hpath : isRecordFile path = true)
    (h : Sound j content path card) {paths : List Bytes} (t : Tally) (hpaths : ∀ p ∈ paths, isRecordFile p = true) :
    wp device A (Sound j content path) (recoverSegments j paths t) (fun _ => Sound j content path) card := by
  refine wp_mono (fun s hs => ?_) (fun _ s hs => ?_)
    (wp_and (recoverable_recoverSegments hgood hpath paths t card hpaths h.file)
      (wp_and (wp_around (known_recoverSegments hpaths t) h.around) (shrinks_recoverSegments paths t card hpaths)))
  · exact ⟨hs.1, hs.2.1, h.numbered.shrinks hs.2.2⟩
  · exact ⟨hs.1, hs.2.1, h.numbered.shrinks hs.2.2⟩

theorem sound_recoverRepairs (hpath : isRecordFile path = true) (h : Sound j content path card) {copies : List Bytes}
    (hcopies : ∀ copy ∈ copies, ∃ file, isRecordFile file = true ∧ copy = repairPath file) :
    wp device A (Sound j content path) (recoverRepairs copies) (fun _ => Sound j content path) card := by
  refine wp_mono (fun s hs => ?_) (fun _ s hs => ?_)
    (wp_and (recoverable_recoverRepairs hpath copies card hcopies h.file)
      (wp_and (wp_around (known_recoverRepairs hcopies) h.around) (faulty_recoverRepairs copies card hcopies)))
  · exact ⟨hs.1, hs.2.1, h.numbered.shrinks (.of_eq hs.2.2)⟩
  · exact ⟨hs.1, hs.2.1, h.numbered.shrinks (.of_eq hs.2.2.1.standing)⟩

/-- A recovery or a mount under some events, of which the last ones may be missing: the power is lost then. -/
inductive Attempt (j : JsonLibrary) (fingerprint : Bytes) (card : Card) : Card → Prop
  | recover (ram : Ram) (events : List Event) : Attempt j fingerprint card (run device (recover j ram) events card).1
  | mount (ram : Ram) (required : ℕ) (events : List Event) :
      Attempt j fingerprint card (run device (remountPreferred j fingerprint required ram) events card).1

/-- **Whatever fails at a recovery and wherever the power is lost**, the file stays recoverable. -/
theorem Attempt.sound (hgood : GoodLines j content) (hpath : isRecordFile path = true)
    (hstep : Attempt j fingerprint card card') (h : Sound j content path card) : Sound j content path card' := by
  have hend {α : Type} {p : CardProg α} {events : List Event} (hp : wp device (fun _ _ _ => True)
      (Sound j content path) p (fun _ => Sound j content path) card) :
      Sound j content path (run device p events card).1 :=
    (wp_run hp (along_of_forall _ _ fun _ _ _ _ => trivial)).state
  cases hstep with
  | recover ram events =>
    refine hend (wp_recover (fun s paths t hs hpaths => ?_) (fun s s' hs hsame => ?_) h)
    · exact sound_recoverSegments hgood hpath hs t hpaths
    · exact hs.journals hpath hsame
  | mount ram required events =>
    refine hend (wp_mount (fun s hs => hs.around.copies) (fun s copies hs hcopies => ?_)
      (fun s paths t hs hpaths => ?_) (fun s s' hs hsame => ?_) h required)
    · exact sound_recoverRepairs hpath hs hcopies
    · exact sound_recoverSegments hgood hpath hs t hpaths
    · exact hs.journals hpath hsame

theorem sound_run (hgood : GoodLines j content) (hpath : isRecordFile path = true) (h : Sound j content path card)
    (hrun : ReflTransGen (Attempt j fingerprint) card card') : Sound j content path card' := by
  induction hrun with
  | refl => exact h
  | tail _ hstep ih => exact hstep.sound hgood hpath ih

/-! ### What is counted -/

/-- A reading is counted: its sequence is at most the largest one, and in the range of those that can be
synchronized if it can. -/
structure Includes (t : Tally) (e : Entry) : Prop where
  maximum : e.sequence ≤ t.maximumSequence
  range : e.syncable = true → 0 < t.oldestSyncableSequence ∧ t.oldestSyncableSequence ≤ e.sequence ∧
    e.sequence ≤ t.newestSyncableSequence

/-- What is counted stays counted. -/
def Keeps (t t' : Tally) : Prop := ∀ e, Includes t e → Includes t' e

theorem Keeps.refl (t : Tally) : Keeps t t := fun _ => id

theorem Keeps.trans {t t' t'' : Tally} (h : Keeps t t') (h' : Keeps t' t'') : Keeps t t'' :=
  fun e he => h' e (h e he)

theorem oldest_spec (current : ℕ) {sequence : ℕ} (h : 0 < sequence) : 0 < oldest current sequence ∧
    oldest current sequence ≤ sequence ∧ (0 < current → oldest current sequence ≤ current) := by
  unfold oldest
  split <;> omega

theorem keeps_addRecord (t : Tally) {e : Entry} (h : 0 < e.sequence) : Keeps t (t.addRecord e) := by
  intro e' he'
  have hmaximum := he'.maximum
  have holdest := oldest_spec t.oldestSyncableSequence h
  constructor
  · simp only [Tally.addRecord]
    omega
  · intro hsyncable
    have hrange := he'.range hsyncable
    simp only [Tally.addRecord]
    split <;> omega

theorem includes_addRecord (t : Tally) {e : Entry} (h : 0 < e.sequence) : Includes (t.addRecord e) e := by
  have holdest := oldest_spec t.oldestSyncableSequence h
  constructor
  · exact Nat.le_max_right ..
  · intro hsyncable
    simp only [Tally.addRecord, hsyncable, if_true]
    omega

theorem keeps_addSegment (t : Tally) {metadata : SegmentMetadata} (h : 0 < metadata.firstSequence) :
    Keeps t (t.addSegment metadata) := by
  intro e he
  have hmaximum := he.maximum
  have holdest := oldest_spec t.oldestSyncableSequence h
  constructor
  · simp only [Tally.addSegment]
    omega
  · intro hsyncable
    have hrange := he.range hsyncable
    simp only [Tally.addSegment]
    omega

theorem includes_addSegment (t : Tally) {metadata : SegmentMetadata} (h : 0 < metadata.firstSequence) {e : Entry}
    (hfirst : metadata.firstSequence ≤ e.sequence) (hlast : e.sequence ≤ metadata.lastSequence) :
    Includes (t.addSegment metadata) e := by
  have holdest := oldest_spec t.oldestSyncableSequence h
  constructor
  · simp only [Tally.addSegment]
    omega
  · intro _
    simp only [Tally.addSegment]
    omega

theorem includes_foldl (es : List Entry) : ∀ t : Tally, (∀ e ∈ es, 0 < e.sequence) →
    Keeps t (es.foldl Tally.addRecord t) ∧ ∀ e ∈ es, Includes (es.foldl Tally.addRecord t) e := by
  induction es with
  | nil => exact fun t _ => ⟨Keeps.refl t, by simp⟩
  | cons e es ih =>
    intro t h
    rw [List.forall_mem_cons] at h
    obtain ⟨hkeeps, hrest⟩ := ih (t.addRecord e) h.2
    refine ⟨(keeps_addRecord t h.1).trans hkeeps, List.forall_mem_cons.mpr ⟨?_, hrest⟩⟩
    exact hkeeps e (includes_addRecord t h.1)

/-- The entries of the lines of a file are numbered from one. -/
theorem Numbered.positive (h : Numbered j card) {p found : Bytes} (hp : isRecordFile p = true)
    (hfound : card.lookup p = some found) {line : Bytes} (hline : line ∈ lines found) {e : Entry}
    (he : decodeLine j .readings line = .ok e) : 0 < e.sequence := by
  refine Nat.pos_of_ne_zero fun hzero => h p hp ?_
  rw [standing_of_present hfound]
  exact mem_lineSequences.mpr ⟨line, hline, e, he, hzero⟩

theorem Decodes.entries {ls : List Bytes} {es : List Entry} (h : Decodes j ls es) {P : Entry → Prop}
    (hP : ∀ line ∈ ls, ∀ e, decodeLine j .readings line = .ok e → P e) : ∀ e ∈ es, P e := by
  induction h with
  | nil => simp
  | cons hdecode _ ih =>
    rw [List.forall_mem_cons] at hP ⊢
    exact ⟨hP.1 _ hdecode, ih hP.2⟩

theorem acceptMetadata_first {p : Bytes} {sidecar : Option Bytes} {recordSize indexSize : Option ℕ}
    {metadata : SegmentMetadata}
    (h : acceptMetadata j .readings p sidecar recordSize indexSize = some metadata) : 0 < metadata.firstSequence := by
  unfold acceptMetadata at h
  split at h
  · cases h
  · split at h
    · cases h
    · unfold acceptDocument at h
      simp only at h
      split_ifs at h with _ _ _ _ hbounds
      cases h
      exact hbounds.2.1

/-! ### A mount at which nothing fails -/

theorem keeps_recoverFile (h : Numbered j card) {p : Bytes} (hp : isRecordFile p = true) (t : Tally) :
    wp device A (fun _ => True) (recoverFile j p t) (fun t' _ => Keeps t t') card := by
  unfold recoverFile
  refine wp_bind'.mpr (wp_readFile trivial ?_ fun _ => (wp_pure ..).mpr (Keeps.refl t))
  cases hfound : card.lookup p with
  | none => exact (wp_pure ..).mpr (Keeps.refl t)
  | some found =>
    obtain ⟨k, es, hes, ht, -⟩ := recoverLines_cases (j := j) (unterminated found) (lines found) 0 t
    have hkeeps : Keeps t (recoverLines j (unterminated found) (lines found) 0 t).1 := by
      rw [ht]
      refine (includes_foldl es t (Decodes.entries hes fun line hline e he => ?_)).1
      exact h.positive hp hfound (List.mem_of_mem_take hline) he
    simp only
    split
    · refine wp_bind'.mpr (wp_mono (fun _ _ => trivial) (fun _ s _ => ?_) (wp_sameExcept (all_repairFile p _) card))
      exact (wp_pure ..).mpr hkeeps
    · exact (wp_pure ..).mpr hkeeps

/-- **What is counted stays counted** while other files are recovered. -/
theorem keeps_recoverSegment (h : Numbered j card) {p : Bytes} (hp : isRecordFile p = true) (t : Tally) :
    wp device A (fun _ => True) (recoverSegment j t p) (fun t' _ => Keeps t t') card := by
  have hread (q : Bytes) (f : Option Bytes → CardProg Tally)
      (hf : ∀ found, wp device A (fun _ => True) (f found) (fun t' _ => Keeps t t') card) :
      wp device A (fun _ => True) (readFile q >>= f) (fun t' _ => Keeps t t') card :=
    wp_bind'.mpr (wp_readFile trivial (hf _) fun _ => hf _)
  unfold recoverSegment
  refine hread _ _ fun sidecar => hread _ _ fun record => hread _ _ fun index => ?_
  split
  · exact keeps_recoverFile h hp t
  · next metadata hmetadata =>
    rw [wp_ite]
    split
    · exact (wp_pure ..).mpr (keeps_addSegment t (acceptMetadata_first hmetadata))
    · exact keeps_recoverFile h hp t

/-- The file is there, and no copy. -/
structure Uncopied (content path : Bytes) (card : Card) : Prop where
  file : card.lookup path = some content ∨ card.lookup path = some (complete content)
  copy : card.lookup (repairPath path) = none

/-- The file ends with its last complete line, and there is no copy. -/
structure Trimmed (content path : Bytes) (card : Card) : Prop where
  file : card.lookup path = some (complete content)
  copy : card.lookup (repairPath path) = none

/-- Every reading of the file is counted. -/
def Counts (j : JsonLibrary) (content : Bytes) (t : Tally) : Prop :=
  ∀ line ∈ lines content, ∀ e, decodeLine j .readings line = .ok e → Includes t e

theorem Counts.keeps {t t' : Tally} (h : Counts j content t) (hkeeps : Keeps t t') : Counts j content t' :=
  fun line hline e he => hkeeps e (h line hline e he)

theorem Trimmed.congr {paths : List Bytes} (h : Trimmed content path card) (hsame : SameExcept paths card card')
    (hpath : path ∉ paths) (hcopy : repairPath path ∉ paths) : Trimmed content path card' where
  file := by rw [hsame _ hpath, h.file]
  copy := by rw [hsame _ hcopy, h.copy]

theorem Uncopied.congr {paths : List Bytes} (h : Uncopied content path card) (hsame : SameExcept paths card card')
    (hpath : path ∉ paths) (hcopy : repairPath path ∉ paths) : Uncopied content path card' where
  file := by
    rw [hsame _ hpath]
    exact h.file
  copy := by rw [hsame _ hcopy, h.copy]

theorem Decodes.counts {ls : List Bytes} {es : List Entry} (h : Decodes j ls es) {t : Tally}
    (ht : ∀ e ∈ es, Includes t e) : ∀ line ∈ ls, ∀ e, decodeLine j .readings line = .ok e → Includes t e := by
  induction h with
  | nil => simp
  | cons hdecode _ ih =>
    rw [List.forall_mem_cons] at ht ⊢
    refine ⟨fun e he => ?_, ih ht.2⟩
    rw [hdecode, Except.ok.injEq] at he
    exact he ▸ ht.1

theorem trimmed_recoverFile (hgood : GoodLines j content) (hpath : isRecordFile path = true)
    (hnumbered : Numbered j card) (h : Uncopied content path card) (t : Tally) :
    wp device Calm (fun _ => True) (recoverFile j path t)
      (fun t' s => Trimmed content path s ∧ Counts j content t') card := by
  obtain ⟨found, hfound, hcomplete⟩ : ∃ found, card.lookup path = some found ∧
      (found = content ∨ found = complete content) := by
    rcases h.file with hfile | hfile
    · exact ⟨content, hfile, Or.inl rfl⟩
    · exact ⟨complete content, hfile, Or.inr rfl⟩
  have hlines : lines found = lines content := by
    rcases hcomplete with rfl | rfl
    · rfl
    · exact (complete_lines content).1
  have hgood' : GoodLines j found := by
    unfold GoodLines
    rw [hlines]
    exact hgood
  have hwhole : complete found = complete content := by
    unfold complete
    rw [hlines]
  obtain ⟨es, hes, hout⟩ := recoverLines_good (unterminated found) (lines found) 0 t hgood'
  have hcounts : Counts j content (es.foldl Tally.addRecord t) := by
    have hpositive : ∀ e ∈ es, 0 < e.sequence :=
      Decodes.entries hes fun line hline e he => hnumbered.positive hpath hfound hline he
    have hincludes := Decodes.counts hes (includes_foldl es t hpositive).2
    rw [hlines] at hincludes
    exact hincludes
  unfold recoverFile
  refine wp_bind'.mpr (calm_readFile trivial ?_)
  rw [hfound]
  simp only [hout, Nat.zero_add]
  split
  · next stop hstop =>
    have hstop' : stop = (complete found).length := by
      split_ifs at hstop
      rw [Ending.torn.injEq] at hstop
      exact hstop.symm
    have hle : stop ≤ found.length := by
      rw [hstop', ← take_complete found, List.length_take]
      exact Nat.min_le_right ..
    refine wp_bind'.mpr (wp_post (calm_repairFile hfound hle) fun _ s hs => (wp_pure ..).mpr ⟨⟨?_, hs.2⟩, hcounts⟩)
    rw [hs.1, hstop', take_complete, hwhole]
  · next hnot =>
    have hended : unterminated found = [] := by
      by_contra hrest
      rw [if_neg hrest] at hnot
      exact hnot _ rfl
    refine (wp_pure ..).mpr ⟨⟨?_, h.copy⟩, hcounts⟩
    rw [hfound, ← hwhole, complete_of_ended hended]

theorem trimmed_recoverSegment (hgood : GoodLines j content) (hpath : isRecordFile path = true)
    (hnumbered : Numbered j card) (haround : Around j content path card) (h : Uncopied content path card) (t : Tally) :
    wp device Calm (fun _ => True) (recoverSegment j t path)
      (fun t' s => Trimmed content path s ∧ Counts j content t') card := by
  unfold recoverSegment
  refine wp_bind'.mpr (calm_readFile trivial (wp_bind'.mpr (calm_readFile trivial
    (wp_bind'.mpr (calm_readFile trivial ?_)))))
  split
  · exact trimmed_recoverFile hgood hpath hnumbered h t
  · next metadata hmetadata =>
    rw [wp_ite]
    split
    · -- the sidecar says the truth, so the file is not torn
      have hfirst := acceptMetadata_first hmetadata
      have hbounds : ∀ found, card.lookup path = some found → Honest j path found (card.lookup (metadataPath path)) →
          unterminated found = [] ∧ Counts j found (t.addSegment metadata) := by
        intro found hfound hhonest
        rw [hfound] at hmetadata
        obtain ⟨hended, hlines⟩ := hhonest _ _ hmetadata
        refine ⟨hended, fun line hline e he => ?_⟩
        exact includes_addSegment t hfirst (hlines line hline e he).1 (hlines line hline e he).2
      refine (wp_pure ..).mpr ?_
      rcases h.file with hfile | hfile
      · obtain ⟨hended, hcounts⟩ := hbounds _ hfile haround.torn
        refine ⟨⟨?_, h.copy⟩, hcounts⟩
        rw [hfile, complete_of_ended hended]
      · obtain ⟨-, hcounts⟩ := hbounds _ hfile haround.whole
        refine ⟨⟨hfile, h.copy⟩, ?_⟩
        unfold Counts at hcounts ⊢
        rw [(complete_lines content).1] at hcounts
        exact hcounts
    · exact trimmed_recoverFile hgood hpath hnumbered h t

/-- **The other files** leave the file and what is counted of it. -/
theorem keeps_recoverSegments (hpath : isRecordFile path = true) (paths : List Bytes) :
    ∀ (t : Tally) (card : Card), (∀ p ∈ paths, isRecordFile p = true) → path ∉ paths → Numbered j card →
    wp device A (fun _ => True) (recoverSegments j paths t)
      (fun t' s => Keeps t t' ∧ (Trimmed content path card → Trimmed content path s)) card := by
  induction paths with
  | nil => exact fun t card _ _ _ => (wp_pure ..).mpr ⟨Keeps.refl t, id⟩
  | cons p paths ih =>
    intro t card hrecord hnot hnumbered
    rw [List.forall_mem_cons] at hrecord
    rw [List.mem_cons, not_or] at hnot
    obtain ⟨hfile, hcopy⟩ := other_file hpath hrecord.1 hnot.1
    unfold recoverSegments
    refine wp_bind'.mpr (wp_mono (fun _ _ => trivial) ?_ (wp_and (keeps_recoverSegment hnumbered hrecord.1 t)
      (wp_and (wp_sameExcept (all_recoverSegment (j := j) t p) card) (shrinks_recoverSegment hrecord.1 t))))
    rintro t1 s1 ⟨hkeeps, hsame, hshrinks⟩
    refine wp_post (ih t1 s1 hrecord.2 hnot.2 (hnumbered.shrinks hshrinks)) fun t' s hs => ?_
    exact ⟨hkeeps.trans hs.1, fun h => hs.2 (h.congr hsame hfile hcopy)⟩

theorem trimmed_recoverSegments (hgood : GoodLines j content) (hpath : isRecordFile path = true)
    (paths : List Bytes) : ∀ (t : Tally) (card : Card), (∀ p ∈ paths, isRecordFile p = true) → paths.Nodup →
    path ∈ paths → Numbered j card → Around j content path card → Uncopied content path card →
    wp device Calm (fun _ => True) (recoverSegments j paths t)
      (fun t' s => Trimmed content path s ∧ Counts j content t') card := by
  induction paths with
  | nil => exact fun t card _ _ h => (by cases h)
  | cons p paths ih =>
    intro t card hrecord hnodup hmem hnumbered haround h
    rw [List.forall_mem_cons] at hrecord
    rw [List.nodup_cons] at hnodup
    unfold recoverSegments
    by_cases heq : path = p
    · subst heq
      refine wp_bind'.mpr (wp_mono (fun _ _ => trivial) ?_
        (wp_and (trimmed_recoverSegment hgood hpath hnumbered haround h t) (shrinks_recoverSegment hpath t)))
      rintro t1 s1 ⟨⟨htrimmed, hcounts⟩, hshrinks⟩
      have hrest : wp device Calm (fun _ => True) (recoverSegments j paths t1)
          (fun t' s => Keeps t1 t' ∧ (Trimmed content path s1 → Trimmed content path s)) s1 :=
        keeps_recoverSegments hpath paths t1 s1 hrecord.2 hnodup.1 (hnumbered.shrinks hshrinks)
      exact wp_post hrest fun t' s hs => ⟨hs.2 htrimmed, hcounts.keeps hs.1⟩
    · obtain ⟨hfile, hcopy⟩ := other_file hpath hrecord.1 heq
      refine wp_bind'.mpr (wp_mono (fun _ _ => trivial) ?_
        (wp_and (wp_sameExcept (all_recoverSegment (j := j) t p) card)
          (wp_and (shrinks_recoverSegment hrecord.1 t) (wp_around (known_recoverSegment hrecord.1 t) haround))))
      rintro t1 s1 ⟨hsame, hshrinks, haround1⟩
      refine ih t1 s1 hrecord.2 hnodup.2 ((List.mem_cons.mp hmem).resolve_left heq) (hnumbered.shrinks hshrinks)
        haround1 (h.congr hsame hfile hcopy)

/-- The readings of the file are below the floor, and those that can be synchronized are in the range. -/
structure Reported (j : JsonLibrary) (content : Bytes) (ram : Ram) : Prop where
  floor : ∀ line ∈ lines content, ∀ e, decodeLine j .readings line = .ok e → e.sequence ≤ ram.health.sequenceFloor
  range : ∀ line ∈ lines content, ∀ e, decodeLine j .readings line = .ok e → e.syncable = true →
    0 < ram.health.oldestSyncableSequence ∧ ram.health.oldestSyncableSequence ≤ e.sequence ∧
      e.sequence ≤ ram.health.newestSyncableSequence

/-- There is no file of repairs. -/
def NoCopies (card : Card) : Prop := ∀ p, ascii ".repair" <:+ p → card.lookup p = none

theorem NoCopies.congr {p : Bytes} (h : NoCopies card) (hp : isRecordFile p = true)
    (hsame : SameExcept [p, repairPath p] card card') (hcopy : card'.lookup (repairPath p) = none) :
    NoCopies card' := by
  intro q hq
  by_cases heq : q = repairPath p
  · rw [heq, hcopy]
  · have hne : q ≠ p := by
      rintro rfl
      simp only [isRecordFile, Bool.and_eq_true, List.isSuffixOf_iff_suffix] at hp
      exact ne_of_suffix hq hp.2 (by decide) (by decide) (by decide) rfl
    rw [hsame q (by simp [hne, heq]), h q hq]

theorem nocopies_recoverFile (h : NoCopies card) {p : Bytes} (hp : isRecordFile p = true) (t : Tally) :
    wp device Calm (fun _ => True) (recoverFile j p t) (fun _ => NoCopies) card := by
  have hcopy : wp device Calm (fun _ => True) (recoverFile j p t)
      (fun _ s => s.lookup (repairPath p) = none) card := by
    unfold recoverFile
    refine wp_bind'.mpr (calm_readFile trivial ?_)
    cases hfound : card.lookup p with
    | none => exact (wp_pure ..).mpr (h _ (repair_suffix p))
    | some found =>
      obtain ⟨k, es, -, -, hend⟩ := recoverLines_cases (j := j) (unterminated found) (lines found) 0 t
      simp only
      split
      · next stop hstop =>
        simp only [hstop] at hend
        have hle : stop ≤ found.length := by
          rw [hend.1, Nat.zero_add]
          exact flatten_take_le found k
        exact wp_bind'.mpr (wp_post (calm_repairFile hfound hle) fun _ s hs => (wp_pure ..).mpr hs.2)
      · exact (wp_pure ..).mpr (h _ (repair_suffix p))
  exact wp_mono (fun _ _ => trivial) (fun _ s hs => h.congr hp hs.2 hs.1)
    (wp_and hcopy (wp_sameExcept (all_recoverFile (j := j) p t) card))

theorem nocopies_recoverSegments (paths : List Bytes) : ∀ (t : Tally) (card : Card),
    (∀ p ∈ paths, isRecordFile p = true) → NoCopies card →
    wp device Calm (fun _ => True) (recoverSegments j paths t) (fun _ => NoCopies) card := by
  induction paths with
  | nil => exact fun t card _ h => (wp_pure ..).mpr h
  | cons p paths ih =>
    intro t card hrecord h
    rw [List.forall_mem_cons] at hrecord
    have hsegment : wp device Calm (fun _ => True) (recoverSegment j t p) (fun _ => NoCopies) card := by
      unfold recoverSegment
      refine wp_bind'.mpr (calm_readFile trivial (wp_bind'.mpr (calm_readFile trivial
        (wp_bind'.mpr (calm_readFile trivial ?_)))))
      split
      · exact nocopies_recoverFile h hrecord.1 t
      · rw [wp_ite]
        split
        · exact (wp_pure ..).mpr h
        · exact nocopies_recoverFile h hrecord.1 t
    unfold recoverSegments
    exact wp_bind'.mpr (wp_post hsegment fun t' s hs => ih t' s hrecord.2 hs)

theorem NoCopies.journals (h : NoCopies card) (hsame : SameExcept journalPaths card card') : NoCopies card' := by
  intro p hp
  have hnot : p ∉ journalPaths := notMem_journalPaths hp (by decide) (by decide) (by decide) (by decide)
  rw [hsame p hnot, h p hp]

/-- **A recovery at which nothing fails** cuts the file after its complete lines and counts them. -/
theorem trimmed_recover (hgood : GoodLines j content) (hpath : isRecordFile path = true)
    (hnumbered : Numbered j card) (haround : Around j content path card) (h : Uncopied content path card)
    (hcopies : NoCopies card) :
    wp device Calm (fun _ => True) (recover j ram)
      (fun result s => (Trimmed content path s ∧ NoCopies s) ∧
        (result.2 = true → HealthMirror.Agrees result.1 ∧ Reported j content result.1)) card := by
  have hlisted : path ∈ recordFiles card := by
    refine mem_recordFiles.mpr ⟨?_, hpath⟩
    rcases h.file with hfile | hfile
    · exact ⟨_, hfile⟩
    · exact ⟨_, hfile⟩
  unfold recover
  refine wp_bind'.mpr (calm_listFiles trivial (wp_bind'.mpr ?_))
  refine wp_mono (fun _ _ => trivial) ?_ (wp_and
    (trimmed_recoverSegments hgood hpath (recordFiles card) {} card (fun p hp => isRecordFile_of_mem hp)
      (nodup_recordFiles card) hlisted hnumbered haround h)
    (nocopies_recoverSegments (recordFiles card) {} card (fun p hp => isRecordFile_of_mem hp) hcopies))
  rintro t s1 ⟨⟨htrimmed, hcounts⟩, hnone⟩
  refine wp_post (calm_recoverFloor t) ?_
  rintro result s ⟨hjournals, hresult⟩
  refine ⟨⟨?_, hnone.journals hjournals.1⟩, fun hok => ?_⟩
  · exact htrimmed.congr hjournals.1 (record_notMem_journalPaths hpath) (repair_notMem_journalPaths path)
  · rcases hresult with ⟨-, hrefused, -⟩ | ⟨-, rfl⟩
    · rw [hrefused] at hok
      cases hok
    · refine ⟨⟨rfl, rfl, Nat.lt_succ_of_le (Nat.le_max_left ..)⟩, fun line hline e he => ?_,
        fun line hline e he => (hcounts line hline e he).range⟩
      exact (hcounts line hline e he).maximum.trans (Nat.le_max_left ..)

/-- Raising the floor keeps what is below it. -/
theorem reported_advance {acknowledged : ℕ} (hagrees : HealthMirror.Agrees ram) (h : Reported j content ram) :
    (advanceSequenceFloor j fingerprint acknowledged {} ram).Returns fun result => Reported j content result.1 := by
  have hfloor : ram.health.sequenceFloor = ram.nextSequence - 1 := hagrees.floor
  have hchecked (conflict ready inProgress : Bool) :
      Reported j content (Ram.floorChecked ram conflict ready inProgress) :=
    ⟨fun line hline e he => (h.floor line hline e he).trans hfloor.le, h.range⟩
  unfold advanceSequenceFloor
  refine Prog.returns_bind fun _ => Prog.returns_ite (fun _ => h) fun _ => ?_
  refine Prog.returns_ite (fun _ => hchecked _ _ _) fun hahead => ?_
  refine Prog.returns_ite (fun _ => hchecked _ _ _) fun hvalid => Prog.returns_bind fun _ => ?_
  refine Prog.returns_ite (fun _ => ?_) fun _ => ⟨h.floor, h.range⟩
  simp only [Bool.not_eq_true', Bool.and_eq_true, decide_eq_true_eq, Bool.not_eq_false] at hvalid
  simp only [hvalid.1.1, Bool.and_true, true_and, not_le] at hahead
  refine ⟨fun line hline e he => ?_, h.range⟩
  have hle := h.floor line hline e he
  simp only [Ram.advanced]
  omega

/-- The copies are gone once they are recovered. -/
theorem uncopied_recoverRepairs (hpath : isRecordFile path = true) (h : Sound j content path card) :
    wp device Calm (Sound j content path)
      (recoverRepairs (collectFiles (ascii "/POWERMON/records/") (ascii ".repair") card))
      (fun repaired s => Sound j content path s ∧
        (repaired = true → Uncopied content path s ∧ NoCopies s)) card := by
  have hcopies : ∀ copy ∈ collectFiles (ascii "/POWERMON/records/") (ascii ".repair") card,
      ∃ file, isRecordFile file = true ∧ copy = repairPath file := by
    intro copy hcopy
    refine h.around.copies.listed (fun _ => true) ?_
    rwa [List.filter_true]
  refine wp_mono (fun _ hs => hs.1) (fun repaired s hs => ⟨hs.1, fun hok => ?_⟩)
    (wp_and (sound_recoverRepairs hpath h hcopies) (faulty_recoverRepairs _ card hcopies))
  have hgone : ∀ file, isRecordFile file = true → s.lookup (repairPath file) = none := by
    intro file hfile
    refine hs.2.2 hok file hfile ?_
    cases hcopy : card.lookup (repairPath file) with
    | none => exact Or.inr rfl
    | some kept =>
      refine Or.inl ?_
      simp only [isRecordFile, Bool.and_eq_true, List.isPrefixOf_iff_prefix] at hfile
      simp only [collectFiles, List.mem_filter, Bool.and_eq_true, List.isSuffixOf_iff_suffix,
        List.isPrefixOf_iff_prefix]
      refine ⟨AList.mem_keys.mp (AList.lookup_isSome.mp (by rw [hcopy]; rfl)), ?_, repair_suffix file⟩
      exact hfile.1.trans (List.prefix_append _ _)
  refine ⟨⟨?_, hgone path hpath⟩, fun p hp => ?_⟩
  · have hfile := hs.1.file
    unfold Recoverable at hfile
    rw [hgone path hpath, Option.or_none] at hfile
    exact hfile
  · by_contra hpresent
    obtain ⟨file, hfile, rfl⟩ := hs.1.around.copies p hpresent hp
    exact hpresent (hgone file hfile)

/-- **A mount at which nothing fails** repairs the file. -/
theorem trimmed_mount (hgood : GoodLines j content) (hpath : isRecordFile path = true) (h : Sound j content path card)
    (required : ℕ) :
    wp device Calm (fun _ => True) (remountPreferred j fingerprint required ram)
      (fun result s => result.2 = true →
        (Trimmed content path s ∧ NoCopies s) ∧ Reported j content result.1) card := by
  unfold remountPreferred
  refine wp_bind'.mpr (calm_listFiles trivial (wp_bind'.mpr ?_))
  refine wp_mono (fun _ _ => trivial) ?_ (uncopied_recoverRepairs hpath h)
  rintro repaired s1 ⟨hsound, hrepaired⟩
  rw [wp_ite]
  split
  · exact (wp_pure ..).mpr fun hok => (by cases hok)
  · next hdone =>
    obtain ⟨huncopied, hnone⟩ := hrepaired (by simpa using hdone)
    refine wp_bind'.mpr (wp_post (trimmed_recover hgood hpath hsound.numbered hsound.around huncopied hnone) ?_)
    rintro ⟨recovered, ok⟩ s2 ⟨htrimmed, hreported⟩
    rw [wp_ite]
    split
    · exact (wp_pure ..).mpr fun hok => (by cases hok)
    · next hok =>
      obtain ⟨hagrees, hcounted⟩ := hreported (by simpa using hok)
      simp only
      rw [wp_ite]
      split
      · exact (wp_pure ..).mpr fun _ => ⟨htrimmed, hcounted.floor, hcounted.range⟩
      · have hraised : (advanceSequenceFloor j fingerprint required {} { recovered with
            health := { recovered.health with
              writable := true
              sequenceReconciliationInProgress := true } }).Returns fun result => Reported j content result.1 :=
          reported_advance ⟨hagrees.next, hagrees.floor, hagrees.newest⟩ ⟨hcounted.floor, hcounted.range⟩
        refine wp_bind'.mpr (wp_mono (fun _ _ => trivial) (fun result s hs => ?_)
          (wp_and (hraised.wp s2) (wp_sameExcept (all_advance _) s2)))
        refine (wp_pure ..).mpr fun _ => ⟨⟨?_, htrimmed.2.journals hs.2⟩, hs.1.floor, hs.1.range⟩
        exact htrimmed.1.congr hs.2 (record_notMem_journalPaths hpath) (repair_notMem_journalPaths path)

/-- **A torn end is repaired**: after any recoveries and mounts that failed or lost the power anywhere, a mount at
which nothing fails leaves exactly the complete lines and no copy, and counts the readings. -/
theorem repaired_at_mount (hpath : isRecordFile path = true) (hgood : GoodLines j content)
    (hfile : card.lookup path = some content) (haround : Around j content path card) (hnumbered : Numbered j card)
    {interrupted mounted : Card} (hrun : ReflTransGen (Attempt j fingerprint) card interrupted) {ram' : Ram}
    {required : ℕ} {events rest : List Event} (hcalm : ∀ e ∈ events, e = .done ∨ ∃ bytes, e = .free bytes)
    (hmount : run device (remountPreferred j fingerprint required ram) events interrupted =
      (mounted, some ((ram', true), rest))) :
    mounted.lookup path = some (complete content) ∧ NoCopies mounted ∧ Reported j content ram' := by
  have hsound : Sound j content path interrupted :=
    sound_run hgood hpath ⟨recoverable_of_file hfile, haround, hnumbered⟩ hrun
  have hspec : wp device Calm (fun _ => True) (remountPreferred j fingerprint required ram) (fun result s =>
      result.2 = true → (Trimmed content path s ∧ NoCopies s) ∧ Reported j content result.1) interrupted :=
    trimmed_mount hgood hpath hsound required
  have hend := wp_run hspec (along_of_forall _ interrupted fun e he _ _ => hcalm e he)
  obtain ⟨⟨htrimmed, hcopies⟩, hreported⟩ := hend.of_result (congrArg Prod.snd hmount) rfl
  rw [hmount] at htrimmed hcopies
  exact ⟨htrimmed.file, hcopies, hreported⟩

/-! ### A file that is cut in two -/

/-- A day with a reading and the first bytes of another. -/
def tornDay : Card :=
  AList.insert (recordPath (minuteReading 2 1700089200000))
    (recordEnvelope textJson (minuteReading 2 1700089200000) ++ ascii "PMR1") ∅

/-- The power is lost when the file is removed and its copy has not taken its place. -/
def interruptedDay : Card := (run device (remountPreferred textJson [] 0 {}) (List.replicate 10 .done) tornDay).1

/-- A mount that loses the power at its eleventh operation. -/
def mountCut (s : Card) : Card := (run device (remountPreferred textJson [] 0 {}) (List.replicate 10 .done) s).1

theorem attempt_mountCut (s : Card) : Attempt textJson [] s (mountCut s) := .mount {} 0 (List.replicate 10 .done)

theorem interruptedDay_mounts : isRecordFile (recordPath (minuteReading 2 1700089200000)) = true ∧
    (recordEnvelope textJson (minuteReading 2 1700089200000)).length ≤ 8193 ∧
    interruptedDay.lookup (recordPath (minuteReading 2 1700089200000)) = none ∧
    (run device (remountPreferred textJson [] 0 {}) (List.replicate 40 .done) interruptedDay).2.map
      (fun result => result.1.2) = some true := by
  decide +kernel

theorem tornDay_repaired : interruptedDay.lookup (recordPath (minuteReading 2 1700089200000)) = none ∧
    ∃ mounted ram' rest, run device (remountPreferred textJson [] 0 {}) (List.replicate 40 .done) interruptedDay =
        (mounted, some ((ram', true), rest)) ∧
      mounted.lookup (recordPath (minuteReading 2 1700089200000)) =
        some (complete (recordEnvelope textJson (minuteReading 2 1700089200000) ++ ascii "PMR1")) ∧
      NoCopies mounted ∧
      Reported textJson (recordEnvelope textJson (minuteReading 2 1700089200000) ++ ascii "PMR1") ram' := by
  generalize hpath : recordPath (minuteReading 2 1700089200000) = path
  obtain ⟨hrecord, hlength, hmissing, hdone⟩ := interruptedDay_mounts
  rw [hpath] at hrecord hmissing
  have hdecode := decodeLine_recordEnvelope textJson_lawful (minuteReading 2 1700089200000)
  obtain ⟨init, hinit, hnewline⟩ := recordEnvelope_line textJson_lawful (minuteReading 2 1700089200000)
  have hlines : lines (recordEnvelope textJson (minuteReading 2 1700089200000) ++ ascii "PMR1") =
      [recordEnvelope textJson (minuteReading 2 1700089200000)] := by
    rw [hinit, List.append_assoc, List.singleton_append, (lines_line hnewline _).1]
    rfl
  have hgood : GoodLines textJson (recordEnvelope textJson (minuteReading 2 1700089200000) ++ ascii "PMR1") := by
    intro line hline
    rw [hlines, List.mem_singleton] at hline
    subst hline
    exact ⟨hlength, _, hdecode⟩
  have hlookup : ∀ p, p ≠ path → tornDay.lookup p = none := by
    intro p hp
    rw [tornDay, hpath, AList.lookup_insert_ne hp, AList.lookup_empty]
  have hfile : tornDay.lookup path = some (recordEnvelope textJson (minuteReading 2 1700089200000) ++ ascii "PMR1") := by
    rw [tornDay, hpath, AList.lookup_insert]
  have hnone : tornDay.lookup (metadataPath path) = none := hlookup _ (metadata_ne hrecord).1
  have haround : Around textJson (recordEnvelope textJson (minuteReading 2 1700089200000) ++ ascii "PMR1") path
      tornDay := by
    refine ⟨fun p hp hsuffix => ?_, hnone ▸ honest_none, hnone ▸ honest_none⟩
    by_cases heq : p = path
    · subst heq
      simp only [isRecordFile, Bool.and_eq_true, List.isSuffixOf_iff_suffix] at hrecord
      exact absurd rfl (ne_of_suffix hsuffix hrecord.2 (by decide) (by decide) (by decide))
    · exact absurd (hlookup p heq) hp
  have hnumbered : Numbered textJson tornDay := by
    intro p hp hmem
    by_cases heq : p = path
    · subst heq
      rw [standing_of_present hfile, mem_lineSequences] at hmem
      obtain ⟨line, hline, e, he, hzero⟩ := hmem
      rw [hlines, List.mem_singleton] at hline
      rw [hline, hdecode, Except.ok.injEq] at he
      rw [← he] at hzero
      exact absurd hzero (by decide)
    · have hempty : standing tornDay p = [] := by
        simp [standing, hlookup p heq, hlookup _ (repair_ne_record hrecord).symm]
      rw [hempty, lineSequences, lines_nil] at hmem
      cases hmem
  obtain ⟨⟨⟨ram', ok⟩, rest⟩, hanswer, hok⟩ := Option.map_eq_some_iff.mp hdone
  simp only at hok
  subst hok
  have hinterrupted : ReflTransGen (Attempt textJson []) tornDay interruptedDay := .single (attempt_mountCut tornDay)
  generalize interruptedDay = interrupted at hanswer hmissing hinterrupted ⊢
  generalize hout : run device (remountPreferred textJson [] 0 {}) (List.replicate 40 .done) interrupted = out at hanswer
  obtain ⟨mounted, answer⟩ := out
  subst hanswer
  refine ⟨hmissing, mounted, ram', rest, rfl, ?_⟩
  exact repaired_at_mount hrecord hgood hfile haround hnumbered hinterrupted
    (fun e he => Or.inl (List.eq_of_mem_replicate he)) hout

end PowerMonitor.Storage.TornTail
