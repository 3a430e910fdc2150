import PowerMonitor.Storage.Faults

/-! # A recovery whatever fails

A recovery counts the sequences of the lines before the first that does not decode (`countedSequences`)
in each file that its listing shows and that it can read, and reads the journals. Wherever the power is
lost, it has only cut off the ends of files (`faulty_recover`). A mount first moves the copies of files
that are missing to their places (`faulty_recoverRepairs`). -/

namespace PowerMonitor.Storage.FaultyRecovery

open PowerMonitor.Lib.Binary PowerMonitor.Lib.Lines PowerMonitor.Lib.Json PowerMonitor.Lib.Program
open PowerMonitor.Storage.Reading PowerMonitor.Storage.Media PowerMonitor.Storage.Segment
open PowerMonitor.Storage.ReadPage PowerMonitor.Storage.SdStorage PowerMonitor.Storage.Frames
open PowerMonitor.Storage.Intact PowerMonitor.Storage.Recovery PowerMonitor.Storage.Layout
open PowerMonitor.Storage.CalmOperations PowerMonitor.Storage.Standing PowerMonitor.Storage.Faults

variable {j : JsonLibrary} {A : Op → Event → Card → Prop} {card : Card} {path content : Bytes} {ram : Ram}

/-! ### Lines -/

/-- The sequences of the lines before the first that is too long or does not decode. -/
def countedSequences (j : JsonLibrary) (content : Bytes) : List ℕ :=
  ((lines content).takeWhile fun line =>
    decide (line.length ≤ 8193) && (decodeLine j .readings line).toOption.isSome).flatMap (lineSequence j)

/-- **The lines before the first bad one are counted.** -/
theorem recoverLines_counts (rest : Bytes) (ls : List Bytes) (validEnd : ℕ) (t : Tally) :
    t.maximumSequence ≤ (recoverLines j rest ls validEnd t).1.maximumSequence ∧
      (t.maximumSequence < 2 ^ 64 → (recoverLines j rest ls validEnd t).1.maximumSequence < 2 ^ 64) ∧
      ∀ n ∈ (ls.takeWhile fun line => decide (line.length ≤ 8193) &&
          (decodeLine j .readings line).toOption.isSome).flatMap (lineSequence j),
        n ≤ (recoverLines j rest ls validEnd t).1.maximumSequence := by
  induction ls generalizing validEnd t with
  | nil => exact ⟨Nat.le_refl _, id, by simp⟩
  | cons line ls ih =>
    unfold recoverLines
    split
    · next hlong =>
      have hnot : ¬ line.length ≤ 8193 := by omega
      exact ⟨Nat.le_refl _, id, by simp [hnot]⟩
    · next hlong =>
      have hlength : line.length ≤ 8193 := by omega
      cases hdecode : decodeLine j .readings line with
      | error e => exact ⟨Nat.le_refl _, id, by simp [hdecode, Except.toOption]⟩
      | ok e =>
        obtain ⟨hmono, hrange, hcounted⟩ := ih (validEnd + line.length) (t.addRecord e)
        have hsequence := decodeLine_sequence_lt hdecode
        have hmax : (t.addRecord e).maximumSequence = max t.maximumSequence e.sequence := rfl
        rw [hmax] at hmono hrange
        simp only
        refine ⟨by omega, fun ht => hrange (by omega), fun n hn => ?_⟩
        rw [List.takeWhile_cons_of_pos (by simp [hlength, hdecode, Except.toOption]), List.flatMap_cons,
          List.mem_append] at hn
        rcases hn with hn | hn
        · simp only [lineSequence, hdecode, Except.toOption, Option.map_some, Option.toList_some,
            List.mem_singleton] at hn
          omega
        · exact hcounted n hn

/-! ### Files -/

/-- Reading the file never fails. -/
def Reads (A : Op → Event → Card → Prop) (path : Bytes) : Prop := ∀ s, ¬ A (.read path) .failed s

/-- What the recovery of a file leaves: a first part of what stood, and the largest sequence it counted. -/
structure FileRecovered (card s : Card) (t t' : Tally) : Prop where
  shrinks : Shrinks card s
  mono : t.maximumSequence ≤ t'.maximumSequence
  range : t.maximumSequence < 2 ^ 64 → t'.maximumSequence < 2 ^ 64

theorem faulty_recoverFile (hpath : isRecordFile path = true) (t : Tally) :
    wp device A (Shrinks card) (recoverFile j path t)
      (fun t' s => FileRecovered card s t t' ∧ (Reads A path →
        ∀ n ∈ countedSequences j ((card.lookup path).getD []), n ≤ t'.maximumSequence)) card := by
  have hnone : FileRecovered card card t t := ⟨Shrinks.refl card, Nat.le_refl _, id⟩
  unfold recoverFile
  refine wp_bind'.mpr (wp_readFile (Shrinks.refl card) ?_ fun hfail => ?_)
  · cases hfile : card.lookup path with
    | none => exact (wp_pure ..).mpr ⟨hnone, fun _ n hn => by simp [countedSequences, lines_nil] at hn⟩
    | some content =>
      obtain ⟨hmono, hrange, hcounted⟩ :=
        recoverLines_counts (j := j) (unterminated content) (lines content) 0 t
      simp only
      generalize recoverLines j (unterminated content) (lines content) 0 t = result at hmono hrange hcounted
      obtain ⟨t', ending⟩ := result
      have hpost : ∀ s, Shrinks card s → FileRecovered card s t t' ∧ (Reads A path →
          ∀ n ∈ countedSequences j content, n ≤ t'.maximumSequence) :=
        fun s hs => ⟨⟨hs, hmono, hrange⟩, fun _ => hcounted⟩
      cases ending with
      | complete => exact (wp_pure ..).mpr (hpost card (Shrinks.refl card))
      | corrupt => exact (wp_pure ..).mpr (hpost card (Shrinks.refl card))
      | torn stop =>
        refine wp_bind'.mpr (wp_post (faulty_repairFile hpath hfile stop) fun _ s hs => ?_)
        exact (wp_pure ..).mpr (hpost s hs)
  · exact (wp_pure ..).mpr ⟨hnone, fun hreads => absurd hfail (hreads card)⟩

/-- There are no sidecars, so the file is read. -/
theorem faulty_recoverSegment (htidy : Tidy card) (hpath : isRecordFile path = true) (t : Tally) :
    wp device A (Shrinks card) (recoverSegment j t path)
      (fun t' s => FileRecovered card s t t' ∧ (Reads A path →
        ∀ n ∈ countedSequences j ((card.lookup path).getD []), n ≤ t'.maximumSequence)) card := by
  have hfile := @faulty_recoverFile j A card path hpath t
  have hread : ∀ (p : Bytes) (f : Option Bytes → CardProg Tally) (Q : Tally → Card → Prop),
      (∀ content, (content = card.lookup p ∨ content = none) → wp device A (Shrinks card) (f content) Q card) →
      wp device A (Shrinks card) (readFile p >>= f) Q card := fun p f Q h =>
    wp_bind'.mpr (wp_readFile (Shrinks.refl card) (h _ (Or.inl rfl)) fun _ => h _ (Or.inr rfl))
  unfold recoverSegment
  refine hread _ _ _ fun sidecar hsidecar => hread _ _ _ fun record _ => hread _ _ _ fun index _ => ?_
  have hnone : sidecar = none := by
    rw [htidy.sidecar path] at hsidecar
    exact hsidecar.elim id id
  subst hnone
  exact hfile

theorem known_recoverSegment (hpath : isRecordFile path = true) (t : Tally) :
    (recoverSegment j t path).All KnownOp := by
  refine (all_recoverSegment (j := j) t path).mono fun o ho => ?_
  have hknown : ∀ p ∈ [path, repairPath path], Known p := by
    intro p hp
    simp only [List.mem_cons, List.not_mem_nil, or_false] at hp
    rcases hp with rfl | rfl
    · exact Or.inr (Or.inr (Or.inl hpath))
    · exact Or.inr (Or.inr (Or.inr (Or.inr ⟨path, hpath, rfl⟩)))
  cases o with
  | append p content => exact hknown p ho
  | write p content => exact hknown p ho
  | rename source target => exact hknown target ho.2
  | _ => trivial

theorem all_recoverSegments (paths : List Bytes) (t : Tally) :
    (recoverSegments j paths t).All (Op.Within (repaired paths)) := by
  have hwithin : ∀ {ps qs : List Bytes}, (∀ p ∈ ps, p ∈ qs) → ∀ o : Op, o.Within ps → o.Within qs := by
    intro ps qs hsub o ho
    cases o with
    | rename source target => exact ⟨hsub _ ho.1, hsub _ ho.2⟩
    | append | write | remove => exact hsub _ ho
    | _ => trivial
  induction paths generalizing t with
  | nil => trivial
  | cons path paths ih =>
    unfold recoverSegments
    refine .bind ((all_recoverSegment t path).mono (hwithin fun p hp => ?_))
      fun t' => (ih t').mono (hwithin fun p hp => ?_)
    · simp only [List.mem_cons, List.not_mem_nil, or_false] at hp
      rcases hp with rfl | rfl <;> simp [repaired]
    · simp only [repaired, List.mem_append, List.map_cons, List.mem_cons] at hp ⊢
      exact hp.imp Or.inr Or.inr

theorem known_recoverSegments {paths : List Bytes} (h : ∀ p ∈ paths, isRecordFile p = true) (t : Tally) :
    (recoverSegments j paths t).All KnownOp := by
  induction paths generalizing t with
  | nil => trivial
  | cons path paths ih =>
    rw [List.forall_mem_cons] at h
    unfold recoverSegments
    exact .bind (known_recoverSegment h.1 t) fun t' => ih h.2 t'

/-- **The files are recovered one after the other**; each is read as it was at the start. -/
theorem faulty_recoverSegments (paths : List Bytes) : ∀ (t : Tally) (card : Card), Tidy card →
    (∀ p ∈ paths, isRecordFile p = true) → paths.Nodup →
    wp device A (Shrinks card) (recoverSegments j paths t)
      (fun t' s => FileRecovered card s t t' ∧ ∀ p ∈ paths, Reads A p →
        ∀ n ∈ countedSequences j ((card.lookup p).getD []), n ≤ t'.maximumSequence) card := by
  induction paths with
  | nil =>
    intro t card _ _ _
    exact (wp_pure ..).mpr ⟨⟨Shrinks.refl card, Nat.le_refl _, id⟩, by simp⟩
  | cons path paths ih =>
    intro t card htidy hrecord hnodup
    rw [List.nodup_cons] at hnodup
    rw [List.forall_mem_cons] at hrecord
    unfold recoverSegments
    refine wp_bind'.mpr (wp_mono (fun _ h => h.1) ?_ (wp_and (faulty_recoverSegment htidy hrecord.1 t)
      (wp_and (wp_sameExcept (all_recoverSegment (j := j) t path) card)
        (wp_tidy (known_recoverSegment hrecord.1 t) htidy))))
    rintro t1 card1 ⟨⟨hfirst, hcounted⟩, hsame, htidy1⟩
    refine wp_mono (fun s hs => hfirst.shrinks.trans hs) ?_ (ih t1 card1 htidy1 hrecord.2 hnodup.2)
    rintro t' s ⟨hrest, hcounted'⟩
    refine ⟨⟨hfirst.shrinks.trans hrest.shrinks, hfirst.mono.trans hrest.mono,
      fun h => hrest.range (hfirst.range h)⟩, ?_⟩
    rw [List.forall_mem_cons]
    refine ⟨fun hreads n hn => (hcounted hreads n hn).trans hrest.mono, fun p hp hreads n hn => ?_⟩
    refine hcounted' p hp hreads n ?_
    have hp' : p ∉ [path, repairPath path] := by
      simp only [List.mem_cons, List.not_mem_nil, or_false, not_or]
      refine ⟨?_, repair_ne_record (hrecord.2 p hp)⟩
      rintro rfl
      exact hnodup.1 hp
    rwa [hsame p hp']

/-! ### The floor -/

theorem wp_loadSequenceJournal {C : Card → Prop} {Q : Option ℕ → Card → Prop} (hC : C card)
    (h : Q ((card.lookup path).bind parseJournal) card) (hfail : A (.read path) .failed card → Q none card) :
    wp device A C (loadSequenceJournal path) Q card :=
  wp_bind'.mpr (wp_readFile hC ((wp_pure ..).mpr h) fun hf => (wp_pure ..).mpr (hfail hf))

/-- What a recovery of the floor leaves. -/
structure FloorRecovered (ram : Ram) (count floor : ℕ) (result : Ram × Bool) : Prop where
  writable : result.1.health.writable = ram.health.writable
  refused : result.2 = false → result.1.nextSequence = ram.nextSequence
  above : result.2 = true → count < result.1.nextSequence ∧ floor < result.1.nextSequence
  range : count < 2 ^ 64 → ram.nextSequence < 2 ^ 64 → result.1.nextSequence < 2 ^ 64

/-- **The next sequence is above what was counted**, and above the journals if they are read. -/
theorem faulty_recoverFloor (t : Tally) (ram : Ram) :
    wp device A (SameExcept journalPaths card) (recoverFloor t ram)
      (fun result s => SameExcept journalPaths card s ∧ ∃ floor,
        FloorRecovered ram t.maximumSequence floor result ∧
        ((∀ p ∈ journalPaths, Reads A p) → floor = journalFloor card)) card := by
  have hrefl := SameExcept.refl journalPaths card
  -- what is read of a journal: its number, unless the read fails
  have hload : ∀ (p : Bytes) (f : Option ℕ → CardProg (Ram × Bool)) (Q : Ram × Bool → Card → Prop),
      (∀ value, (Reads A p → value = (card.lookup p).bind parseJournal) → value.getD 0 < 2 ^ 64 →
        wp device A (SameExcept journalPaths card) (f value) Q card) →
      wp device A (SameExcept journalPaths card) (loadSequenceJournal p >>= f) Q card := by
    intro p f Q h
    refine wp_bind'.mpr (wp_loadSequenceJournal hrefl (h _ (fun _ => rfl) ?_) fun hfail => ?_)
    · cases hvalue : (card.lookup p).bind parseJournal with
      | none => simp
      | some n =>
        obtain ⟨content, -, hn⟩ := Option.bind_eq_some_iff.mp hvalue
        exact parseJournal_lt hn
    · exact h none (fun hreads => absurd hfail (hreads card)) (by simp)
  unfold recoverFloor
  refine hload _ _ _ fun journal hjournal h1 => hload _ _ _ fun temporary htemporary h2 =>
    hload _ _ _ fun backup hbackup h3 => ?_
  generalize hfloor : max (journal.getD 0) (max (temporary.getD 0) (backup.getD 0)) = floor
  have hrange : floor < 2 ^ 64 := by omega
  have htrusted : (∀ p ∈ journalPaths, Reads A p) → floor = journalFloor card := by
    intro hreads
    rw [← hfloor, hjournal (hreads _ mem_journalPaths.1), htemporary (hreads _ mem_journalPaths.2.1),
      hbackup (hreads _ mem_journalPaths.2.2)]
    rfl
  refine wp_bind'.mpr (wp_post (wp_sameExcept (all_runIf (all_persistSequence _)) card) ?_)
  intro persisted s hsame
  rw [wp_ite]
  split
  · exact (wp_pure ..).mpr ⟨hsame, floor, ⟨rfl, fun _ => rfl, by simp, fun _ h => h⟩, htrusted⟩
  · simp only
    rw [wp_ite]
    split
    · exact (wp_pure ..).mpr ⟨hsame, floor, ⟨rfl, fun _ => rfl, by simp, fun _ h => h⟩, htrusted⟩
    · next hlast =>
      refine (wp_pure ..).mpr ⟨hsame, floor, ⟨rfl, by simp, fun _ => ?_, fun hcount _ => ?_⟩, htrusted⟩
      · constructor <;> simp only <;> omega
      · simp only
        omega

theorem journalFloor_congr {s : Card} (h : ∀ p ∈ journalPaths, s.lookup p = card.lookup p) :
    journalFloor s = journalFloor card := by
  unfold journalFloor
  rw [h _ mem_journalPaths.1, h _ mem_journalPaths.2.1, h _ mem_journalPaths.2.2]

theorem known_of_journals {o : Op} (h : o.Within journalPaths) : KnownOp o := by
  cases o with
  | append p content => exact Or.inr (Or.inl h)
  | write p content => exact Or.inr (Or.inl h)
  | rename source target => exact Or.inr (Or.inl h.2)
  | _ => trivial

theorem known_recoverFloor (t : Tally) (ram : Ram) : (recoverFloor t ram).All KnownOp := by
  have hload : ∀ p, (loadSequenceJournal p).All KnownOp := fun p =>
    .bind ((Prog.all_op _).mpr trivial) fun _ => trivial
  unfold recoverFloor
  refine .bind (hload _) fun journal => .bind (hload _) fun temporary => .bind (hload _) fun backup => ?_
  refine .bind ((all_runIf (all_persistSequence _)).mono fun _ => known_of_journals) fun persisted => ?_
  exact all_ite trivial (all_ite trivial trivial)

/-! ### A recovery -/

/-- The events that do not keep a recovery from the files `seen`, nor from the journals if it needs them. -/
def Attends (seen : Set Bytes) (trusted : Prop) : Op → Event → Card → Prop
  | .read path, e, _ => path ∈ seen ∨ (trusted ∧ path ∈ journalPaths) → e ≠ .failed
  | .list _ _, e, _ => ∀ path ∈ seen, Lists e path ∧ Lists e (repairPath path)
  | _, _, _ => True

/-- **Every sequence that stands is counted in a file that is seen, or is in the journals**, where
`content` is what is read of a file. -/
def Covered (j : JsonLibrary) (card : Card) (content : Bytes → Bytes) (seen : Set Bytes) (trusted : Prop) :
    Prop :=
  ∀ path, isRecordFile path = true → ∀ n ∈ lineSequences j (standing card path),
    (path ∈ seen ∧ n ∈ countedSequences j (content path)) ∨ (trusted ∧ n ≤ journalFloor card)

variable {seen : Set Bytes} {trusted : Prop}

/-- What a recovery leaves. -/
structure Recovered (j : JsonLibrary) (ram : Ram) (card s : Card) (result : Ram × Bool) : Prop where
  shrinks : Shrinks card s
  writable : result.1.health.writable = ram.health.writable
  refused : result.2 = false → result.1.nextSequence = ram.nextSequence
  above : result.2 = true → ∀ n ∈ standingSequences j s, n < result.1.nextSequence
  range : ram.nextSequence < 2 ^ 64 → result.1.nextSequence < 2 ^ 64

/-- A recovery makes no unknown file. -/
theorem tidy_recover (htidy : Tidy card) : wp device A Tidy (recover j ram) (fun _ => Tidy) card := by
  unfold recover
  refine wp_bind'.mpr (wp_listFiles htidy fun keep _ => wp_bind'.mpr ?_)
  refine wp_post (wp_tidy (known_recoverSegments (fun p hp => ?_) _) htidy) fun t s hs => ?_
  · rw [List.mem_insertionSort, List.mem_filter] at hp
    exact isRecordFile_of_mem ((List.mem_insertionSort _).mpr hp.1)
  · exact wp_tidy (known_recoverFloor _ _) hs

/-- **A recovery that sees every sequence that stands** leaves the next sequence above them. -/
theorem faulty_recover (htidy : Tidy card)
    (hcovered : Covered j card (fun path => (card.lookup path).getD []) seen trusted) :
    wp device (Attends seen trusted) (Shrinks card) (recover j ram)
      (fun result s => Recovered j ram card s result) card := by
  unfold recover
  refine wp_bind'.mpr (wp_listFiles (Shrinks.refl card) fun keep hkeep => wp_bind'.mpr ?_)
  generalize hpaths : List.insertionSort (fun a b => decide (a ≤ b)) (List.filter keep
    (collectFiles (ascii "/POWERMON/records/") (ascii ".pmr") card)) = paths
  have hmem : ∀ p, p ∈ paths ↔ keep p = true ∧ p ∈ recordFiles card := by
    intro p
    rw [← hpaths, List.mem_insertionSort, List.mem_filter, recordFiles, List.mem_insertionSort, and_comm]
  have hrecord : ∀ p ∈ paths, isRecordFile p = true := fun p hp => isRecordFile_of_mem ((hmem p).mp hp).2
  have hnodup : paths.Nodup := by
    rw [← hpaths, (List.perm_insertionSort _ _).nodup_iff]
    exact ((AList.keys_nodup card).filter _).filter _
  refine wp_mono (fun _ h => h.1) ?_ (wp_and (faulty_recoverSegments paths {} card htidy hrecord hnodup)
    (wp_sameExcept (all_recoverSegments (j := j) paths {}) card))
  rintro t card1 ⟨⟨hfiles, hcounted⟩, hsame1⟩
  have hjournals : journalFloor card1 = journalFloor card := by
    refine journalFloor_congr fun p hp => hsame1 p fun hp' => ?_
    rcases List.mem_append.mp hp' with h | h
    · exact record_notMem_journalPaths (hrecord p h) hp
    · obtain ⟨other, -, rfl⟩ := List.mem_map.mp h
      exact repair_notMem_journalPaths other hp
  have hshrinks : ∀ s, SameExcept journalPaths card1 s → Shrinks card s := fun s hs =>
    hfiles.shrinks.trans (.of_eq (standing_journals hs))
  refine wp_mono hshrinks ?_ (faulty_recoverFloor t (Ram.tallied ram t))
  rintro result s ⟨hsame, floor, hfloor, htrusted⟩
  refine ⟨hshrinks s hsame, hfloor.writable, hfloor.refused, fun hok n hn => ?_,
    fun hnext => hfloor.range (hfiles.range (by decide)) hnext⟩
  obtain ⟨h1, h2⟩ := hfloor.above hok
  obtain ⟨path, hpath, hn⟩ := (hshrinks s hsame).subset hn
  rcases hcovered path hpath n hn with ⟨hseen, hn⟩ | ⟨htrust, hn⟩
  · -- the file is there, listed and read
    have hlisted : path ∈ paths := by
      rw [hmem, mem_recordFiles]
      refine ⟨hkeep path fun e he => (he path hseen).1, ?_, hpath⟩
      cases hfile : card.lookup path with
      | none => simp [hfile, countedSequences, lines_nil] at hn
      | some content => exact ⟨content, rfl⟩
    have := hcounted path hlisted (fun _ hfailed => hfailed (Or.inl hseen) rfl) n hn
    omega
  · have := htrusted fun p hp _ hfailed => hfailed (Or.inr ⟨htrust, hp⟩) rfl
    omega

/-! ### Copies -/

/-- The same files of readings stand. -/
def SameStanding (card s : Card) : Prop := ∀ path, isRecordFile path = true → standing s path = standing card path

/-- **A copy takes the place of a missing file, or is removed**; what stands does not change. -/
theorem faulty_recoverRepair {file : Bytes} (hfile : isRecordFile file = true) :
    wp device A (SameStanding card) (recoverRepair (repairPath file))
      (fun done s => SameStanding card s ∧ SameExcept [file, repairPath file] card s ∧
        (done = true → s.lookup (repairPath file) = none)) card := by
  have hrefl : SameStanding card card := fun _ _ => rfl
  have hne := repair_ne_self file
  have htarget : (repairPath file).take ((repairPath file).length - 7) = file := by
    simp [repairPath, show (ascii ".repair").length = 7 by decide]
  have hrename : wp device A (SameStanding card) (renameFile (repairPath file) file)
      (fun done s => SameStanding card s ∧ SameExcept [file, repairPath file] card s ∧
        (done = true → s.lookup (repairPath file) = none)) card := by
    refine wp_renameFile hrefl ⟨hrefl, SameExcept.refl _ _, by simp⟩ fun content hsource hmissing => ?_
    have hsame : SameExcept [file, repairPath file] card ((card.erase (repairPath file)).insert file content) := by
      intro p hp
      simp only [List.mem_cons, List.not_mem_nil, or_false, not_or] at hp
      rw [AList.lookup_insert_ne hp.1, AList.lookup_erase_ne hp.2]
    refine ⟨fun path hpath => ?_, hsame, fun _ => ?_⟩
    · by_cases heq : path = file
      · subst heq
        rw [standing_of_present (AList.lookup_insert _)]
        simp [standing, hmissing, hsource]
      · refine standing_congr (hsame _ ?_) (hsame _ ?_)
        · simp [heq, repair_ne_record hpath]
        · simp only [List.mem_cons, List.not_mem_nil, or_false, not_or]
          exact ⟨(repair_ne_record hfile).symm, fun h => heq (repairPath_injective h)⟩
    · rw [AList.lookup_insert_ne hne, AList.lookup_erase]
  unfold recoverRepair
  simp only [htarget]
  refine wp_bind'.mpr (wp_fileExists hrefl ?_ fun _ => ?_)
  · rw [wp_ite]
    split
    · next hpresent =>
      obtain ⟨content, hcontent⟩ := Option.isSome_iff_exists.mp hpresent
      refine wp_removeFile hrefl ⟨hrefl, SameExcept.refl _ _, by simp⟩ fun _ => ?_
      have hsame : SameExcept [repairPath file] card (card.erase (repairPath file)) :=
        fun p hp => AList.lookup_erase_ne (by simpa using hp)
      exact ⟨standing_repair hfile hcontent hsame, hsame.mono (by simp), fun _ => AList.lookup_erase ..⟩
    · exact hrename
  · rw [wp_ite, if_neg (by simp)]
    exact hrename

theorem known_recoverRepair {file : Bytes} (hfile : isRecordFile file = true) :
    (recoverRepair (repairPath file)).All KnownOp := by
  have htarget : (repairPath file).take ((repairPath file).length - 7) = file := by
    simp [repairPath, show (ascii ".repair").length = 7 by decide]
  unfold recoverRepair
  simp only [htarget]
  refine .bind ((Prog.all_op _).mpr trivial) fun present => all_ite ((Prog.all_op _).mpr trivial) ?_
  exact (Prog.all_op _).mpr (Or.inr (Or.inr (Or.inl hfile)))

theorem known_recoverRepairs {copies : List Bytes}
    (h : ∀ copy ∈ copies, ∃ file, isRecordFile file = true ∧ copy = repairPath file) :
    (recoverRepairs copies).All KnownOp := by
  induction copies with
  | nil => trivial
  | cons copy copies ih =>
    rw [List.forall_mem_cons] at h
    obtain ⟨⟨file, hfile, rfl⟩, hrest⟩ := h
    unfold recoverRepairs
    exact .bind (known_recoverRepair hfile) fun _ => .bind (ih hrest) fun _ => trivial

/-- What the recovery of copies leaves. -/
structure CopiesRecovered (card s : Card) : Prop where
  standing : SameStanding card s
  journals : ∀ p ∈ journalPaths, s.lookup p = card.lookup p

/-- **If all goes well, no copy that was listed is left.** -/
theorem faulty_recoverRepairs (copies : List Bytes) : ∀ (card : Card),
    (∀ copy ∈ copies, ∃ file, isRecordFile file = true ∧ copy = repairPath file) →
    wp device A (SameStanding card) (recoverRepairs copies)
      (fun ok s => CopiesRecovered card s ∧ (ok = true → ∀ path, isRecordFile path = true →
        (repairPath path ∈ copies ∨ card.lookup (repairPath path) = none) →
        s.lookup (repairPath path) = none)) card := by
  induction copies with
  | nil =>
    intro card _
    exact (wp_pure ..).mpr ⟨⟨fun _ _ => rfl, fun _ _ => rfl⟩, fun _ path _ h => h.resolve_left (by simp)⟩
  | cons copy copies ih =>
    intro card hcopies
    rw [List.forall_mem_cons] at hcopies
    obtain ⟨⟨file, hfile, rfl⟩, hrest⟩ := hcopies
    unfold recoverRepairs
    refine wp_bind'.mpr (wp_post (faulty_recoverRepair hfile) ?_)
    rintro done card1 ⟨hstanding, hsame, hgone⟩
    refine wp_bind'.mpr (wp_mono (fun s hs path hpath => (hs path hpath).trans (hstanding path hpath)) ?_
      (ih card1 hrest))
    rintro others s ⟨hlater, hnone⟩
    refine (wp_pure ..).mpr ⟨⟨fun path hpath => (hlater.standing path hpath).trans (hstanding path hpath),
      fun p hp => ?_⟩, fun hok path hpath h => ?_⟩
    · rw [hlater.journals p hp]
      refine hsame p fun hp' => ?_
      simp only [List.mem_cons, List.not_mem_nil, or_false] at hp'
      rcases hp' with rfl | rfl
      · exact record_notMem_journalPaths hfile hp
      · exact repair_notMem_journalPaths file hp
    · rw [Bool.and_eq_true] at hok
      refine hnone hok.2 path hpath ?_
      by_cases heq : path = file
      · subst heq
        exact Or.inr (hgone hok.1)
      · have hne : repairPath path ∉ [file, repairPath file] := by
          simp only [List.mem_cons, List.not_mem_nil, or_false, not_or]
          exact ⟨(repair_ne_record hfile).symm, fun h => heq (repairPath_injective h)⟩
        rw [hsame _ hne]
        refine h.imp_left fun hmem => ?_
        exact (List.mem_cons.mp hmem).resolve_left fun h => heq (repairPath_injective h)

/-- Once its copy is gone, a file holds what stands. -/
theorem lookup_of_copy_gone {s : Card} (h : s.lookup (repairPath path) = none) :
    (s.lookup path).getD [] = standing s path := by
  simp [standing, h]

end PowerMonitor.Storage.FaultyRecovery
