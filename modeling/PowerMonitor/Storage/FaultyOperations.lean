import PowerMonitor.Storage.FaultyRecovery

/-! # Appending, floors and mounting whatever fails

Persisting a sequence changes only journals (`faulty_reserve`, `faulty_advance`). An append is refused,
or writes a part of its envelope and takes the card out of use, or stores the record (`faulty_append`);
an append that is bound to a card does so only if the journals and the manifest can be used once the
envelope is written (`Finishes`). -/

namespace PowerMonitor.Storage.FaultyOperations

open PowerMonitor.Lib.Binary PowerMonitor.Lib.Lines PowerMonitor.Lib.Json PowerMonitor.Lib.Program
open PowerMonitor.Storage.RecordFormat PowerMonitor.Storage.Reading PowerMonitor.Storage.Media
open PowerMonitor.Storage.Segment PowerMonitor.Storage.ReadPage PowerMonitor.Storage.SdStorage
open PowerMonitor.Storage.Frames PowerMonitor.Storage.Intact PowerMonitor.Storage.Recovery
open PowerMonitor.Storage.Layout PowerMonitor.Storage.CalmOperations PowerMonitor.Storage.Standing
open PowerMonitor.Storage.Faults PowerMonitor.Storage.FaultyRecovery

variable {j : JsonLibrary} {fingerprint : Bytes} {binding : CardBinding}
variable {A : Op → Event → Card → Prop} {C : Card → Prop} {card : Card} {ram : Ram}

/-- An answer that the card is the bound one is right. -/
theorem wp_bindingHolds {Q : Bool → Card → Prop} (hC : C card)
    (h : ∀ ok, (ok = true → boundTo j fingerprint binding card = true) → Q ok card) :
    wp device A C (bindingHolds j fingerprint binding) Q card := by
  unfold bindingHolds currentCardManifestMatchesReset
  rw [wp_ite]
  split
  · next hgeneration => exact (wp_pure ..).mpr (h true fun _ => by simp [boundTo, hgeneration])
  · next hgeneration =>
    have hread : wp device A C (do
        let manifest ← readFile manifestPath
        return manifestMatches j fingerprint binding manifest) Q card := by
      refine wp_bind'.mpr (wp_readFile hC ((wp_pure ..).mpr (h _ fun hmatch => ?_))
        fun _ => (wp_pure ..).mpr (h _ fun hmatch => ?_))
      · cases hmanifest : card.lookup manifestPath with
        | none => simp [hmanifest, manifestMatches] at hmatch
        | some manifest => simpa [boundTo, hgeneration, hmanifest] using hmatch
      · simp [manifestMatches] at hmatch
    refine wp_bind'.mpr (wp_fileExists hC ?_ fun _ => ?_)
    · rw [wp_ite]
      split
      · exact (wp_pure ..).mpr (h false (by simp))
      · exact hread
    · rw [wp_ite, if_pos (by simp)]
      exact (wp_pure ..).mpr (h false (by simp))

/-! ### Floors -/

/-- The counter does not fall, and the card does not become writable. -/
structure Advances (ram ram' : Ram) : Prop where
  next : ram.nextSequence ≤ ram'.nextSequence
  range : ram.nextSequence < 2 ^ 64 → ram'.nextSequence < 2 ^ 64
  writable : ram'.health.writable = true → ram.health.writable = true

theorem Advances.refl (ram : Ram) : Advances ram ram := ⟨Nat.le_refl _, id, id⟩

theorem all_persistBound (n : ℕ) :
    (persistBound j fingerprint binding n).All (Op.Within journalPaths) :=
  .bind (all_bindingHolds journalPaths binding) fun _ =>
    .bind (all_runIf (all_persistSequence n)) fun _ => all_runIf (all_bindingHolds journalPaths binding)

/-- **Reserving sequences** changes journals, and moves the counter forward. -/
theorem faulty_reserve {count : ℕ} :
    wp device A (SameExcept journalPaths card) (reserveUnavailableIntervals j fingerprint count binding ram)
      (fun result s => SameExcept journalPaths card s ∧ Advances ram result.1) card := by
  have hrefl := SameExcept.refl journalPaths card
  have hsame := Advances.refl ram
  unfold reserveUnavailableIntervals
  rw [wp_ite]
  split
  · exact (wp_pure ..).mpr ⟨hrefl, hsame⟩
  · next hcount =>
    rw [wp_ite]
    split
    · exact (wp_pure ..).mpr ⟨hrefl, hsame⟩
    · next hrefused =>
      have hroom : ram.nextSequence + count ≤ 2 ^ 64 - 1 := by
        simp only [Bool.or_eq_true, Bool.not_eq_true', decide_eq_true_eq, not_or, Bool.not_eq_false]
          at hrefused
        omega
      refine wp_bind'.mpr (wp_bindingHolds hrefl fun bound _ => ?_)
      rw [wp_ite]
      split
      · exact (wp_pure ..).mpr ⟨hrefl, hsame⟩
      · refine wp_bind'.mpr (wp_freeBytes hrefl fun free => ?_)
        rw [wp_ite]
        split
        · exact (wp_pure ..).mpr ⟨hrefl, hsame⟩
        · refine wp_bind'.mpr (wp_post (wp_sameExcept (all_persistBound _) card) fun persisted s hs => ?_)
          rw [wp_ite]
          split
          · exact (wp_pure ..).mpr ⟨hs, hsame⟩
          · exact (wp_pure ..).mpr ⟨hs, Nat.le_add_right _ _, fun _ => by simp only [Ram.reserved]; omega, id⟩

/-- **Raising the floor** changes journals, and moves the counter forward. -/
theorem faulty_advance {acknowledged : ℕ} (hrange : acknowledged < 2 ^ 64) :
    wp device A (SameExcept journalPaths card) (advanceSequenceFloor j fingerprint acknowledged binding ram)
      (fun result s => SameExcept journalPaths card s ∧ Advances ram result.1) card := by
  have hrefl := SameExcept.refl journalPaths card
  unfold advanceSequenceFloor
  refine wp_bind'.mpr (wp_bindingHolds hrefl fun bound _ => ?_)
  rw [wp_ite]
  split
  · exact (wp_pure ..).mpr ⟨hrefl, Advances.refl ram⟩
  · rw [wp_ite]
    split
    · exact (wp_pure ..).mpr ⟨hrefl, Nat.le_refl _, id, id⟩
    · next hahead =>
      rw [wp_ite]
      split
      · exact (wp_pure ..).mpr ⟨hrefl, Nat.le_refl _, id, id⟩
      · next hvalid =>
        simp only [Bool.not_eq_true', Bool.and_eq_true, decide_eq_true_eq, Bool.not_eq_false] at hvalid
        simp only [hvalid.1.1, Bool.and_true, true_and, not_le] at hahead
        refine wp_bind'.mpr (wp_post (wp_sameExcept (all_persistBound _) card) fun persisted s hs => ?_)
        rw [wp_ite]
        split
        · exact (wp_pure ..).mpr ⟨hs, by simp only [Ram.advanced]; omega,
            fun _ => by simp only [Ram.advanced]; omega, id⟩
        · exact (wp_pure ..).mpr ⟨hs, Nat.le_refl _, id, id⟩

theorem known_reserve {count : ℕ} :
    (reserveUnavailableIntervals j fingerprint count binding ram).All KnownOp := by
  unfold reserveUnavailableIntervals
  refine all_ite trivial (all_ite trivial (.bind ((all_bindingHolds journalPaths _).mono
    fun _ => known_of_journals) fun _ => all_ite trivial (.bind ((Prog.all_op _).mpr trivial) fun _ =>
      all_ite trivial (.bind ((all_persistBound _).mono fun _ => known_of_journals) fun _ => ?_))))
  exact all_ite trivial trivial

theorem known_advance {acknowledged : ℕ} :
    (advanceSequenceFloor j fingerprint acknowledged binding ram).All KnownOp := by
  unfold advanceSequenceFloor
  refine .bind ((all_bindingHolds journalPaths _).mono fun _ => known_of_journals) fun _ =>
    all_ite trivial (all_ite trivial (all_ite trivial ?_))
  exact .bind ((all_persistBound _).mono fun _ => known_of_journals) fun _ => all_ite trivial trivial

/-! ### Appending -/

/-- The operation reads, looks for or changes one of the files. -/
def Reaches (paths : List Bytes) : Op → Prop
  | .read path | .exists path | .remove path | .append path _ | .write path _ => path ∈ paths
  | .rename source target => source ∈ paths ∨ target ∈ paths
  | _ => False

/-- What the file of a record held. -/
def before (card : Card) (r : IntervalRecord) : Bytes := (card.lookup (recordPath r)).getD []

/-- Once the envelope is written, the manifest and the journals can be used. -/
def Finishes (j : JsonLibrary) (card : Card) (ram : Ram) (r : IntervalRecord) (o : Op) (e : Event)
    (s : Card) : Prop :=
  s.lookup (recordPath r) = some (before card r ++ recordEnvelope j (assigned ram r)) →
    Reaches (manifestPath :: journalPaths) o → Calm o e s

/-- The files an append changes after the envelope is written. -/
def afterwards (r : IntervalRecord) : List Bytes := indexPath r :: journalPaths

theorem recordPath_notMem_afterwards (r : IntervalRecord) : recordPath r ∉ afterwards r := by
  simp only [afterwards, List.mem_cons, not_or]
  refine ⟨recordPath_ne_indexPath r, ?_⟩
  rw [recordPath_eq]
  exact record_notMem_journalPaths (isRecordFile_recordStem _)

theorem manifestPath_notMem_afterwards (r : IntervalRecord) : manifestPath ∉ afterwards r := by
  simp only [afterwards, List.mem_cons, not_or]
  exact ⟨manifest_ne_indexPath r, manifest_notMem_journalPaths⟩

theorem reaches_bindingHolds : (bindingHolds j fingerprint binding).All
    fun o => Reaches (manifestPath :: journalPaths) o ∧ o.Within journalPaths := by
  unfold bindingHolds currentCardManifestMatchesReset
  exact all_ite trivial (.bind ((Prog.all_op _).mpr ⟨List.mem_cons_self, trivial⟩) fun _ =>
    all_ite trivial (.bind ((Prog.all_op _).mpr ⟨List.mem_cons_self, trivial⟩) fun _ => trivial))

theorem reaches_persistSequence (n : ℕ) : (persistSequence n).All
    fun o => Reaches (manifestPath :: journalPaths) o ∧ o.Within journalPaths := by
  refine (journal_persistSequence n).mono fun o ho => ⟨?_, JournalOp.within o ho⟩
  cases o with
  | write path content => exact List.mem_cons_of_mem _ ho.1
  | read path => exact List.mem_cons_of_mem _ ho
  | «exists» path => exact List.mem_cons_of_mem _ ho
  | remove path => exact List.mem_cons_of_mem _ ho
  | rename source target => exact Or.inl (List.mem_cons_of_mem _ ho.1)
  | _ => exact ho.elim

/-- Once the envelope is written, what works when nothing fails works. -/
theorem wp_finishing {α : Type} {p : CardProg α} {Q : α → Card → Prop} {r : IntervalRecord} {s : Card}
    (hA : ∀ o e s, A o e s → Finishes j card ram r o e s)
    (hp : p.All fun o => Reaches (manifestPath :: journalPaths) o ∧ o.Within journalPaths)
    (hs : s.lookup (recordPath r) = some (before card r ++ recordEnvelope j (assigned ram r)))
    (h : wp device Calm C p Q s) : wp device A C p Q s := by
  have hnot : recordPath r ∉ journalPaths := fun hmem =>
    recordPath_notMem_afterwards r (List.mem_cons_of_mem _ hmem)
  refine wp_assume_of_all
    (I := fun s => s.lookup (recordPath r) = some (before card r ++ recordEnvelope j (assigned ram r)))
    (fun o e s ho _ hI => ?_) (fun o e s ho hI he => hA o e s he hI ho.1) hp hs h
  rw [act_sameExcept ho.2 e (SameExcept.refl journalPaths s) _ hnot]
  exact hI

/-- The envelope is written. -/
def withEnvelope (j : JsonLibrary) (card : Card) (ram : Ram) (r : IntervalRecord) : Card :=
  card.insert (recordPath r) (before card r ++ recordEnvelope j (assigned ram r))

theorem all_appendIndex (r : IntervalRecord) (sequence utcMs offset : ℕ) (crc : UInt32) :
    (appendIndex (indexPath r) sequence utcMs offset crc).All (Op.Within (afterwards r)) := by
  unfold appendIndex
  refine .bind ((Prog.all_op _).mpr trivial) fun directory => all_ite trivial (all_ite trivial ?_)
  exact .bind ((Prog.all_op _).mpr List.mem_cons_self) fun _ => trivial

theorem all_finishAppend (r : IntervalRecord) (offset : ℕ) :
    (finishAppend j fingerprint r binding ram offset).All (Op.Within (afterwards r)) := by
  have hjournals : ∀ o : Op, o.Within journalPaths → o.Within (afterwards r) := by
    intro o ho
    cases o with
    | rename source target => exact ⟨List.mem_cons_of_mem _ ho.1, List.mem_cons_of_mem _ ho.2⟩
    | append | write | remove => exact List.mem_cons_of_mem _ ho
    | _ => trivial
  have hbinding : (bindingHolds j fingerprint binding).All (Op.Within (afterwards r)) :=
    all_bindingHolds (afterwards r) binding
  unfold finishAppend
  refine .bind (all_appendIndex r _ _ _ _) fun _ => .bind hbinding fun _ =>
    .bind ((all_runIf (all_persistSequence _)).mono hjournals) fun _ => all_ite trivial ?_
  exact .bind hbinding fun _ => all_ite trivial (.bind ((Prog.all_op _).mpr trivial) fun _ => trivial)

/-- **Once the envelope is written, the append succeeds**, if it is not bound or `Finishes`. -/
theorem faulty_finishAppend {r : IntervalRecord} (hnext : ram.nextSequence < 2 ^ 64)
    (hA : binding.generation ≠ 0 → ∀ o e s, A o e s → Finishes j card ram r o e s)
    (hbound : boundTo j fingerprint binding card = true) (offset : ℕ) :
    wp device A (SameExcept (afterwards r) (withEnvelope j card ram r))
      (finishAppend j fingerprint r binding ram offset)
      (fun result s => result = (Ram.appended ram r, true) ∧
        SameExcept (afterwards r) (withEnvelope j card ram r) s) (withEnvelope j card ram r) := by
  refine wp_mono (fun _ h => h.2) (fun _ _ h => h) (wp_and (C := fun _ => True) ?_
    (wp_sameExcept (all_finishAppend (j := j) r offset) _))
  unfold finishAppend
  refine wp_bind'.mpr (wp_mono (fun _ _ => trivial) ?_ (wp_sameExcept (all_appendIndex r _ _ _ _) _))
  intro _ s1 hsame
  by_cases hgeneration : binding.generation = 0
  · have hholds : bindingHolds j fingerprint binding = pure true := by
      unfold bindingHolds
      rw [if_pos hgeneration]
    rw [hholds]
    refine wp_bind'.mpr ((wp_pure ..).mpr (wp_bind'.mpr ?_))
    refine wp_mono (fun _ _ => trivial) ?_ (wp_sameExcept (all_runIf (all_persistSequence _)) s1)
    intro persisted s2 _
    rw [wp_ite, if_neg (by simp [hgeneration])]
    refine wp_bind'.mpr ((wp_pure ..).mpr ?_)
    rw [wp_ite, if_neg (by simp)]
    exact wp_bind'.mpr (wp_freeBytes trivial fun _ => (wp_pure ..).mpr rfl)
  · have hA := hA hgeneration
    have hfile : s1.lookup (recordPath r) = some (before card r ++ recordEnvelope j (assigned ram r)) := by
      rw [hsame _ (recordPath_notMem_afterwards r), withEnvelope, AList.lookup_insert]
    have hmanifest : boundTo j fingerprint binding s1 = true := by
      rw [boundTo_congr (?_ : s1.lookup manifestPath = card.lookup manifestPath), hbound]
      rw [hsame _ (manifestPath_notMem_afterwards r), withEnvelope,
        AList.lookup_insert_ne (manifest_ne_recordPath r)]
    refine wp_bind'.mpr (wp_finishing hA reaches_bindingHolds hfile (calm_bindingHolds ?_))
    rw [hmanifest]
    refine wp_bind'.mpr (wp_finishing hA (reaches_persistSequence _) hfile
      (wp_post (calm_persistSequence hnext) ?_))
    rintro persisted s2 ⟨rfl, hsame2, -⟩
    rw [wp_ite, if_neg (by simp)]
    have hfile2 : s2.lookup (recordPath r) = some (before card r ++ recordEnvelope j (assigned ram r)) := by
      rw [hsame2 _ fun hmem => recordPath_notMem_afterwards r (List.mem_cons_of_mem _ hmem), hfile]
    refine wp_bind'.mpr (wp_finishing hA reaches_bindingHolds hfile2 (calm_bindingHolds ?_))
    rw [boundTo_congr (hsame2 _ manifest_notMem_journalPaths), hmanifest, wp_ite, if_neg (by simp)]
    exact wp_bind'.mpr (wp_freeBytes trivial fun _ => (wp_pure ..).mpr rfl)

/-- **What an append leaves**: the card, the card with a part of the envelope, or with all of it. -/
inductive Appended (j : JsonLibrary) (card : Card) (ram : Ram) (r : IntervalRecord) : Ram → Card → Prop
  | refused : Appended j card ram r ram card
  | part {content : Bytes} (haccepts : Accepts ram) (hpart : content <+: recordEnvelope j (assigned ram r)) :
      Appended j card ram r { ram with health := { ram.health with writable := false } }
        (card.insert (recordPath r) (before card r ++ content))
  | stored {s : Card} (haccepts : Accepts ram)
      (hs : SameExcept (afterwards r) (withEnvelope j card ram r) s) :
      Appended j card ram r (Ram.appended ram r) s

/-- What the power leaves of an append. -/
inductive Interrupted (j : JsonLibrary) (card : Card) (ram : Ram) (r : IntervalRecord) : Card → Prop
  | untouched : Interrupted j card ram r card
  | written {s : Card} (haccepts : Accepts ram)
      (hs : SameExcept (afterwards r) (withEnvelope j card ram r) s) : Interrupted j card ram r s

/-- **An append whatever fails.** -/
theorem faulty_append {r : IntervalRecord} (hnext : ram.nextSequence < 2 ^ 64)
    (hA : binding.generation ≠ 0 → ∀ o e s, A o e s → Finishes j card ram r o e s) :
    wp device A (Interrupted j card ram r) (append j fingerprint r binding ram)
      (fun result s => Appended j card ram r result.1 s) card := by
  have hC : Interrupted j card ram r card := .untouched
  have hrefused : ∀ (result : Ram × Bool), result = (ram, false) →
      Appended j card ram r result.1 card := by
    rintro _ rfl
    exact .refused
  unfold append
  rw [wp_ite]
  split
  · exact (wp_pure ..).mpr (hrefused _ rfl)
  · next hready =>
    have haccepts : Accepts ram := by
      simp only [Bool.or_eq_true, Bool.not_eq_true', decide_eq_true_eq, not_or, Bool.not_eq_false] at hready
      exact ⟨hready.1.1.1.1, hready.1.1.1.2, hready.2⟩
    refine wp_bind'.mpr (wp_bindingHolds hC fun bound _ => ?_)
    rw [wp_ite]
    split
    · exact (wp_pure ..).mpr (hrefused _ rfl)
    · refine wp_bind'.mpr (wp_freeBytes hC fun free => ?_)
      rw [wp_ite]
      split
      · exact (wp_pure ..).mpr (hrefused _ rfl)
      · refine wp_bind'.mpr (wp_bindingHolds hC fun bound hbound => ?_)
        rw [wp_ite]
        split
        · exact (wp_pure ..).mpr (hrefused _ rfl)
        · next hholds =>
          refine wp_bind'.mpr (wp_ensureDirectory hC fun directory => ?_)
          rw [wp_ite]
          split
          · exact (wp_pure ..).mpr (hrefused _ rfl)
          · refine wp_bind'.mpr (wp_appendFile hC ?_ fun content reported hpart hall => ?_)
            · exact (wp_pure ..).mpr (hrefused _ rfl)
            · simp only
              rw [wp_ite]
              split
              · exact (wp_pure ..).mpr (.part haccepts hpart)
              · next hreported =>
                rw [hall (by simpa using hreported)]
                refine wp_mono (fun s hs => .written haccepts hs) ?_
                  (faulty_finishAppend hnext hA (hbound (by simpa using hholds)) _)
                rintro result s ⟨rfl, hs⟩
                exact .stored haccepts hs

theorem known_append (r : IntervalRecord) : (append j fingerprint r binding ram).All KnownOp := by
  have hbinding : (bindingHolds j fingerprint binding).All KnownOp :=
    (all_bindingHolds journalPaths binding).mono fun _ => known_of_journals
  have hafter : ∀ o : Op, o.Within (afterwards r) → KnownOp o := by
    have hknown : ∀ p ∈ afterwards r, Known p := by
      intro p hp
      rcases List.mem_cons.mp hp with rfl | hp
      · rw [indexPath_eq]
        exact Or.inr (Or.inr (Or.inr (Or.inl (indexStem_suffix _))))
      · exact Or.inr (Or.inl hp)
    intro o ho
    cases o with
    | append p content => exact hknown p ho
    | write p content => exact hknown p ho
    | rename source target => exact hknown target ho.2
    | _ => trivial
  have hrecord : Known (recordPath r) := by
    rw [recordPath_eq]
    exact Or.inr (Or.inr (Or.inl (isRecordFile_recordStem _)))
  unfold append
  refine all_ite trivial (.bind hbinding fun _ => all_ite trivial (.bind ((Prog.all_op _).mpr trivial)
    fun _ => all_ite trivial (.bind hbinding fun _ => all_ite trivial (.bind ((Prog.all_op _).mpr trivial)
      fun _ => all_ite trivial (.bind ((Prog.all_op _).mpr hrecord) fun written => ?_)))))
  cases written with
  | none => trivial
  | some written => exact all_ite trivial ((all_finishAppend r _).mono hafter)

/-! ### Mounting -/

/-- What a mount leaves. -/
structure Mounted (j : JsonLibrary) (ram : Ram) (card s : Card) (ram' : Ram) : Prop where
  shrinks : Shrinks card s
  range : ram.nextSequence < 2 ^ 64 → ram'.nextSequence < 2 ^ 64
  above : ram'.health.writable = true → ∀ n ∈ standingSequences j s, n < ram'.nextSequence

theorem copies_of_listing (htidy : Tidy card) (keep : Bytes → Bool) {copy : Bytes}
    (h : copy ∈ (collectFiles (ascii "/POWERMON/records/") (ascii ".repair") card).filter keep) :
    ∃ file, isRecordFile file = true ∧ copy = repairPath file := by
  have hmem := (List.mem_filter.mp h).1
  simp only [collectFiles, List.mem_filter, Bool.and_eq_true, List.isSuffixOf_iff_suffix] at hmem
  refine htidy.repair hmem.2.2 fun hnone => ?_
  have := AList.lookup_isSome.mpr (AList.mem_keys.mpr hmem.1)
  rw [hnone] at this
  cases this

/-- Where there is a copy to be listed, it is listed. -/
theorem listed_of_seen {seen : Set Bytes} {trusted : Prop} {path : Bytes} (hpath : isRecordFile path = true)
    (hseen : path ∈ seen) {keep : Bytes → Bool}
    (hkeep : ∀ p, (∀ e, Attends seen trusted (.list (ascii "/POWERMON/records/") (ascii ".repair")) e card →
      Lists e p) → keep p = true) :
    repairPath path ∈ (collectFiles (ascii "/POWERMON/records/") (ascii ".repair") card).filter keep ∨
      card.lookup (repairPath path) = none := by
  cases hcopy : card.lookup (repairPath path) with
  | none => exact Or.inr rfl
  | some content =>
    refine Or.inl (List.mem_filter.mpr ⟨?_, hkeep _ fun e he => (he path hseen).2⟩)
    simp only [isRecordFile, Bool.and_eq_true, List.isPrefixOf_iff_prefix] at hpath
    simp only [collectFiles, List.mem_filter, Bool.and_eq_true, List.isSuffixOf_iff_suffix,
      List.isPrefixOf_iff_prefix]
    refine ⟨AList.mem_keys.mp (AList.lookup_isSome.mp (by rw [hcopy]; rfl)), ?_, repair_suffix path⟩
    exact hpath.1.trans (List.prefix_append _ _)

/-- **A mount that sees every sequence that stands** leaves the next sequence above them, if it makes the
card writable. -/
theorem faulty_remountPreferred {seen : Set Bytes} {trusted : Prop} {required : ℕ} (htidy : Tidy card)
    (hcovered : Covered j card (standing card) seen trusted) (hrange : required < 2 ^ 64) :
    wp device (Attends seen trusted) (Shrinks card) (remountPreferred j fingerprint required ram)
      (fun result s => Mounted j ram card s result.1) card := by
  unfold remountPreferred
  refine wp_bind'.mpr (wp_listFiles (Shrinks.refl card) fun keep hkeep => ?_)
  have hcopies := fun copy hcopy => @copies_of_listing _ htidy keep copy hcopy
  refine wp_bind'.mpr (wp_mono (fun s hs => .of_eq hs.1) ?_ (wp_and (faulty_recoverRepairs _ card hcopies)
    (wp_tidy (known_recoverRepairs hcopies) htidy)))
  rintro repaired card1 ⟨⟨hrecovered, hgone⟩, htidy1⟩
  have hstart : Shrinks card card1 := .of_eq hrecovered.standing
  rw [wp_ite]
  split
  · exact (wp_pure ..).mpr ⟨hstart, id, fun h => by cases h⟩
  · next hrepaired =>
    have hcovered1 : Covered j card1 (fun path => (card1.lookup path).getD []) seen trusted := by
      intro path hpath n hn
      rw [hrecovered.standing path hpath] at hn
      refine (hcovered path hpath n hn).imp (fun ⟨hseen, hn⟩ => ⟨hseen, ?_⟩) fun ⟨htrust, hn⟩ => ⟨htrust, ?_⟩
      · have hcopy := hgone (by simpa using hrepaired) path hpath (listed_of_seen hpath hseen hkeep)
        simpa only [lookup_of_copy_gone hcopy, hrecovered.standing path hpath] using hn
      · rwa [journalFloor_congr hrecovered.journals]
    refine wp_bind'.mpr (wp_mono (fun s hs => hstart.trans hs) ?_ (faulty_recover htidy1 hcovered1))
    rintro ⟨ram1, ok⟩ card2 hrecover
    have hshrinks := hstart.trans hrecover.shrinks
    rw [wp_ite]
    split
    · refine (wp_pure ..).mpr ⟨hshrinks, hrecover.range, fun h => ?_⟩
      rw [hrecover.writable] at h
      cases h
    · next hok =>
      have habove := hrecover.above (by simpa using hok)
      simp only
      rw [wp_ite]
      split
      · exact (wp_pure ..).mpr ⟨hshrinks, hrecover.range, fun _ => habove⟩
      · refine wp_bind'.mpr (wp_mono (fun s hs => hshrinks.trans (.of_eq (standing_journals hs))) ?_
          (faulty_advance hrange))
        rintro ⟨ram2, ready⟩ card3 ⟨hsame, hadvances⟩
        have hjournals : Shrinks card2 card3 := .of_eq (standing_journals hsame)
        refine (wp_pure ..).mpr ⟨hshrinks.trans hjournals, fun h => hadvances.range (hrecover.range h),
          fun _ n hn => ?_⟩
        exact Nat.lt_of_lt_of_le (habove n (hjournals.subset hn)) hadvances.next

/-- A mount makes no unknown file. -/
theorem tidy_remountPreferred {required : ℕ} (htidy : Tidy card) :
    wp device A Tidy (remountPreferred j fingerprint required ram) (fun _ => Tidy) card := by
  unfold remountPreferred
  refine wp_bind'.mpr (wp_listFiles htidy fun keep _ => ?_)
  refine wp_bind'.mpr (wp_post
    (wp_tidy (known_recoverRepairs fun copy => copies_of_listing htidy keep) htidy) fun _ s hs => ?_)
  rw [wp_ite]
  split
  · exact (wp_pure ..).mpr hs
  · refine wp_bind'.mpr (wp_post (tidy_recover hs) fun _ s hs => ?_)
    rw [wp_ite]
    split
    · exact (wp_pure ..).mpr hs
    · simp only
      rw [wp_ite]
      split
      · exact (wp_pure ..).mpr hs
      · exact wp_bind'.mpr (wp_post (wp_tidy known_advance hs) fun _ s hs => (wp_pure ..).mpr hs)

end PowerMonitor.Storage.FaultyOperations
