import PowerMonitor.Storage.Layout
import PowerMonitor.Storage.Recovery

/-! # The operations when nothing fails

What each operation of the storage does to the card and to the variables in a run in which nothing
fails: an append is refused, or stores the record and its row (`calm_append`); a floor is persisted or
refused (`calm_reserve`, `calm_advance`); a recovery of a laid out card counts its records and changes
only journals (`calm_recover`). -/

namespace PowerMonitor.Storage.CalmOperations

open PowerMonitor.Lib.Binary PowerMonitor.Lib.Lines PowerMonitor.Lib.Scan PowerMonitor.Lib.Json
open PowerMonitor.Lib.Program
open PowerMonitor.Storage.RecordFormat PowerMonitor.Storage.Reading PowerMonitor.Storage.Media
open PowerMonitor.Storage.Segment PowerMonitor.Storage.ReadPage PowerMonitor.Storage.PageSpec
open PowerMonitor.Storage.SdStorage PowerMonitor.Storage.Frames PowerMonitor.Storage.Intact
open PowerMonitor.Storage.Recovery PowerMonitor.Storage.Layout

variable {j : JsonLibrary} {fingerprint : Bytes} {binding : CardBinding} {card : Card} {ram : Ram}

/-! ### The journal -/

theorem parseJournal_decimal {n : ℕ} (hn : n < 2 ^ 64) : parseJournal (decimal n ++ [10]) = some n := by
  have hdigits : ∀ b ∈ decimal n, b ≠ 10 ∧ b ≠ 0 := fun b hb => by
    have := isDigit_of_mem_decimal hb
    constructor <;> rintro rfl <;> exact absurd this (by decide)
  have hline : (decimal n ++ [10]).takeWhile (· ≠ 10) = decimal n := by
    rw [List.takeWhile_append_of_pos (by simpa using fun b hb => (hdigits b hb).1)]
    simp
  have htext : cString (decimal n) = decimal n := by
    unfold cString
    rw [List.takeWhile_eq_self_iff]
    simpa using fun b hb => (hdigits b hb).2
  have hscan : scanUnsigned (decimal n ++ []) = some (n, []) := scanUnsigned_decimal hn (by simp)
  rw [List.append_nil] at hscan
  unfold parseJournal
  rw [hline, htext, hscan]
  simp

theorem parseJournal_lt {content : Bytes} {n : ℕ} (h : parseJournal content = some n) : n < 2 ^ 64 := by
  unfold parseJournal at h
  split at h
  · cases h
  · next value rest hscan =>
    split_ifs at h
    cases h
    obtain ⟨⟨negative, m, rest'⟩, -, heq⟩ := Option.map_eq_some_iff.mp hscan
    simp only [Prod.mk.injEq] at heq
    obtain ⟨rfl, -⟩ := heq
    unfold unsigned64
    split_ifs <;> omega

theorem calm_loadSequenceJournal {Q : Option ℕ → Card → Prop} {path : Bytes}
    (h : Q ((card.lookup path).bind parseJournal) card) :
    wp device Calm (fun _ => True) (loadSequenceJournal path) Q card :=
  wp_bind'.mpr (calm_readFile trivial ((wp_pure ..).mpr h))

/-- After removing a file that may be there. -/
theorem calm_removeIfPresent {Q : Bool → Card → Prop} {path : Bytes}
    (h : ∀ card', card'.lookup path = none → SameExcept [path] card card' → Q true card') :
    wp device Calm (fun _ => True) (removeIfPresent path) Q card := by
  refine wp_bind'.mpr (calm_fileExists trivial ?_)
  rw [wp_ite]
  split_ifs with hpresent
  · refine calm_removeFile trivial ?_
    rw [hpresent]
    exact h _ (AList.lookup_erase ..) fun p hp => AList.lookup_erase_ne (by simpa using hp)
  · exact (wp_pure ..).mpr (h card (by simpa using hpresent) (SameExcept.refl _ _))

theorem journal_ne : journalTemporary ≠ journalBackup ∧ journalTemporary ≠ journalPath ∧
    journalBackup ≠ journalPath := by decide

/-- Installing a verified temporary file. -/
theorem calm_installSequence {n : ℕ} (hn : n < 2 ^ 64)
    (htemporary : card.lookup journalTemporary = some (decimal n ++ [10]))
    (hbackup : card.lookup journalBackup = none) :
    wp device Calm (fun _ => True) (installSequence n) (fun ok _ => ok = true) card := by
  obtain ⟨hne1, hne2, hne3⟩ := journal_ne
  have hfinish : ∀ card', card'.lookup journalTemporary = some (decimal n ++ [10]) →
      card'.lookup journalPath = none → ∀ hadTarget, wp device Calm (fun _ => True) (do
        let renamed ← renameFile journalTemporary journalPath
        if !renamed then restoreBackup hadTarget
        else
          let installed ← loadSequenceJournal journalPath
          if installed = some n then do
            let _ ← removeFile journalBackup
            return true
          else
            let _ ← removeFile journalPath
            restoreBackup hadTarget) (fun ok _ => ok = true) card' := by
    intro card' h1 h2 hadTarget
    refine wp_bind'.mpr (calm_renameFile trivial h1 h2 ?_)
    rw [wp_ite, if_neg (by simp)]
    refine wp_bind'.mpr (calm_loadSequenceJournal ?_)
    rw [AList.lookup_insert, Option.bind_some, parseJournal_decimal hn, wp_ite, if_pos rfl]
    exact wp_bind'.mpr (calm_removeFile trivial ((wp_pure ..).mpr rfl))
  unfold installSequence
  refine wp_bind'.mpr (calm_fileExists trivial (wp_bind'.mpr ?_))
  unfold runIf
  rw [wp_ite]
  cases htarget : card.lookup journalPath with
  | none =>
    rw [if_neg (by simp), wp_pure, wp_ite, if_neg (by simp)]
    exact hfinish card htemporary htarget _
  | some content =>
    rw [if_pos (by simp)]
    refine calm_renameFile trivial htarget hbackup ?_
    rw [wp_ite, if_neg (by simp)]
    refine hfinish _ ?_ ?_ _
    · rw [AList.lookup_insert_ne hne1, AList.lookup_erase_ne hne2, htemporary]
    · rw [AList.lookup_insert_ne hne3.symm, AList.lookup_erase]

/-- The numbers in the journals satisfy `P`. -/
def JournalNumbers (P : ℕ → Prop) (card : Card) : Prop :=
  ∀ path ∈ journalPaths, ∀ m, (card.lookup path).bind parseJournal = some m → P m

theorem journalsBelow_iff : JournalsBelow card ↔ JournalNumbers (· ≠ 2 ^ 64 - 1) card :=
  ⟨fun h path hpath _ hm heq => h path hpath (heq ▸ hm), fun h path hpath hm => h path hpath _ hm rfl⟩

/-- The operations by which a sequence is persisted put no other number into the journals. -/
theorem act_journalNumbers {P : ℕ → Prop} {n : ℕ} (hn : n < 2 ^ 64) (hP : P n) {o : Op} (ho : JournalOp n o)
    {e : Event} {s : Card} (he : Calm o e s) (hs : JournalNumbers P s) :
    JournalNumbers P (device.act o e s).1 := by
  have hinsert : ∀ (s' : Card) (path content : Bytes), JournalNumbers P s' →
      (∀ m, parseJournal content = some m → P m) → JournalNumbers P (s'.insert path content) := by
    intro s' path content hs' hcontent p hp m hm
    by_cases heq : p = path
    · subst heq
      rw [AList.lookup_insert] at hm
      exact hcontent m hm
    · rw [AList.lookup_insert_ne heq] at hm
      exact hs' p hp m hm
  have herase : ∀ path, JournalNumbers P (s.erase path) := by
    intro path p hp m hm
    by_cases heq : p = path
    · subst heq
      simp [AList.lookup_erase] at hm
    · rw [AList.lookup_erase_ne heq] at hm
      exact hs p hp m hm
  have hevent : e ≠ .failed ∧ ∀ before content, written before content e = (before ++ content, content.length) := by
    rcases he with rfl | ⟨bytes, rfl⟩ <;> exact ⟨by simp, fun _ _ => rfl⟩
  cases o with
  | append path content => exact ho.elim
  | write path content =>
    obtain ⟨-, rfl⟩ := ho
    simp only [device, if_neg hevent.1, hevent.2, List.nil_append]
    refine hinsert s _ _ hs fun m hm => ?_
    rw [parseJournal_decimal hn, Option.some.injEq] at hm
    exact hm ▸ hP
  | remove path =>
    simp only [device]
    split
    · exact hs
    · exact herase path
  | rename source target =>
    simp only [device]
    split
    · exact hs
    · next content hcontent =>
      split
      · exact hs
      · refine hinsert _ _ _ (herase source) fun m hm => hs source ho.1 m ?_
        rwa [hcontent]
  | _ => exact hs

/-- **Persisting a sequence succeeds**, and changes only journals. -/
theorem calm_persistSequence {n : ℕ} (hn : n < 2 ^ 64) :
    wp device Calm (fun _ => True) (persistSequence n)
      (fun ok card' => ok = true ∧ SameExcept journalPaths card card' ∧
        (n ≠ 2 ^ 64 - 1 → JournalsBelow card → JournalsBelow card')) card := by
  obtain ⟨hne1, hne2, hne3⟩ := journal_ne
  have hbelow : wp device Calm (fun _ => True) (persistSequence n)
      (fun _ card' => n ≠ 2 ^ 64 - 1 → JournalsBelow card → JournalsBelow card') card := by
    by_cases h : n ≠ 2 ^ 64 - 1 ∧ JournalsBelow card
    · exact wp_mono (fun _ _ => trivial) (fun _ _ h _ _ => journalsBelow_iff.mpr h)
        (wp_of_all (fun o e s ho he hs => act_journalNumbers hn h.1 ho he hs) (journal_persistSequence n)
          (journalsBelow_iff.mp h.2))
    · exact wp_mono (fun _ _ => trivial) (fun _ _ _ h1 h2 => absurd ⟨h1, h2⟩ h)
        (wp_sameExcept (all_persistSequence n) card)
  refine wp_mono (fun _ _ => trivial) (fun _ _ h => ⟨h.1, h.2.1, h.2.2⟩)
    (wp_and (Q := fun ok _ => ok = true) (C := fun _ => True) ?_
      (wp_and (wp_sameExcept (all_persistSequence n) card) hbelow))
  unfold persistSequence
  refine wp_bind'.mpr (calm_removeIfPresent fun card1 h1 hsame1 => ?_)
  rw [wp_ite, if_neg (by simp)]
  refine wp_bind'.mpr (calm_writeFile trivial ?_)
  rw [wp_ite, if_neg (by simp)]
  refine wp_bind'.mpr (calm_loadSequenceJournal ?_)
  rw [AList.lookup_insert, Option.bind_some, parseJournal_decimal hn, wp_ite, if_neg (by simp)]
  refine wp_bind'.mpr (calm_removeIfPresent fun card2 h2 hsame2 => ?_)
  rw [wp_ite, if_neg (by simp)]
  refine calm_installSequence hn ?_ h2
  rw [hsame2 _ (by simpa using hne1), AList.lookup_insert]

/-! ### The binding -/

/-- The card is the one the caller is bound to. -/
def boundTo (j : JsonLibrary) (fingerprint : Bytes) (binding : CardBinding) (card : Card) : Bool :=
  binding.generation = 0 || ((card.lookup manifestPath).isSome &&
    manifestMatches j fingerprint binding (card.lookup manifestPath))

theorem calm_bindingHolds {Q : Bool → Card → Prop} (h : Q (boundTo j fingerprint binding card) card) :
    wp device Calm (fun _ => True) (bindingHolds j fingerprint binding) Q card := by
  unfold bindingHolds currentCardManifestMatchesReset
  rw [wp_ite]
  split_ifs with hgeneration
  · simpa [boundTo, hgeneration] using h
  · refine wp_bind'.mpr (calm_fileExists trivial ?_)
    rw [wp_ite]
    cases hmanifest : card.lookup manifestPath with
    | none =>
      rw [if_pos (by simp)]
      simpa [boundTo, hgeneration, hmanifest] using h
    | some manifest =>
      rw [if_neg (by simp)]
      refine wp_bind'.mpr (calm_readFile trivial ((wp_pure ..).mpr ?_))
      simpa [boundTo, hgeneration, hmanifest] using h

theorem boundTo_congr {card' : Card} (h : card'.lookup manifestPath = card.lookup manifestPath) :
    boundTo j fingerprint binding card' = boundTo j fingerprint binding card := by
  simp only [boundTo, h]

theorem manifest_suffix : ascii ".json" <:+ manifestPath := ⟨ascii "/POWERMON/manifest", by decide⟩

theorem manifest_notMem_journalPaths : manifestPath ∉ journalPaths :=
  notMem_journalPaths manifest_suffix (by decide) (by decide) (by decide)
    (by decide)

theorem metadataPath_ne_manifest (path : Bytes) : metadataPath path ≠ manifestPath := by
  intro h
  have hlength := congrArg List.length h
  simp only [metadataPath, pathToken, List.length_append, length_hexText] at hlength
  exact absurd hlength (by decide)

theorem manifest_ne_recordPath (r : IntervalRecord) : manifestPath ≠ recordPath r := by
  rw [recordPath_eq]
  exact ne_of_suffix manifest_suffix (recordStem_suffix _) (by decide) (by decide)
    (by decide)

theorem manifest_ne_indexPath (r : IntervalRecord) : manifestPath ≠ indexPath r := by
  rw [indexPath_eq]
  exact ne_of_suffix manifest_suffix (indexStem_suffix _) (by decide) (by decide)
    (by decide)

/-! ### Appending -/

/-- The variables let a record be appended. -/
def Accepts (ram : Ram) : Prop :=
  ram.health.mounted = true ∧ ram.health.writable = true ∧ ram.nextSequence ≠ 2 ^ 64 - 1

theorem recordPath_ne_indexPath (r : IntervalRecord) : recordPath r ≠ indexPath r := by
  rw [recordPath_eq, indexPath_eq]
  exact recordStem_ne_indexStem _ _

/-- Once the envelope is written. -/
theorem calm_finishAppend {r : IntervalRecord} (hnext : ram.nextSequence < 2 ^ 64)
    (hlast : ram.nextSequence ≠ 2 ^ 64 - 1)
    (hsize : ((card.lookup (recordPath r)).getD []).length < 2 ^ 64)
    {card1 : Card} (hcard1 : card1 = card.insert (recordPath r) ((card.lookup (recordPath r)).getD [] ++
      recordEnvelope j (assigned ram r)))
    (hbound : boundTo j fingerprint binding card = true) :
    wp device Calm (fun _ => True)
      (finishAppend j fingerprint r binding ram ((card.lookup (recordPath r)).getD []).length)
      (fun result card' => result = (Ram.appended ram r, true) ∧ Extends j card card' (assigned ram r))
      card1 := by
  have hsequence : (assigned ram r).sequence.toNat = ram.nextSequence := by
    simp only [assigned, UInt64.toNat_ofNat']
    omega
  have hrow : indexRow ram.nextSequence r.startUtcMs.toNat ((card.lookup (recordPath r)).getD []).length
      (crc32 (serializeRecord j (assigned ram r))) =
      rowOf j ((card.lookup (recordPath r)).getD []).length (assigned ram r) := by
    rw [rowOf, hsequence]
    rfl
  have hrowLength := length_rowOf (j := j) hsize (assigned ram r)
  have hindexBefore : card1.lookup (indexPath r) = card.lookup (indexPath r) := by
    rw [hcard1, AList.lookup_insert_ne (recordPath_ne_indexPath r).symm]
  unfold finishAppend appendIndex
  refine wp_bind'.mpr (wp_bind'.mpr (calm_ensureDirectory trivial ?_))
  rw [wp_ite, if_neg (by simp)]
  simp only [hrow]
  rw [wp_ite, if_neg (by omega)]
  refine wp_bind'.mpr (calm_appendFile trivial ((wp_pure ..).mpr ?_))
  refine wp_bind'.mpr (calm_bindingHolds ?_)
  -- the card with the record and its row
  generalize hcard2 : card1.insert (indexPath r) ((card1.lookup (indexPath r)).getD [] ++
    rowOf j ((card.lookup (recordPath r)).getD []).length (assigned ram r)) = card2
  have hother : ∀ p, p ≠ recordPath r → p ≠ indexPath r → card2.lookup p = card.lookup p := by
    intro p h1 h2
    rw [← hcard2, AList.lookup_insert_ne h2, hcard1, AList.lookup_insert_ne h1]
  have hbound2 : boundTo j fingerprint binding card2 = true := by
    rw [boundTo_congr (hother _ (manifest_ne_recordPath r) (manifest_ne_indexPath r)), hbound]
  rw [hbound2]
  refine wp_bind'.mpr (wp_post (calm_persistSequence hnext) ?_)
  rintro persisted card' ⟨rfl, hsame, hbelow⟩
  rw [wp_ite, if_neg (by simp)]
  refine wp_bind'.mpr (calm_bindingHolds ?_)
  rw [boundTo_congr (hsame _ manifest_notMem_journalPaths), hbound2, wp_ite, if_neg (by simp)]
  refine wp_bind'.mpr (calm_freeBytes trivial fun n => (wp_pure ..).mpr ⟨rfl, ?_, ?_, ?_, ?_⟩)
  · have hrecord : recordPath r ∉ journalPaths := by
      rw [recordPath_eq]
      exact record_notMem_journalPaths (isRecordFile_recordStem _)
    rw [show recordPath (assigned ram r) = recordPath r from rfl, hsame _ hrecord, ← hcard2,
      AList.lookup_insert_ne (recordPath_ne_indexPath r), hcard1, AList.lookup_insert]
  · have hindex : indexPath r ∉ journalPaths := by
      rw [indexPath_eq]
      exact indexStem_notMem_journalPaths _
    rw [show indexPath (assigned ram r) = indexPath r from rfl, hsame _ hindex, ← hcard2,
      AList.lookup_insert, hindexBefore]
    rfl
  · intro p hp
    have hp' : p ≠ recordPath (assigned ram r) ∧ p ≠ indexPath (assigned ram r) ∧ p ∉ journalPaths := by
      simpa [not_or] using hp
    rw [hsame p hp'.2.2, hother p hp'.1 hp'.2.1]
  · intro hjournals
    refine hbelow hlast fun p hp => ?_
    have hne : p ≠ recordPath r ∧ p ≠ indexPath r := by
      rw [recordPath_eq, indexPath_eq]
      constructor
      · rintro rfl; exact record_notMem_journalPaths (isRecordFile_recordStem _) hp
      · rintro rfl; exact indexStem_notMem_journalPaths _ hp
    rw [hother p hne.1 hne.2]
    exact hjournals p hp

/-- **An append is refused, or stores the record under the next sequence.** -/
theorem calm_append {r : IntervalRecord} (hnext : ram.nextSequence < 2 ^ 64)
    (hsize : ((card.lookup (recordPath r)).getD []).length < 2 ^ 64) :
    wp device Calm (fun _ => True) (append j fingerprint r binding ram)
      (fun result card' => (result = (ram, false) ∧ card' = card) ∨
        (result = (Ram.appended ram r, true) ∧ Accepts ram ∧ Extends j card card' (assigned ram r)))
      card := by
  unfold append
  rw [wp_ite]
  split_ifs with hrefused
  · exact (wp_pure ..).mpr (Or.inl ⟨rfl, rfl⟩)
  · have haccepts : Accepts ram := by
      simp only [Bool.or_eq_true, Bool.not_eq_true', decide_eq_true_eq, not_or, Bool.not_eq_false] at hrefused
      exact ⟨hrefused.1.1.1.1, hrefused.1.1.1.2, hrefused.2⟩
    refine wp_bind'.mpr (calm_bindingHolds ?_)
    rw [wp_ite]
    split_ifs with hbound
    · exact (wp_pure ..).mpr (Or.inl ⟨rfl, rfl⟩)
    · have hbound' : boundTo j fingerprint binding card = true := by simpa using hbound
      refine wp_bind'.mpr (calm_freeBytes trivial fun free => ?_)
      rw [wp_ite]
      split
      · exact (wp_pure ..).mpr (Or.inl ⟨rfl, rfl⟩)
      · refine wp_bind'.mpr (calm_bindingHolds ?_)
        rw [hbound', wp_ite, if_neg (by simp)]
        refine wp_bind'.mpr (calm_ensureDirectory trivial ?_)
        rw [wp_ite, if_neg (by simp)]
        refine wp_bind'.mpr (calm_appendFile trivial ?_)
        simp only
        rw [wp_ite, if_neg (by simp)]
        refine wp_post (calm_finishAppend hnext haccepts.2.2 hsize rfl hbound') ?_
        rintro result card' ⟨hresult, hext⟩
        exact Or.inr ⟨hresult, haccepts, hext⟩

/-! ### Floors -/

/-- Persisting a sequence changes only journals. -/
theorem calm_persistBound {n : ℕ} (hn : n < 2 ^ 64 - 1) {Q : Bool → Card → Prop}
    (h : ∀ ok card', Journaled card card' → Q ok card') :
    wp device Calm (fun _ => True) (persistBound j fingerprint binding n) Q card := by
  unfold persistBound
  refine wp_bind'.mpr (calm_bindingHolds (wp_bind'.mpr ?_))
  have hpersist : ∀ c, wp device Calm (fun _ => True) (runIf c (persistSequence n) false)
      (fun _ card' => Journaled card card') card := by
    intro c
    unfold runIf
    rw [wp_ite]
    split
    · refine wp_post (calm_persistSequence (by omega)) ?_
      rintro ok card' ⟨-, hsame, hbelow⟩
      exact ⟨hsame, hbelow (by omega)⟩
    · exact (wp_pure ..).mpr (Journaled.refl card)
  refine wp_post (hpersist _) ?_
  intro persisted card' hjournaled
  unfold runIf
  rw [wp_ite]
  split
  · exact calm_bindingHolds (h _ _ hjournaled)
  · exact (wp_pure ..).mpr (h _ _ hjournaled)

/-- **Reserving sequences is refused, or moves the counter past them.** -/
theorem calm_reserve {count : ℕ} :
    wp device Calm (fun _ => True) (reserveUnavailableIntervals j fingerprint count binding ram)
      (fun result card' => Journaled card card' ∧ (result.1 = ram ∨
        (ram.nextSequence + count ≤ 2 ^ 64 - 1 ∧ 0 < count ∧ result.1 = Ram.reserved ram count))) card := by
  have hsame := Journaled.refl card
  unfold reserveUnavailableIntervals
  rw [wp_ite]
  split
  · exact (wp_pure ..).mpr ⟨hsame, Or.inl rfl⟩
  · next hcount =>
    rw [wp_ite]
    split
    · exact (wp_pure ..).mpr ⟨hsame, Or.inl rfl⟩
    · next hrefused =>
      have hroom : ram.nextSequence + count ≤ 2 ^ 64 - 1 := by
        simp only [Bool.or_eq_true, Bool.not_eq_true', decide_eq_true_eq, not_or, Bool.not_eq_false]
          at hrefused
        omega
      refine wp_bind'.mpr (calm_bindingHolds ?_)
      rw [wp_ite]
      split
      · exact (wp_pure ..).mpr ⟨hsame, Or.inl rfl⟩
      · refine wp_bind'.mpr (calm_freeBytes trivial fun free => ?_)
        rw [wp_ite]
        split
        · exact (wp_pure ..).mpr ⟨hsame, Or.inl rfl⟩
        · refine wp_bind'.mpr (calm_persistBound (by omega) fun ok card' hsame' => ?_)
          rw [wp_ite]
          split
          · exact (wp_pure ..).mpr ⟨hsame', Or.inl rfl⟩
          · exact (wp_pure ..).mpr ⟨hsame', Or.inr ⟨hroom, by omega, rfl⟩⟩

/-- Only flags changed, and the card did not become writable. -/
structure SameButFlags (ram ram' : Ram) : Prop where
  next : ram'.nextSequence = ram.nextSequence
  oldest : ram'.health.oldestSequence = ram.health.oldestSequence
  newest : ram'.health.newestSequence = ram.health.newestSequence
  newestSyncable : ram'.health.newestSyncableSequence = ram.health.newestSyncableSequence
  writable : ram'.health.writable = true → ram.health.writable = true

/-- **Raising the floor changes flags only, or moves the counter past the floor.** -/
theorem calm_advance {acknowledged : ℕ} (hrange : acknowledged < 2 ^ 64) :
    wp device Calm (fun _ => True) (advanceSequenceFloor j fingerprint acknowledged binding ram)
      (fun result card' => Journaled card card' ∧ (SameButFlags ram result.1 ∨
        (ram.nextSequence ≤ acknowledged ∧ ram.health.newestSequence ≤ acknowledged ∧
          acknowledged ≠ 2 ^ 64 - 1 ∧ result.1 = Ram.advanced ram acknowledged))) card := by
  have hsame := Journaled.refl card
  have hflags : ∀ conflict ready inProgress, SameButFlags ram (Ram.floorChecked ram conflict ready inProgress) :=
    fun _ _ _ => ⟨rfl, rfl, rfl, rfl, id⟩
  unfold advanceSequenceFloor
  refine wp_bind'.mpr (calm_bindingHolds ?_)
  rw [wp_ite]
  split
  · exact (wp_pure ..).mpr ⟨hsame, Or.inl ⟨rfl, rfl, rfl, rfl, id⟩⟩
  · rw [wp_ite]
    split
    · exact (wp_pure ..).mpr ⟨hsame, Or.inl (hflags _ _ _)⟩
    · next hahead =>
      rw [wp_ite]
      split
      · exact (wp_pure ..).mpr ⟨hsame, Or.inl (hflags _ _ _)⟩
      · next hvalid =>
        simp only [Bool.not_eq_true', Bool.and_eq_true, decide_eq_true_eq, Bool.not_eq_false] at hvalid
        refine wp_bind'.mpr (calm_persistBound (by omega) fun ok card' hsame' => ?_)
        rw [wp_ite]
        split
        · refine (wp_pure ..).mpr ⟨hsame', Or.inr ⟨?_, hvalid.1.2, hvalid.2, rfl⟩⟩
          simp only [hvalid.1.1, Bool.and_true, true_and, not_le] at hahead
          omega
        · exact (wp_pure ..).mpr ⟨hsame', Or.inl ⟨rfl, rfl, rfl, rfl, id⟩⟩

/-! ### Recovering -/

/-- What the recovery of an intact segment counts. -/
def segmentTally (j : JsonLibrary) (card : Card) (t : Tally) (path : Bytes) : Tally :=
  match loadSegmentMetadata j card {} .readings path with
  | some metadata => if metadata.allTimesTrusted then t.addSegment metadata else fileTally t
  | none => fileTally t
where
  fileTally (t : Tally) : Tally :=
    match card.lookup path with
    | none => t
    | some content => (recoverLines j (unterminated content) (lines content) 0 t).1

/-- What the recovery of a card with intact segments counts. -/
def cardTally (j : JsonLibrary) (card : Card) : Tally := (recordFiles card).foldl (segmentTally j card) {}

theorem calm_recoverFile_intact {path : Bytes} (t : Tally)
    (hintact : ∀ content, card.lookup path = some content →
      ∃ es, contentEntries j .readings content = some es) :
    wp device Calm (fun _ => True) (recoverFile j path t)
      (fun t' card' => t' = segmentTally.fileTally j card path t ∧ card' = card) card := by
  unfold recoverFile segmentTally.fileTally
  refine wp_bind'.mpr (calm_readFile trivial ?_)
  cases hfile : card.lookup path with
  | none => exact (wp_pure ..).mpr ⟨rfl, rfl⟩
  | some content =>
    obtain ⟨es, hes⟩ := hintact content hfile
    simp only [recoverLines_intact hes]
    exact (wp_pure ..).mpr ⟨rfl, rfl⟩

theorem calm_recoverSegment_intact {path : Bytes} (t : Tally)
    (hintact : ∀ content, card.lookup path = some content →
      ∃ es, contentEntries j .readings content = some es) :
    wp device Calm (fun _ => True) (recoverSegment j t path)
      (fun t' card' => t' = segmentTally j card t path ∧ card' = card) card := by
  unfold recoverSegment
  refine wp_bind'.mpr (calm_readFile trivial (wp_bind'.mpr (calm_readFile trivial
    (wp_bind'.mpr (calm_readFile trivial ?_)))))
  rw [show acceptMetadata j .readings path (card.lookup (metadataPath path))
      ((card.lookup path).map List.length) ((card.lookup (pairedIndexPath path)).map List.length) =
      loadSegmentMetadata j card {} .readings path from rfl]
  unfold segmentTally
  cases loadSegmentMetadata j card {} .readings path with
  | none => exact calm_recoverFile_intact t hintact
  | some metadata =>
    simp only
    rw [wp_ite]
    split
    · exact (wp_pure ..).mpr ⟨rfl, rfl⟩
    · exact calm_recoverFile_intact t hintact

theorem calm_recoverSegments_intact (paths : List Bytes) (t : Tally)
    (hintact : ∀ path ∈ paths, ∀ content, card.lookup path = some content →
      ∃ es, contentEntries j .readings content = some es) :
    wp device Calm (fun _ => True) (recoverSegments j paths t)
      (fun t' card' => t' = paths.foldl (segmentTally j card) t ∧ card' = card) card := by
  induction paths generalizing t with
  | nil => exact (wp_pure ..).mpr ⟨rfl, rfl⟩
  | cons path paths ih =>
    rw [List.forall_mem_cons] at hintact
    unfold recoverSegments
    refine wp_bind'.mpr (wp_post (calm_recoverSegment_intact t hintact.1) ?_)
    rintro t1 card1 ⟨rfl, rfl⟩
    exact ih _ hintact.2

/-- The journals of a card, the largest number they hold. -/
def journalFloor (card : Card) : ℕ :=
  max (((card.lookup journalPath).bind parseJournal).getD 0)
    (max (((card.lookup journalTemporary).bind parseJournal).getD 0)
      (((card.lookup journalBackup).bind parseJournal).getD 0))

theorem journalFloor_lt (card : Card) : journalFloor card < 2 ^ 64 := by
  have hbound : ∀ path, ((card.lookup path).bind parseJournal).getD 0 < 2 ^ 64 := by
    intro path
    cases h : (card.lookup path).bind parseJournal with
    | none => simp
    | some n =>
      obtain ⟨content, -, hn⟩ := Option.bind_eq_some_iff.mp h
      exact parseJournal_lt hn
  have h1 := hbound journalPath
  have h2 := hbound journalTemporary
  have h3 := hbound journalBackup
  unfold journalFloor
  omega

theorem journalFloor_ne (h : JournalsBelow card) : journalFloor card ≠ 2 ^ 64 - 1 := by
  have hvalue : ∀ path ∈ journalPaths, ((card.lookup path).bind parseJournal).getD 0 ≠ 2 ^ 64 - 1 := by
    intro path hpath
    have := h path hpath
    cases hp : (card.lookup path).bind parseJournal with
    | none => simp
    | some n => rw [hp] at this; simpa using this
  have h1 := hvalue _ mem_journalPaths.1
  have h2 := hvalue _ mem_journalPaths.2.1
  have h3 := hvalue _ mem_journalPaths.2.2
  unfold journalFloor
  omega

/-- The variables after a recovery. -/
def Ram.recovered (ram : Ram) (t : Tally) (committed : ℕ) : Ram where
  nextSequence := committed + 1
  health := { (Ram.tallied ram t).health with
    sequenceFloor := committed
    nextSequence := committed + 1
    newestSequence := t.maximumSequence }

theorem calm_recoverFloor (t : Tally) :
    wp device Calm (fun _ => True) (recoverFloor t (Ram.tallied ram t))
      (fun result card' => Journaled card card' ∧
        ((max t.maximumSequence (journalFloor card) = 2 ^ 64 - 1 ∧ result.2 = false ∧
            result.1 = { Ram.tallied ram t with
              health := { (Ram.tallied ram t).health with sequenceConflict := true } }) ∨
          (max t.maximumSequence (journalFloor card) ≠ 2 ^ 64 - 1 ∧
            result = (Ram.recovered ram t (max t.maximumSequence (journalFloor card)), true)))) card := by
  unfold recoverFloor
  refine wp_bind'.mpr (calm_loadSequenceJournal (wp_bind'.mpr (calm_loadSequenceJournal (wp_bind'.mpr
    (calm_loadSequenceJournal (wp_bind'.mpr ?_))))))
  rw [show max (((card.lookup journalPath).bind parseJournal).getD 0)
      (max (((card.lookup journalTemporary).bind parseJournal).getD 0)
        (((card.lookup journalBackup).bind parseJournal).getD 0)) = journalFloor card from rfl]
  have hpersist : ∀ c, wp device Calm (fun _ => True) (runIf c (persistSequence (journalFloor card)) true)
      (fun ok card' => ok = true ∧ Journaled card card') card := by
    intro c
    unfold runIf
    rw [wp_ite]
    split
    · refine wp_post (calm_persistSequence (journalFloor_lt card)) ?_
      rintro ok card' ⟨hok, hsame, hbelow⟩
      exact ⟨hok, hsame, fun h => hbelow (journalFloor_ne h) h⟩
    · exact (wp_pure ..).mpr ⟨rfl, Journaled.refl card⟩
  refine wp_post (hpersist _) ?_
  rintro ok card' ⟨rfl, hsame⟩
  rw [wp_ite, if_neg (by simp)]
  simp only
  rw [wp_ite]
  split
  · next h => exact (wp_pure ..).mpr ⟨hsame, Or.inl ⟨h, rfl, rfl⟩⟩
  · next h => exact (wp_pure ..).mpr ⟨hsame, Or.inr ⟨h, rfl⟩⟩

/-- **A recovery of intact segments** counts them and changes only journals. -/
theorem calm_recover (hintact : ∀ path ∈ recordFiles card, ∀ content, card.lookup path = some content →
      ∃ es, contentEntries j .readings content = some es) :
    wp device Calm (fun _ => True) (recover j ram)
      (fun result card' => Journaled card card' ∧
        ((max (cardTally j card).maximumSequence (journalFloor card) = 2 ^ 64 - 1 ∧ result.2 = false ∧
            result.1 = { Ram.tallied ram (cardTally j card) with
              health := { (Ram.tallied ram (cardTally j card)).health with sequenceConflict := true } }) ∨
          (max (cardTally j card).maximumSequence (journalFloor card) ≠ 2 ^ 64 - 1 ∧
            result = (Ram.recovered ram (cardTally j card)
              (max (cardTally j card).maximumSequence (journalFloor card)), true)))) card := by
  unfold recover
  refine wp_bind'.mpr (calm_listFiles trivial (wp_bind'.mpr ?_))
  refine wp_post (calm_recoverSegments_intact (recordFiles card) {} hintact) ?_
  rintro t card' ⟨rfl, rfl⟩
  exact calm_recoverFloor _

end PowerMonitor.Storage.CalmOperations
