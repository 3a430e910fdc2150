import Mathlib.Logic.Relation
import PowerMonitor.Storage.FaultyRecovery

/-! # The sequence journal

Three files hold the journal: it is written to a temporary file, the old journal becomes the backup, and
the temporary file takes its place. The number that counts is that of the journal, else of the backup,
else of the temporary file (`authority`). In runs in which nothing fails but the power, which may be lost
between any two file operations, it does not fall below a number that was persisted
(`confirmed_le_journalFloor`), as long as no operation starts with the temporary file alone: persisting
removes it first (`journal_lost`). -/

namespace PowerMonitor.Storage.SequenceJournal

open PowerMonitor.Lib.Binary PowerMonitor.Lib.Scan PowerMonitor.Lib.Json PowerMonitor.Lib.Program
open PowerMonitor.Storage.Reading PowerMonitor.Storage.Media PowerMonitor.Storage.ReadPage
open PowerMonitor.Storage.SdStorage PowerMonitor.Storage.Frames PowerMonitor.Storage.Recovery
open PowerMonitor.Storage.CalmOperations PowerMonitor.Storage.Standing PowerMonitor.Storage.FaultyRecovery
open Relation (ReflTransGen)

variable {j : JsonLibrary} {card : Card} {floor n : ℕ}

/-! ### The number that counts -/

/-- The number in a journal, zero if there is none. -/
def number (content : Option Bytes) : ℕ := (content.bind parseJournal).getD 0

/-- The journal, else its backup, else the temporary file. -/
def authority (card : Card) : Option Bytes :=
  (card.lookup journalPath).or ((card.lookup journalBackup).or (card.lookup journalTemporary))

/-- The temporary file is not the only one. -/
def Backed (card : Card) : Prop :=
  card.lookup journalPath ≠ none ∨ card.lookup journalBackup ≠ none ∨ card.lookup journalTemporary = none

instance (card : Card) : Decidable (Backed card) := by
  unfold Backed
  infer_instance

theorem number_decimal (hn : n < 2 ^ 64) : number (some (decimal n ++ [10])) = n := by
  simp [number, parseJournal_decimal hn]

theorem journalFloor_eq (card : Card) : journalFloor card = max (number (card.lookup journalPath))
    (max (number (card.lookup journalTemporary)) (number (card.lookup journalBackup))) := rfl

theorem number_authority_le (card : Card) : number (authority card) ≤ journalFloor card := by
  rw [journalFloor_eq, authority]
  cases card.lookup journalPath with
  | some content => exact Nat.le_max_left _ _
  | none =>
    rw [Option.none_or]
    cases card.lookup journalBackup with
    | some content => exact (Nat.le_max_right _ _).trans (Nat.le_max_right _ _)
    | none => exact (Nat.le_max_left _ _).trans (Nat.le_max_right _ _)

/-! ### Persisting -/

/-- Removing the temporary file, if it is not the only one. -/
theorem authority_without_temporary (hbacked : Backed card) {s : Card}
    (hnone : s.lookup journalTemporary = none) (hsame : SameExcept [journalTemporary] card s) :
    authority s = authority card := by
  obtain ⟨hne1, hne2, -⟩ := journal_ne
  unfold authority
  rw [hsame journalPath (by simpa using hne2.symm), hsame journalBackup (by simpa using hne1.symm), hnone]
  rcases hbacked with h | h | h
  · obtain ⟨content, hcontent⟩ := Option.ne_none_iff_exists'.mp h
    rw [hcontent, Option.some_or, Option.some_or]
  · obtain ⟨content, hcontent⟩ := Option.ne_none_iff_exists'.mp h
    rw [hcontent, Option.some_or, Option.some_or]
  · rw [h]

/-- Installing the number `n`, once there is no backup: what counts is the journal, then its backup or
the temporary file, then the new journal. -/
theorem calm_installSequence_holds (hn : n < 2 ^ 64) (hfloor : floor ≤ n)
    (htemporary : card.lookup journalTemporary = some (decimal n ++ [10]))
    (hbackup : card.lookup journalBackup = none) (hholds : floor ≤ number (authority card)) :
    wp device Calm (fun s => floor ≤ number (authority s)) (installSequence n)
      (fun ok s => ok = true ∧ number (authority s) = n) card := by
  obtain ⟨hne1, hne2, hne3⟩ := journal_ne
  have hfinish : ∀ s, s.lookup journalTemporary = some (decimal n ++ [10]) →
      s.lookup journalPath = none → floor ≤ number (authority s) → ∀ hadTarget,
      wp device Calm (fun s => floor ≤ number (authority s)) (do
        let renamed ← renameFile journalTemporary journalPath
        if !renamed then restoreBackup hadTarget
        else
          let installed ← loadSequenceJournal journalPath
          if installed = some n then do
            let _ ← removeFile journalBackup
            return true
          else
            let _ ← removeFile journalPath
            restoreBackup hadTarget) (fun ok s => ok = true ∧ number (authority s) = n) s := by
    intro s h1 h2 hs hadTarget
    refine wp_bind'.mpr (calm_renameFile hs h1 h2 ?_)
    rw [wp_ite, if_neg (by simp)]
    have hnumber : ∀ s' : Card, s'.lookup journalPath = some (decimal n ++ [10]) →
        number (authority s') = n := by
      intro s' h
      rw [authority, h, Option.some_or, number_decimal hn]
    have hjournal := hnumber ((s.erase journalTemporary).insert journalPath _) (AList.lookup_insert _)
    refine wp_bind'.mpr (wp_bind'.mpr (calm_readFile (by rwa [hjournal]) ((wp_pure ..).mpr ?_)))
    rw [AList.lookup_insert, Option.bind_some, parseJournal_decimal hn, wp_ite, if_pos rfl]
    refine wp_bind'.mpr (calm_removeFile (by rwa [hjournal]) ((wp_pure ..).mpr ⟨rfl, hnumber _ ?_⟩))
    rw [AList.lookup_erase_ne hne3.symm, AList.lookup_insert]
  unfold installSequence
  refine wp_bind'.mpr (calm_fileExists hholds (wp_bind'.mpr ?_))
  unfold runIf
  rw [wp_ite]
  cases htarget : card.lookup journalPath with
  | none =>
    rw [if_neg (by simp), wp_pure, wp_ite, if_neg (by simp)]
    exact hfinish card htemporary htarget hholds _
  | some content =>
    rw [if_pos (by simp)]
    refine calm_renameFile hholds htarget hbackup ?_
    rw [wp_ite, if_neg (by simp)]
    refine hfinish _ ?_ ?_ ?_ _
    · rw [AList.lookup_insert_ne hne1, AList.lookup_erase_ne hne2, htemporary]
    · rw [AList.lookup_insert_ne hne3.symm, AList.lookup_erase]
    · -- the backup counts now
      rw [authority, AList.lookup_insert_ne hne3.symm, AList.lookup_erase, Option.none_or,
        AList.lookup_insert, Option.some_or]
      rwa [authority, htarget, Option.some_or] at hholds

/-- **Persisting a larger number does not lose the last one**, if it does not start with the temporary
file alone. -/
theorem calm_persistSequence_holds (hn : n < 2 ^ 64) (hfloor : floor ≤ n) (hbacked : Backed card)
    (hholds : floor ≤ number (authority card)) :
    wp device Calm (fun s => floor ≤ number (authority s)) (persistSequence n)
      (fun ok s => ok = true ∧ number (authority s) = n) card := by
  obtain ⟨hne1, hne2, hne3⟩ := journal_ne
  have hremove : ∀ (path : Bytes) (s : Card) (f : Bool → CardProg Bool) (Q : Bool → Card → Prop),
      floor ≤ number (authority s) →
      (∀ s', s'.lookup path = none → SameExcept [path] s s' →
        wp device Calm (fun s => floor ≤ number (authority s)) (f true) Q s') →
      wp device Calm (fun s => floor ≤ number (authority s)) (removeIfPresent path >>= f) Q s := by
    intro path s f Q hs h
    refine wp_bind'.mpr (wp_bind'.mpr (calm_fileExists hs ?_))
    rw [wp_ite]
    split
    · next hpresent =>
      refine calm_removeFile hs ?_
      rw [hpresent]
      exact h _ (AList.lookup_erase ..) fun p hp => AList.lookup_erase_ne (by simpa using hp)
    · next habsent => exact (wp_pure ..).mpr (h s (by simpa using habsent) (SameExcept.refl _ _))
  unfold persistSequence
  refine hremove _ _ _ _ hholds fun card1 hnone1 hsame1 => ?_
  have hauthority1 := authority_without_temporary hbacked hnone1 hsame1
  rw [wp_ite, if_neg (by simp)]
  refine wp_bind'.mpr (calm_writeFile (by rwa [hauthority1]) ?_)
  rw [wp_ite, if_neg (by simp)]
  -- the temporary file counts only if there is no other
  have hholds2 : floor ≤ number (authority (card1.insert journalTemporary (decimal n ++ [10]))) := by
    rw [← hauthority1] at hholds
    unfold authority at hholds ⊢
    rw [AList.lookup_insert_ne hne2.symm, AList.lookup_insert_ne hne1.symm, AList.lookup_insert]
    cases h1 : card1.lookup journalPath with
    | some content => simpa [h1] using hholds
    | none =>
      cases h2 : card1.lookup journalBackup with
      | some content => simpa [h1, h2] using hholds
      | none => simpa [number_decimal hn] using hfloor
  refine wp_bind'.mpr (wp_bind'.mpr (calm_readFile hholds2 ((wp_pure ..).mpr ?_)))
  rw [AList.lookup_insert, Option.bind_some, parseJournal_decimal hn, wp_ite, if_neg (by simp)]
  refine hremove _ _ _ _ hholds2 fun card2 hnone2 hsame2 => ?_
  rw [wp_ite, if_neg (by simp)]
  have htemporary : card2.lookup journalTemporary = some (decimal n ++ [10]) := by
    rw [hsame2 _ (by simpa using hne1), AList.lookup_insert]
  refine calm_installSequence_holds hn hfloor htemporary hnone2 ?_
  unfold authority at hholds2 ⊢
  rw [AList.lookup_insert_ne hne2.symm] at hholds2
  rw [hsame2 _ (by simpa using hne3.symm), AList.lookup_insert_ne hne2.symm, hnone2, Option.none_or, htemporary]
  cases h1 : card1.lookup journalPath with
  | some content => simpa [h1] using hholds2
  | none => simpa [number_decimal hn] using hfloor

/-! ### Recovering -/

theorem authority_congr {s : Card} (h : ∀ p ∈ journalPaths, s.lookup p = card.lookup p) :
    authority s = authority card := by
  unfold authority
  rw [h _ mem_journalPaths.1, h _ mem_journalPaths.2.1, h _ mem_journalPaths.2.2]

/-- A recovery persists the largest number, if there is a temporary file or a backup with one. -/
def Persists (card : Card) : Prop :=
  number (card.lookup journalTemporary) ≠ 0 ∨ number (card.lookup journalBackup) ≠ 0

instance (card : Card) : Decidable (Persists card) := by
  unfold Persists
  infer_instance

/-- **What a recovery keeps of the journals**: what it keeps of the readings does not matter. -/
theorem calm_recover_journals {I : Card → Prop} (ram : Ram)
    (hcongr : ∀ s s' : Card, (∀ p ∈ journalPaths, s'.lookup p = s.lookup p) → I s → I s')
    {Q : Card → Prop} (hI : I card)
    (hunchanged : ∀ s, I s → (∀ p ∈ journalPaths, s.lookup p = card.lookup p) → ¬ Persists s → Q s)
    (hpersisted : ∀ s, I s → (∀ p ∈ journalPaths, s.lookup p = card.lookup p) → Persists s →
      wp device Calm I (persistSequence (journalFloor s)) (fun _ => Q) s) :
    wp device Calm I (recover j ram) (fun _ => Q) card := by
  unfold recover
  refine wp_bind'.mpr (calm_listFiles hI (wp_bind'.mpr ?_))
  have hrecord : ∀ p ∈ repaired (recordFiles card), p ∉ journalPaths := by
    intro p hp
    rcases List.mem_append.mp hp with h | h
    · exact record_notMem_journalPaths (isRecordFile_of_mem h)
    · obtain ⟨other, -, rfl⟩ := List.mem_map.mp h
      exact repair_notMem_journalPaths other
  have hjournals : ∀ s, SameExcept (repaired (recordFiles card)) card s →
      ∀ p ∈ journalPaths, s.lookup p = card.lookup p :=
    fun s hs p hp => hs p fun hp' => hrecord p hp' hp
  refine wp_mono (fun s hs => hcongr card s (hjournals s hs) hI) ?_
    (wp_sameExcept (all_recoverSegments (j := j) (recordFiles card) {}) card)
  intro t s hs
  have hsame := hjournals s hs
  have hIs := hcongr card s hsame hI
  have hread : ∀ (path : Bytes) (f : Option ℕ → CardProg (Ram × Bool)),
      wp device Calm I (f ((s.lookup path).bind parseJournal)) (fun _ => Q) s →
      wp device Calm I (loadSequenceJournal path >>= f) (fun _ => Q) s := fun path f h =>
    wp_bind'.mpr (wp_bind'.mpr (calm_readFile hIs ((wp_pure ..).mpr h)))
  have hpersist : wp device Calm I (runIf (decide (((s.lookup journalTemporary).bind parseJournal).getD 0 ≠ 0 ∨
      ((s.lookup journalBackup).bind parseJournal).getD 0 ≠ 0)) (persistSequence (journalFloor s)) true)
      (fun _ => Q) s := by
    unfold runIf
    rw [wp_ite]
    split
    · next hpersists => exact hpersisted s hIs hsame (by simpa [Persists, number] using hpersists)
    · next hpersists =>
      refine (wp_pure ..).mpr (hunchanged s hIs hsame fun h => hpersists ?_)
      simpa [Persists, number] using h
  unfold recoverFloor
  refine hread _ _ (hread _ _ (hread _ _ (wp_bind'.mpr (wp_post hpersist fun persisted s' hQ => ?_))))
  rw [wp_ite]
  split
  · exact (wp_pure ..).mpr hQ
  · simp only
    rw [wp_ite]
    split <;> exact (wp_pure ..).mpr hQ

/-! ### Runs -/

/-- The card, the last number a caller persisted, and the largest that was confirmed. -/
structure Ledger where
  card : Card := ∅
  last : ℕ := 0
  confirmed : ℕ := 0

/-- A number is persisted, until the events end. -/
def Ledger.persist (s : Ledger) (n : ℕ) (events : List Event) : Ledger where
  card := (run device (persistSequence n) events s.card).1
  last := n
  confirmed :=
    if (run device (persistSequence n) events s.card).2.map Prod.fst = some true then max s.confirmed n
    else s.confirmed

/-- The card is recovered, until the events end; the number that the recovery persists is confirmed too. -/
def Ledger.recover (j : JsonLibrary) (s : Ledger) (ram : Ram) (events : List Event) : Ledger where
  card := (run device (SdStorage.recover j ram) events s.card).1
  last := s.last
  confirmed :=
    if (run device (SdStorage.recover j ram) events s.card).2.isSome ∧ Persists s.card then
      max s.confirmed (journalFloor s.card)
    else s.confirmed

/-- **One operation**, in which nothing fails but the power; the numbers that are persisted increase. -/
inductive JournalStep (j : JsonLibrary) (s : Ledger) : Ledger → Prop
  | persist (n : ℕ) (events : List Event) (hlast : s.last < n) (hn : n < 2 ^ 64)
      (hcalm : Along device Calm (persistSequence n) events s.card) : JournalStep j s (s.persist n events)
  | recover (ram : Ram) (events : List Event)
      (hcalm : Along device Calm (SdStorage.recover j ram) events s.card) :
      JournalStep j s (s.recover j ram events)

/-- One operation that does not start with the temporary file alone. -/
def BackedStep (j : JsonLibrary) (s s' : Ledger) : Prop := Backed s.card ∧ JournalStep j s s'

/-- **What no such operation breaks.** -/
structure Recorded (s : Ledger) : Prop where
  holds : s.confirmed ≤ number (authority s.card)
  confirmed : s.confirmed ≤ s.last
  numbers : JournalNumbers (· ≤ s.last) s.card

theorem journalNumbers_congr {P : ℕ → Prop} {s s' : Card} (h : ∀ p ∈ journalPaths, s'.lookup p = s.lookup p)
    (hs : JournalNumbers P s) : JournalNumbers P s' := fun p hp m hm => hs p hp m (by rwa [← h p hp])

theorem journalFloor_le {bound : ℕ} (h : JournalNumbers (· ≤ bound) card) : journalFloor card ≤ bound := by
  have hnumber : ∀ path ∈ journalPaths, number (card.lookup path) ≤ bound := by
    intro path hpath
    unfold number
    cases hvalue : (card.lookup path).bind parseJournal with
    | none => simp
    | some m => exact h path hpath m hvalue
  rw [journalFloor_eq]
  exact Nat.max_le.mpr ⟨hnumber _ mem_journalPaths.1,
    Nat.max_le.mpr ⟨hnumber _ mem_journalPaths.2.1, hnumber _ mem_journalPaths.2.2⟩⟩

theorem Recorded.persist {s : Ledger} (hs : Recorded s) (hbacked : Backed s.card) {events : List Event}
    (hlast : s.last < n) (hn : n < 2 ^ 64) (hcalm : Along device Calm (persistSequence n) events s.card) :
    Recorded (s.persist n events) := by
  have hconfirmed := hs.confirmed
  have hnumbers : JournalNumbers (· ≤ n) s.card := fun p hp m hm => (hs.numbers p hp m hm).trans (by omega)
  have hout := wp_run (wp_and (calm_persistSequence_holds hn (by omega) hbacked hs.holds)
    (wp_of_all (fun o e s ho he hs => act_journalNumbers (P := (· ≤ n)) hn (Nat.le_refl n) ho he hs)
      (journal_persistSequence n) hnumbers)) hcalm
  unfold Ledger.persist
  generalize run device (persistSequence n) events s.card = out at hout
  obtain ⟨card', none | ⟨ok, rest⟩⟩ := out
  · obtain ⟨h1, h2⟩ := hout
    refine ⟨?_, ?_, h2⟩ <;> simp only [Option.map_none, reduceCtorEq, if_false]
    · exact h1
    · omega
  · obtain ⟨⟨rfl, h1⟩, h2⟩ := hout
    refine ⟨?_, ?_, h2⟩ <;> simp only [Option.map_some, if_true]
    · rw [h1]
      omega
    · omega

theorem Recorded.recover {s : Ledger} (hs : Recorded s) (hbacked : Backed s.card) {ram : Ram}
    {events : List Event} (hcalm : Along device Calm (SdStorage.recover j ram) events s.card) :
    Recorded (s.recover j ram events) := by
  have hconfirmed := hs.confirmed
  have hfloor := journalFloor_le hs.numbers
  have hwp : wp device Calm (fun card => s.confirmed ≤ number (authority card) ∧
        JournalNumbers (· ≤ s.last) card) (SdStorage.recover j ram)
      (fun _ card => (s.confirmed ≤ number (authority card) ∧ JournalNumbers (· ≤ s.last) card) ∧
        (Persists s.card → journalFloor s.card ≤ number (authority card))) s.card := by
    refine calm_recover_journals ram (fun s1 s2 h hI => ?_) ⟨hs.holds, hs.numbers⟩ (fun s1 hI h hnot => ?_)
      fun s1 hI h hpersists => ?_
    · exact ⟨by rw [authority_congr h]; exact hI.1, journalNumbers_congr h hI.2⟩
    · refine ⟨hI, fun hpersists => absurd ?_ hnot⟩
      unfold Persists at hpersists ⊢
      rwa [h _ mem_journalPaths.2.1, h _ mem_journalPaths.2.2]
    · rw [journalFloor_congr h]
      have hbacked1 : Backed s1 := by
        unfold Backed at hbacked ⊢
        rwa [h _ mem_journalPaths.1, h _ mem_journalPaths.2.1, h _ mem_journalPaths.2.2]
      have hle : s.confirmed ≤ journalFloor s.card := hs.holds.trans (number_authority_le _)
      refine wp_mono (fun _ h => h) ?_ (wp_and (calm_persistSequence_holds (journalFloor_lt _) hle hbacked1 hI.1)
        (wp_of_all (fun o e s ho he hs => act_journalNumbers (journalFloor_lt _) hfloor ho he hs)
          (journal_persistSequence _) hI.2))
      rintro ok card' ⟨⟨-, hnumber⟩, hnumbers⟩
      exact ⟨⟨by omega, hnumbers⟩, fun _ => Nat.le_of_eq hnumber.symm⟩
  have hout := wp_run hwp hcalm
  unfold Ledger.recover
  generalize run device (SdStorage.recover j ram) events s.card = out at hout
  obtain ⟨card', none | ⟨result, rest⟩⟩ := out
  · obtain ⟨h1, h2⟩ := hout
    refine ⟨?_, ?_, h2⟩ <;> simp only [Option.isSome_none, Bool.false_eq_true, false_and, if_false]
    · exact h1
    · exact hconfirmed
  · obtain ⟨⟨h1, h2⟩, h3⟩ := hout
    refine ⟨?_, ?_, h2⟩ <;> simp only [Option.isSome_some, true_and]
    · split
      · next hpersists => exact Nat.max_le.mpr ⟨h1, h3 hpersists⟩
      · exact h1
    · split <;> omega

/-- **The journal never falls below a number that was persisted**, in every run in which no operation
starts with the temporary file alone. -/
theorem confirmed_le_journalFloor {last : ℕ} (hcard : JournalNumbers (· ≤ last) card) {s : Ledger}
    (hrun : ReflTransGen (BackedStep j) { card := card, last := last } s) :
    s.confirmed ≤ journalFloor s.card := by
  have hrecorded : Recorded s := by
    induction hrun with
    | refl => exact ⟨Nat.zero_le _, Nat.zero_le _, hcard⟩
    | tail _ hstep ih =>
      obtain ⟨hbacked, hstep⟩ := hstep
      cases hstep with
      | persist n events hlast hn hcalm => exact ih.persist hbacked hlast hn hcalm
      | recover ram events hcalm => exact ih.recover hbacked hcalm
  exact hrecorded.holds.trans (number_authority_le _)

/-! ### A chain of interrupted recoveries -/

theorem along_done {α : Type} (p : CardProg α) (k : ℕ) (s : Card) :
    Along device Calm p (List.replicate k .done) s :=
  along_of_forall p s fun _ he _ _ => Or.inl (List.eq_of_mem_replicate he)

/-- One is persisted. -/
def persistedOne : Ledger := Ledger.persist {} 1 (List.replicate 20 .done)

/-- Two is in the temporary file and one in the backup when the power is lost. -/
def cutInstall : Ledger := persistedOne.persist 2 (List.replicate 6 .done)

/-- The recovery removed the backup. -/
def cutRecovery : Ledger := cutInstall.recover textJson {} (List.replicate 10 .done)

theorem cutRecovery_confirmed : cutRecovery.confirmed = 1 ∧ journalFloor cutRecovery.card = 2 ∧
    cutRecovery.confirmed ≤ journalFloor cutRecovery.card := by
  have h1 : BackedStep textJson {} persistedOne :=
    ⟨by decide, .persist 1 _ (by decide) (by decide) (along_done _ _ _)⟩
  have h2 : BackedStep textJson persistedOne cutInstall :=
    ⟨by decide, .persist 2 _ (by decide) (by decide) (along_done _ _ _)⟩
  have h3 : BackedStep textJson cutInstall cutRecovery :=
    ⟨by decide, .recover {} _ (along_done _ _ _)⟩
  refine ⟨by decide, by decide, @confirmed_le_journalFloor textJson ∅ 0 ?_ _
    (((ReflTransGen.single h1).tail h2).tail h3)⟩
  intro p _ m hm
  simp [AList.lookup_empty] at hm

/-- The next recovery removed the temporary file, the only one. -/
def cutTwice : Ledger := cutRecovery.recover textJson {} (List.replicate 6 .done)

/-- **The number that was persisted is lost**: the chain of interrupted recoveries leaves no journal. -/
theorem journal_lost : ReflTransGen (JournalStep textJson) {} cutTwice ∧
    cutTwice.confirmed = 1 ∧ journalFloor cutTwice.card = 0 := by
  have h1 : JournalStep textJson {} persistedOne :=
    .persist 1 _ (by decide) (by decide) (along_done _ _ _)
  have h2 : JournalStep textJson persistedOne cutInstall :=
    .persist 2 _ (by decide) (by decide) (along_done _ _ _)
  have h3 : JournalStep textJson cutInstall cutRecovery := .recover {} _ (along_done _ _ _)
  have h4 : JournalStep textJson cutRecovery cutTwice := .recover {} _ (along_done _ _ _)
  exact ⟨(((ReflTransGen.single h1).tail h2).tail h3).tail h4, by decide, by decide⟩

end PowerMonitor.Storage.SequenceJournal
