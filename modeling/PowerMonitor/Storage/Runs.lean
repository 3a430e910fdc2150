import Mathlib.Logic.Relation
import PowerMonitor.Storage.Counting

/-! # Runs in which nothing fails

The storage starts on a blank card and is asked to append, to reserve, to raise the floor, to recover or
to mount, in any order; the power may be lost between two operations. `Move` says what an operation can
do (`calm_program`): it stores a record, or it changes the variables and the journals (`Change`). `Kept`
is what no move breaks: the card is laid out, and the next sequence is above every stored one whenever
records can be appended. `Reachable.induct` is the induction over runs. -/

namespace PowerMonitor.Storage.Runs

open PowerMonitor.Lib.Binary PowerMonitor.Lib.Json PowerMonitor.Lib.Program
open PowerMonitor.Storage.RecordFormat PowerMonitor.Storage.Reading PowerMonitor.Storage.Media
open PowerMonitor.Storage.Segment PowerMonitor.Storage.ReadPage PowerMonitor.Storage.PageSpec
open PowerMonitor.Storage.SdStorage PowerMonitor.Storage.Frames PowerMonitor.Storage.Intact
open PowerMonitor.Storage.Recovery PowerMonitor.Storage.Layout PowerMonitor.Storage.CalmOperations
open PowerMonitor.Storage.Counting
open Relation (ReflTransGen)

/-! ### Operations -/

/-- The card and the variables of the storage. -/
structure State where
  card : Card := ∅
  ram : Ram := {}

/-- What the storage is asked to do; a restart forgets the variables. -/
inductive Operation
  | append (record : IntervalRecord) (binding : CardBinding)
  | reserveUnavailableIntervals (count : UInt64) (binding : CardBinding)
  | advanceSequenceFloor (acknowledgedSequence : UInt64) (binding : CardBinding)
  | recover
  | remountPreferred (requiredSequenceFloor : UInt64)
  | restart

def Operation.program (j : JsonLibrary) (fingerprint : Bytes) (ram : Ram) :
    Operation → CardProg (Ram × Bool)
  | append record binding => SdStorage.append j fingerprint record binding ram
  | reserveUnavailableIntervals count binding =>
    SdStorage.reserveUnavailableIntervals j fingerprint count.toNat binding ram
  | advanceSequenceFloor acknowledgedSequence binding =>
    SdStorage.advanceSequenceFloor j fingerprint acknowledgedSequence.toNat binding ram
  | recover => SdStorage.recover j ram
  | remountPreferred requiredSequenceFloor =>
    SdStorage.remountPreferred j fingerprint requiredSequenceFloor.toNat ram
  | restart => return ({}, true)

/-- The line of a record fits the buffer of a reader, and its file stays below 4 GiB. The texts of a
record are short, and the file system has no larger files. -/
def Fits (j : JsonLibrary) (s : State) (r : IntervalRecord) : Prop :=
  (recordEnvelope j (assigned s.ram r)).length ≤ maximumLine ∧
    ((s.card.lookup (recordPath r)).getD []).length + (recordEnvelope j (assigned s.ram r)).length < 2 ^ 32

def Operation.Fits (j : JsonLibrary) (s : State) : Operation → Prop
  | append record _ => Runs.Fits j s record
  | _ => True

/-- **One operation**, in which nothing fails. -/
inductive Step (j : JsonLibrary) (fingerprint : Bytes) (s : State) : State → Prop
  | run {s' : State} (operation : Operation) (events rest : List Event) (ok : Bool)
      (hfits : operation.Fits j s)
      (hcalm : Along device Calm (operation.program j fingerprint s.ram) events s.card)
      (hrun : run device (operation.program j fingerprint s.ram) events s.card =
        (s'.card, some ((s'.ram, ok), rest))) : Step j fingerprint s s'

/-- The card holds nothing but its manifest. -/
def Blank (card : Card) : Prop := ∀ path, path ≠ manifestPath → card.lookup path = none

/-- The states of the storage that a run from a blank card reaches. -/
def Reachable (j : JsonLibrary) (fingerprint : Bytes) (s : State) : Prop :=
  ∃ card, Blank card ∧ ReflTransGen (Step j fingerprint) { card := card } s

/-- The state after an operation in which nothing fails and the card has room. -/
def State.after (j : JsonLibrary) (fingerprint : Bytes) (s : State) (operation : Operation) : State where
  card := (run device (operation.program j fingerprint s.ram) (List.replicate 100 .done) s.card).1
  ram := ((run device (operation.program j fingerprint s.ram) (List.replicate 100 .done) s.card).2.map
    fun result => result.1.1).getD {}

theorem step_after {j : JsonLibrary} {fingerprint : Bytes} {s : State} {operation : Operation}
    (hfits : operation.Fits j s)
    (hdone : (run device (operation.program j fingerprint s.ram) (List.replicate 100 .done)
      s.card).2.isSome = true) :
    Step j fingerprint s (s.after j fingerprint operation) := by
  obtain ⟨⟨⟨ram, ok⟩, rest⟩, hresult⟩ := Option.isSome_iff_exists.mp hdone
  refine .run operation (List.replicate 100 .done) rest ok hfits ?_ ?_
  · exact along_of_forall _ _ fun e he _ _ => Or.inl (List.eq_of_mem_replicate he)
  · simp only [State.after, hresult, Option.map_some, Option.getD_some]
    rw [← hresult]

/-! ### What an operation can do -/

/-- What an operation that stores no record can do when nothing fails. -/
inductive Change (j : JsonLibrary) (s : State) : State → Prop
  | flags {s' : State} (hjournals : Journaled s.card s'.card) (hflags : SameButFlags s.ram s'.ram) :
      Change j s s'
  | restarted : Change j s ⟨s.card, {}⟩
  | reserved {count : ℕ} {card' : Card} (hjournals : Journaled s.card card')
      (hroom : s.ram.nextSequence + count ≤ 2 ^ 64 - 1) : Change j s ⟨card', Ram.reserved s.ram count⟩
  | advanced {acknowledged : ℕ} {card' : Card} (hjournals : Journaled s.card card')
      (hnext : s.ram.nextSequence ≤ acknowledged) (hnewest : s.ram.health.newestSequence ≤ acknowledged)
      (hlast : acknowledged < 2 ^ 64 - 1) : Change j s ⟨card', Ram.advanced s.ram acknowledged⟩
  | recovered {s' : State} (hjournals : Journaled s.card s'.card)
      (hcommitted : max (cardTally j s.card).maximumSequence (journalFloor s.card) ≠ 2 ^ 64 - 1)
      (hnext : s'.ram.nextSequence =
        max (cardTally j s.card).maximumSequence (journalFloor s.card) + 1)
      (hnewest : s'.ram.health.newestSequence = (cardTally j s.card).maximumSequence)
      (hsyncable : s'.ram.health.newestSyncableSequence = (cardTally j s.card).newestSyncableSequence) :
      Change j s s'
  | exhausted {s' : State} (hjournals : Journaled s.card s'.card)
      (hcommitted : max (cardTally j s.card).maximumSequence (journalFloor s.card) = 2 ^ 64 - 1)
      (hnext : s'.ram.nextSequence = s.ram.nextSequence)
      (hwritable : s'.ram.health.writable = true → s.ram.health.writable = true)
      (hsyncable : s'.ram.health.newestSyncableSequence = (cardTally j s.card).newestSyncableSequence) :
      Change j s s'

/-- **What an operation can do** when nothing fails. -/
inductive Move (j : JsonLibrary) (s : State) : State → Prop
  | change {s' : State} (hchange : Change j s s') : Move j s s'
  | append {r : IntervalRecord} {card' : Card} (haccepts : Accepts s.ram) (hfits : Fits j s r)
      (hext : Extends j s.card card' (assigned s.ram r)) : Move j s ⟨card', Ram.appended s.ram r⟩

variable {j : JsonLibrary} {fingerprint : Bytes} {s s' : State} {held : Bytes → List IntervalRecord}

/-- No repair is pending. -/
def Unrepaired (card : Card) : Prop := ∀ path, ascii ".repair" <:+ path → card.lookup path = none

theorem collectFiles_repair {card : Card} (h : Unrepaired card) :
    collectFiles (ascii "/POWERMON/records/") (ascii ".repair") card = [] := by
  unfold collectFiles
  rw [List.filter_eq_nil_iff]
  intro path hpath hsuffix
  rw [Bool.and_eq_true, List.isSuffixOf_iff_suffix] at hsuffix
  have := AList.lookup_isSome.mpr (AList.mem_keys.mpr hpath)
  rw [h path hsuffix.2] at this
  cases this

/-- What a recovery can do. -/
theorem change_recover (hj : j.Lawful) (hlaid : LaidOut j s.card held) :
    wp device Calm (fun _ => True) (recover j s.ram)
      (fun result card' => (result.2 = false ∧ Change j s ⟨card', result.1⟩) ∨
        (result.2 = true ∧ ∀ ram', ram'.nextSequence = result.1.nextSequence →
          ram'.health.newestSequence = result.1.health.newestSequence →
          ram'.health.newestSyncableSequence = result.1.health.newestSyncableSequence →
          Change j s ⟨card', ram'⟩)) s.card := by
  refine wp_post (calm_recover fun path hpath => decodable_of_laidOut hj hlaid hpath) ?_
  rintro ⟨ram', ok⟩ card' ⟨hjournals, ⟨hlast, hok, hram⟩ | ⟨hcommitted, hresult⟩⟩
  · simp only at hok hram
    subst hram
    exact Or.inl ⟨hok, .exhausted hjournals hlast rfl id rfl⟩
  · cases hresult
    exact Or.inr ⟨rfl, fun ram' h1 h2 h3 => .recovered hjournals hcommitted h1 h2 h3⟩

/-- Raising the floor, after some changes. -/
theorem change_advance {acknowledged : ℕ} {binding : CardBinding} (hrange : acknowledged < 2 ^ 64) :
    wp device Calm (fun _ => True) (advanceSequenceFloor j fingerprint acknowledged binding s.ram)
      (fun result card' => Change j s ⟨card', result.1⟩) s.card := by
  refine wp_post (calm_advance hrange) ?_
  rintro ⟨ram', ok⟩ card' ⟨hjournals, hflags | ⟨hnext, hnewest, hlast, hram⟩⟩
  · exact .flags hjournals hflags
  · simp only at hram
    subst hram
    exact .advanced hjournals hnext hnewest (by omega)

/-- What a mount can do: the flags, a recovery, and the floor. -/
theorem change_remountPreferred (hj : j.Lawful) (hlaid : LaidOut j s.card held)
    (hrepairs : Unrepaired s.card) {required : ℕ} (hrange : required < 2 ^ 64) :
    wp device Calm (fun _ => True) (remountPreferred j fingerprint required s.ram)
      (fun result card' => ReflTransGen (Move j) s ⟨card', result.1⟩) s.card := by
  have hmounting : ReflTransGen (Move j) s ⟨s.card, Ram.mounting s.ram⟩ :=
    .single (.change (.flags (Journaled.refl _) ⟨rfl, rfl, rfl, rfl, fun h => by cases h⟩))
  unfold remountPreferred
  refine wp_bind'.mpr (calm_listFiles trivial ?_)
  rw [collectFiles_repair hrepairs]
  refine wp_bind'.mpr ((wp_pure ..).mpr ?_)
  rw [wp_ite, if_neg (by simp)]
  refine wp_bind'.mpr (wp_post
    (change_recover (s := ⟨s.card, Ram.mounting s.ram⟩) hj hlaid) ?_)
  rintro ⟨ram1, ok⟩ card1 (⟨hok, hchange⟩ | ⟨hok, hchange⟩)
  · simp only at hok
    subst hok
    rw [wp_ite, if_pos (by simp)]
    exact (wp_pure ..).mpr (hmounting.tail (.change hchange))
  · simp only at hok
    subst hok
    rw [wp_ite, if_neg (by simp)]
    simp only
    rw [wp_ite]
    split
    · exact (wp_pure ..).mpr (hmounting.tail (.change (hchange _ rfl rfl rfl)))
    · -- the floor is raised on a card that is recovered and writable
      generalize hram2 : ({ ram1 with
        health := { ram1.health with writable := true, sequenceReconciliationInProgress := true } } : Ram) = ram2
      have hrecovered : Change j ⟨s.card, Ram.mounting s.ram⟩ ⟨card1, ram2⟩ := by
        rw [← hram2]
        exact hchange _ rfl rfl rfl
      refine wp_bind'.mpr (wp_post (change_advance (s := ⟨card1, ram2⟩) hrange) ?_)
      rintro ⟨ram3, ready⟩ card3 hadvanced
      refine (wp_pure ..).mpr (((hmounting.tail (.change hrecovered)).tail (.change hadvanced)).tail ?_)
      exact .change (.flags (Journaled.refl _) ⟨rfl, rfl, rfl, rfl, id⟩)

/-- **What an operation does** is a sequence of moves. -/
theorem calm_program (hj : j.Lawful) (hlaid : LaidOut j s.card held) (hrepairs : Unrepaired s.card)
    (hnext : s.ram.nextSequence < 2 ^ 64) {operation : Operation} (hfits : operation.Fits j s) :
    wp device Calm (fun _ => True) (operation.program j fingerprint s.ram)
      (fun result card' => ReflTransGen (Move j) s ⟨card', result.1⟩) s.card := by
  cases operation with
  | append r binding =>
    have hsize : ((s.card.lookup (recordPath r)).getD []).length < 2 ^ 64 := by
      have := hfits.2
      omega
    refine wp_post (calm_append hnext hsize) ?_
    rintro result card' (⟨rfl, rfl⟩ | ⟨rfl, haccepts, hext⟩)
    · exact .refl
    · exact .single (.append haccepts hfits hext)
  | reserveUnavailableIntervals count binding =>
    refine wp_post calm_reserve ?_
    rintro ⟨ram', ok⟩ card' ⟨hjournals, hram | ⟨hroom, -, hram⟩⟩
    · simp only at hram
      subst hram
      exact .single (.change (.flags hjournals ⟨rfl, rfl, rfl, rfl, id⟩))
    · simp only at hram
      subst hram
      exact .single (.change (.reserved hjournals hroom))
  | advanceSequenceFloor acknowledged binding =>
    refine wp_post (change_advance acknowledged.toNat_lt) ?_
    intro result card' hchange
    exact .single (.change hchange)
  | recover =>
    refine wp_post (change_recover hj hlaid) ?_
    rintro result card' (⟨-, hchange⟩ | ⟨-, hchange⟩)
    · exact .single (.change hchange)
    · exact .single (.change (hchange _ rfl rfl rfl))
  | remountPreferred required => exact change_remountPreferred hj hlaid hrepairs required.toNat_lt
  | restart => exact (wp_pure ..).mpr (.single (.change .restarted))

/-- A step is a sequence of moves. -/
theorem moves_of_step (hj : j.Lawful) (hlaid : LaidOut j s.card held) (hrepairs : Unrepaired s.card)
    (hnext : s.ram.nextSequence < 2 ^ 64) (hstep : Step j fingerprint s s') :
    ReflTransGen (Move j) s s' := by
  obtain ⟨operation, events, rest, ok, hfits, hcalm, hrun⟩ := hstep
  have h := wp_run (calm_program hj hlaid hrepairs hnext hfits) hcalm
  rw [hrun] at h
  exact h

/-! ### What no move breaks -/

/-- A sidecar describes its segment as it is, with its last sequence, or as it was when it was shorter. -/
def SidecarsExact (j : JsonLibrary) (card : Card) (held : Bytes → List IntervalRecord) : Prop :=
  ∀ x size index metadata, acceptMetadata j .readings (recordStem x)
      (card.lookup (metadataPath (recordStem x))) (some size) (some index) = some metadata →
    size ≤ (fileOf j (held x)).length ∧ (size = (fileOf j (held x)).length →
      IsGreatest {n | ∃ r ∈ held x, r.sequence.toNat = n} metadata.lastSequence)

/-- **What no move breaks.** -/
structure Kept (j : JsonLibrary) (s : State) (held : Bytes → List IntervalRecord) : Prop where
  laidOut : LaidOut j s.card held
  unrepaired : Unrepaired s.card
  sidecars : SidecarsExact j s.card held
  journals : JournalsBelow s.card
  below : ∀ n ∈ stored held, n < 2 ^ 64 - 1
  next : s.ram.nextSequence < 2 ^ 64
  newest : s.ram.health.newestSequence < s.ram.nextSequence
  syncable : s.ram.health.newestSyncableSequence ≤ s.ram.health.newestSequence
  fresh : s.ram.health.writable = true → ∀ n ∈ stored held, n < s.ram.nextSequence

theorem Blank.lookup_eq_none {card : Card} (h : Blank card) {suffix path : Bytes} (hpath : suffix <:+ path)
    (hne : suffix.reverse.take 4 ≠ (ascii ".json").reverse.take 4) (hlen : 4 ≤ suffix.length) :
    card.lookup path = none :=
  h path (ne_of_suffix hpath manifest_suffix hne hlen (by decide))

theorem Blank.journal {card : Card} (h : Blank card) {path : Bytes} (hpath : path ∈ journalPaths) :
    card.lookup path = none :=
  h path fun heq => manifest_notMem_journalPaths (heq ▸ hpath)

theorem Blank.sidecar {card : Card} (h : Blank card) (path : Bytes) : card.lookup (metadataPath path) = none :=
  h _ (metadataPath_ne_manifest path)

theorem laidOut_blank {card : Card} (h : Blank card) : LaidOut j card fun _ => [] := by
  refine laidOut_empty.congr (fun path hpath => ?_) fun x => ?_
  · rw [AList.lookup_empty]
    exact h.lookup_eq_none (pmr_suffix hpath) (by decide) (by decide)
  · rw [AList.lookup_empty]
    exact h.lookup_eq_none (indexStem_suffix x) (by decide) (by decide)

theorem kept_blank {card : Card} (h : Blank card) : Kept j { card := card } fun _ => [] where
  laidOut := laidOut_blank h
  unrepaired path hpath := h.lookup_eq_none hpath (by decide) (by decide)
  sidecars x size index metadata haccept := by
    rw [h.sidecar] at haccept
    cases haccept
  journals path hpath := by simp [h.journal hpath]
  below n hn := by
    obtain ⟨x, r, hr, -⟩ := hn
    cases hr
  next := show 1 < 2 ^ 64 by decide
  newest := show 0 < 1 by decide
  syncable := Nat.le_refl 0
  fresh hw := by cases hw

theorem accept_sizes {path : Bytes} {sidecar : Option Bytes} {recordSize indexSize : Option ℕ}
    {metadata : SegmentMetadata}
    (h : acceptMetadata j .readings path sidecar recordSize indexSize = some metadata) :
    ∃ size index, recordSize = some size ∧ indexSize = some index := by
  unfold acceptMetadata at h
  split at h
  · cases h
  · split at h
    · cases h
    · unfold acceptDocument at h
      simp only at h
      split at h
      · cases h
      · split at h
        · cases h
        · split at h
          · cases h
          · next hrecord =>
            split at h
            · cases h
            · next hindex =>
              simp only [not_or, not_not] at hrecord
              simp only [true_and, not_or, not_not] at hindex
              exact ⟨_, _, hrecord.2, hindex.2⟩

theorem Kept.exact (hj : j.Lawful) (hk : Kept j s held) :
    ∀ path ∈ recordFiles s.card, ExactSidecar j s.card path := by
  intro path hpath metadata hmeta
  obtain ⟨⟨content, hfile⟩, hrecord⟩ := mem_recordFiles.mp hpath
  obtain ⟨x, rfl⟩ := hk.laidOut.stems path hrecord (by rw [hfile]; rfl)
  have hcontent := (hk.laidOut.laid x).file
  rw [hfile, Option.getD_some] at hcontent
  have haccept : acceptMetadata j .readings (recordStem x) (s.card.lookup (metadataPath (recordStem x)))
      ((s.card.lookup (recordStem x)).map List.length)
      ((s.card.lookup (pairedIndexPath (recordStem x))).map List.length) = some metadata := hmeta
  obtain ⟨size, index, hsize, hindex⟩ := accept_sizes haccept
  rw [hsize, hindex] at haccept
  rw [hfile, hcontent, Option.map_some, Option.some.injEq] at hsize
  have hlast := (hk.sidecars x size index metadata haccept).2 hsize.symm
  rw [entriesAt_recordStem hj hk.laidOut]
  simpa [entryOf] using hlast

/-- Changes to the journals and the variables. -/
theorem Kept.journaled (hk : Kept j s held) (hjournals : Journaled s.card s'.card)
    (hnext : s'.ram.nextSequence < 2 ^ 64)
    (hnewest : s'.ram.health.newestSequence < s'.ram.nextSequence)
    (hsyncable : s'.ram.health.newestSyncableSequence ≤ s'.ram.health.newestSequence)
    (hfresh : s'.ram.health.writable = true → ∀ n ∈ stored held, n < s'.ram.nextSequence) :
    Kept j s' held where
  laidOut := hk.laidOut.of_journals hjournals.same
  unrepaired path hpath := by
    have hnot : path ∉ journalPaths := notMem_journalPaths hpath (by decide) (by decide)
      (by decide) (by decide)
    rw [hjournals.same path hnot]
    exact hk.unrepaired path hpath
  sidecars x size index metadata h := by
    rw [hjournals.same _ (metadata_notMem_journalPaths _)] at h
    exact hk.sidecars x size index metadata h
  journals := hjournals.below hk.journals
  below := hk.below
  next := hnext
  newest := hnewest
  syncable := hsyncable
  fresh := hfresh

/-- The records held once `r` is stored. -/
def heldWith (held : Bytes → List IntervalRecord) (r : IntervalRecord) : Bytes → List IntervalRecord :=
  Function.update held (stem r) (held (stem r) ++ [r])

theorem mem_heldWith {r t : IntervalRecord} {x : Bytes} :
    t ∈ heldWith held r x ↔ t ∈ held x ∨ (x = stem r ∧ t = r) := by
  unfold heldWith
  by_cases hx : x = stem r
  · subst hx
    simp
  · simp [hx]

theorem mem_stored_heldWith {r : IntervalRecord} {n : ℕ} :
    n ∈ stored (heldWith held r) ↔ n ∈ stored held ∨ n = r.sequence.toNat := by
  constructor
  · rintro ⟨x, t, ht, rfl⟩
    rcases mem_heldWith.mp ht with ht | ⟨-, rfl⟩
    · exact Or.inl ⟨x, t, ht, rfl⟩
    · exact Or.inr rfl
  · rintro (⟨x, t, ht, rfl⟩ | rfl)
    · exact ⟨x, t, mem_heldWith.mpr (Or.inl ht), rfl⟩
    · exact ⟨stem r, r, mem_heldWith.mpr (Or.inr ⟨rfl, rfl⟩), rfl⟩

theorem assigned_sequence {ram : Ram} (h : ram.nextSequence < 2 ^ 64) (r : IntervalRecord) :
    (assigned ram r).sequence.toNat = ram.nextSequence := by
  simp only [assigned, UInt64.toNat_ofNat']
  omega

/-- The variables once a record is stored. -/
theorem appended_sequences (ram : Ram) (r : IntervalRecord) :
    (Ram.appended ram r).nextSequence = ram.nextSequence + 1 ∧
      (Ram.appended ram r).health.newestSequence = ram.nextSequence ∧
      (Ram.appended ram r).health.newestSyncableSequence =
        if syncableRecord r then max ram.health.newestSyncableSequence ram.nextSequence
        else ram.health.newestSyncableSequence := by
  refine ⟨rfl, rfl, ?_⟩
  simp only [Ram.appended]
  split <;> rfl

/-- Storing a record. -/
theorem Kept.appended (hk : Kept j s held) {r : IntervalRecord} {card' : Card} (haccepts : Accepts s.ram)
    (hfits : Fits j s r) (hext : Extends j s.card card' (assigned s.ram r)) :
    Kept j ⟨card', Ram.appended s.ram r⟩ (heldWith held (assigned s.ram r)) := by
  obtain ⟨-, hwritable, hlast⟩ := haccepts
  have hsequence := assigned_sequence hk.next r
  have hfresh := hk.fresh hwritable
  have hnext := hk.next
  have hnewest := hk.newest
  have hsyncable := hk.syncable
  obtain ⟨hnext', hnewest', hsyncable'⟩ := appended_sequences s.ram r
  have hfile : (fileOf j (held (stem (assigned s.ram r)))).length =
      ((s.card.lookup (recordPath r)).getD []).length := by
    rw [recordPath_eq, ← (hk.laidOut.laid _).file]
    rfl
  have hother : ∀ path, path ≠ recordPath (assigned s.ram r) → path ≠ indexPath (assigned s.ram r) →
      path ∉ journalPaths → card'.lookup path = s.card.lookup path :=
    fun path h1 h2 h3 => hext.others path (by simp [h1, h2, h3])
  refine ⟨?_, ?_, ?_, hext.journals hk.journals, ?_, ?_, ?_, ?_, ?_⟩
  · refine hk.laidOut.append hext hfits.1 ?_ ?_
    · rw [hfile]
      exact hfits.2
    · intro t ht
      rw [hsequence]
      exact hfresh _ ⟨_, t, ht, rfl⟩
  · intro path hpath
    rw [hother path]
    · exact hk.unrepaired path hpath
    · rw [recordPath_eq]
      exact ne_of_suffix hpath (recordStem_suffix _) (by decide) (by decide)
        (by decide)
    · rw [indexPath_eq]
      exact ne_of_suffix hpath (indexStem_suffix _) (by decide) (by decide)
        (by decide)
    · exact notMem_journalPaths hpath (by decide) (by decide) (by decide)
        (by decide)
  · intro x size index metadata haccept
    rw [hother _] at haccept
    · obtain ⟨hsize, hexact⟩ := hk.sidecars x size index metadata haccept
      by_cases hx : x = stem (assigned s.ram r)
      · -- the file is longer than the sidecar says
        subst hx
        have hpos := length_recordEnvelope_pos j (assigned s.ram r)
        rw [heldWith, Function.update_self, fileOf_append, List.length_append]
        exact ⟨by omega, fun h => by omega⟩
      · rw [heldWith, Function.update_of_ne hx]
        exact ⟨hsize, hexact⟩
    · rw [recordPath_eq]
      exact (metadata_ne (isRecordFile_recordStem _)).1
    · rw [indexPath_eq]
      exact ne_of_suffix (metadata_suffix _) (indexStem_suffix _) (by decide) (by decide)
        (by decide)
    · exact metadata_notMem_journalPaths _
  · intro n hn
    rcases mem_stored_heldWith.mp hn with hn | rfl
    · exact hk.below n hn
    · omega
  · rw [hnext']
    omega
  · rw [hnext', hnewest']
    omega
  · rw [hnewest', hsyncable']
    split <;> omega
  · intro _ n hn
    rw [hnext']
    rcases mem_stored_heldWith.mp hn with hn | rfl
    · have := hfresh n hn
      omega
    · omega

/-- A recovery finds every stored sequence, and room for more. -/
theorem Kept.tally (hj : j.Lawful) (hk : Kept j s held) :
    (∀ n ∈ stored held, n ≤ (cardTally j s.card).maximumSequence) ∧
      max (cardTally j s.card).maximumSequence (journalFloor s.card) < 2 ^ 64 - 1 := by
  obtain ⟨hmem, hbound⟩ := greatest_cardTally hj hk.laidOut (hk.exact hj)
  refine ⟨fun n hn => hbound (Or.inr hn), ?_⟩
  have hjournal := journalFloor_ne hk.journals
  have hrange := journalFloor_lt s.card
  have hmaximum : (cardTally j s.card).maximumSequence < 2 ^ 64 - 1 := by
    rcases hmem with h | h
    · rw [h]
      decide
    · exact hk.below _ h
  omega

/-- **No change breaks it.** -/
theorem Kept.change (hj : j.Lawful) (hk : Kept j s held) (hchange : Change j s s') : Kept j s' held := by
  have hnext := hk.next
  have hnewest := hk.newest
  have hsyncable := hk.syncable
  cases hchange with
  | flags hjournals hflags =>
    obtain ⟨h1, -, h2, h3, h4⟩ := hflags
    refine hk.journaled hjournals (by omega) (by omega) (by omega) fun hw n hn => ?_
    rw [h1]
    exact hk.fresh (h4 hw) n hn
  | restarted =>
    exact hk.journaled (Journaled.refl _) (show 1 < 2 ^ 64 by decide) (show 0 < 1 by decide) (Nat.le_refl 0)
      fun hw => by cases hw
  | @reserved count card' hjournals hroom =>
    refine hk.journaled hjournals ?_ ?_ ?_ fun hw n hn => ?_
    · simp only [Ram.reserved]
      omega
    · simp only [Ram.reserved]
      omega
    · simp only [Ram.reserved]
      omega
    · have := hk.fresh hw n hn
      simp only [Ram.reserved]
      omega
  | @advanced acknowledged card' hjournals hnext' hnewest' hlast =>
    refine hk.journaled hjournals ?_ ?_ hsyncable fun hw n hn => ?_
    · simp only [Ram.advanced]
      omega
    · simp only [Ram.advanced]
      omega
    · have := hk.fresh hw n hn
      simp only [Ram.advanced]
      omega
  | recovered hjournals hcommitted hnext' hnewest' hsyncable' =>
    obtain ⟨hall, hroom⟩ := hk.tally hj
    have hle := syncable_le_cardTally hj hk.laidOut
    refine hk.journaled hjournals (by omega) (by omega) (by omega) fun _ n hn => ?_
    have := hall n hn
    omega
  | exhausted hjournals hcommitted =>
    obtain ⟨-, hroom⟩ := hk.tally hj
    omega

/-! ### Runs -/

section Induction

variable {P : State → (Bytes → List IntervalRecord) → Prop}

theorem Kept.moves (hj : j.Lawful)
    (hchange : ∀ s s' held, Kept j s held → P s held → Change j s s' → P s' held)
    (happend : ∀ s held r card', Kept j s held → P s held → Accepts s.ram →
      Extends j s.card card' (assigned s.ram r) →
      P ⟨card', Ram.appended s.ram r⟩ (heldWith held (assigned s.ram r)))
    (hk : Kept j s held) (hP : P s held) (hmoves : ReflTransGen (Move j) s s') :
    ∃ held', Kept j s' held' ∧ P s' held' := by
  induction hmoves with
  | refl => exact ⟨held, hk, hP⟩
  | tail _ hmove ih =>
    obtain ⟨held', hk', hP'⟩ := ih
    cases hmove with
    | change h => exact ⟨held', hk'.change hj h, hchange _ _ _ hk' hP' h⟩
    | append haccepts hfits hext =>
      exact ⟨_, hk'.appended haccepts hfits hext, happend _ _ _ _ hk' hP' haccepts hext⟩

/-- **Induction over runs**: what holds of a blank card and no move breaks, holds of every state a run
reaches. -/
theorem Reachable.induct (hj : j.Lawful) (hblank : ∀ card, Blank card → P { card := card } fun _ => [])
    (hchange : ∀ s s' held, Kept j s held → P s held → Change j s s' → P s' held)
    (happend : ∀ s held r card', Kept j s held → P s held → Accepts s.ram →
      Extends j s.card card' (assigned s.ram r) →
      P ⟨card', Ram.appended s.ram r⟩ (heldWith held (assigned s.ram r)))
    (h : Reachable j fingerprint s) : ∃ held, Kept j s held ∧ P s held := by
  obtain ⟨card, hcard, hrun⟩ := h
  induction hrun with
  | refl => exact ⟨_, kept_blank hcard, hblank card hcard⟩
  | tail _ hstep ih =>
    obtain ⟨held, hk, hP⟩ := ih
    exact hk.moves hj hchange happend hP (moves_of_step hj hk.laidOut hk.unrepaired hk.next hstep)

end Induction

end PowerMonitor.Storage.Runs
