import PowerMonitor.Core.Quiescence
import PowerMonitor.Reset.Preparation
import PowerMonitor.Reset.SideJournals

/-! # What an abandoned preparation leaves

A preparation that is dropped after the gates were closed may leave what the task staged for it: the journal then
stands in the way of the next reset. It does so in two ways only. A prepare is rejected with its journal not yet
completed, or something is staged after the rejection; and a task that was interrupted by a whole opening and closing
of the gates reports that nothing is left while a new sample waits. In all other runs, a device whose gates are open and
that prepares nothing has a journal that is completed, or none. -/

namespace PowerMonitor.Reset.Abandonment

open PowerMonitor.Lib.Binary PowerMonitor.Lib.Json PowerMonitor.Lib.Program PowerMonitor.Storage.Reading
open PowerMonitor.Core.IntervalAggregator PowerMonitor.Core.Aggregation PowerMonitor.Core.AggregationTask
open PowerMonitor.Core.Quiescence
open PowerMonitor.Reset.Policy PowerMonitor.Reset.Operation PowerMonitor.Reset.DrainJournal
open PowerMonitor.Reset.Preparation PowerMonitor.Reset.SideJournals
open PowerMonitor.Reset.Gates (readingGateRequired)
open PowerMonitor.Reset.RecordStore (asked)

/-! ### The condition -/

/-- There is no journal, or it is completed. -/
def Settled (slots : Slots) : Prop := ∀ d, slots.active = some d → d.state = .completed

/-- A prepare is accepted or a reset is under way. -/
def InProgress (w : World) : Prop :=
  w.pendingPrepare.isSome = true ∨ ∃ record, w.record = some record ∧ terminalState record.state = false

/-- The next call of the task. -/
def nextCall : TaskProg Task → Option Op
  | .ret _ => none
  | .call o _ => some o

/-- **What an action must find**: a prepare is rejected only with its journal settled, something is staged only for a
reset in progress, and the task reports that nothing is left only if no sample waits. -/
def Meets (w : World) : Action → Prop
  | .rejectPrepare => w.lock = .checking → Settled w.drain
  | .produce _ =>
    (∀ records offsetWh, nextCall w.task = some (.saveStaged records offsetWh) → InProgress w) ∧
      (nextCall w.task = some .markDataResetProducerQuiesced → w.queue = [] ∧ w.sampling = false)
  | _ => True

/-- The gates are open and no reset is in progress. -/
structure Idle (w : World) : Prop where
  running : w.running = true
  frozen : w.dataResetFrozen = false
  writes : w.recordWritesEnabled = true
  nothing : ¬ InProgress w

/-! ### The journal -/

variable {j : JsonLibrary} {serializes : DrainRecord → Bool} {slots : Slots} {w : World} {g : UInt64}

/-- The journal holds a valid record of this generation or an earlier one. -/
structure Sound (j : JsonLibrary) (g : UInt64) (slots : Slots) : Prop where
  valid : ∀ d, slots.active = some d → validDrainRecord j d = true
  generation : ∀ d, slots.active = some d → d.targetGeneration.toNat ≤ g.toNat + 1

theorem Sound.later {g' : UInt64} (h : Sound j g slots) (hle : g.toNat ≤ g'.toNat) : Sound j g' slots where
  valid := h.valid
  generation := fun d hd => by
    have hbound := h.generation d hd
    omega

/-- A save leaves the journal, or puts the record in it. -/
theorem saveDrain_cases (record : DrainRecord) (succeeds : Bool) (slots : Slots) :
    ((saveDrain j serializes record succeeds slots).2 = slots ∧
        ((saveDrain j serializes record succeeds slots).1 = true →
          ∃ current, slots.active = some current ∧ drainRecordsEqual current record = true)) ∨
      ((saveDrain j serializes record succeeds slots).2 = slots.commit record ∧ validDrainRecord j record = true) := by
  cases succeeds with
  | false => exact Or.inl ⟨rfl, fun h => absurd h Bool.false_ne_true⟩
  | true =>
    unfold saveDrain saveTo
    by_cases hvalid : validDrainRecord j record = true
    · rw [hvalid]
      by_cases hserializes : serializes record = true
      · rw [hserializes]
        cases hactive : slots.active with
        | none =>
          by_cases hstate : record.state = .staged
          · exact Or.inr (by simp [hstate])
          · exact Or.inl (by simp [hstate])
        | some current =>
          by_cases hequal : drainRecordsEqual current record = true
          · exact Or.inl (by simp [hequal])
          by_cases hupdate : validDrainRecordUpdate j current record = true
          · exact Or.inr (by simp [hequal, hupdate])
          · exact Or.inl (by simp [hequal, hupdate])
      · exact Or.inl (by simp [hserializes])
    · exact Or.inl (by simp [hvalid])

theorem Sound.saveDrain (h : Sound j g slots) {record : DrainRecord} (succeeds : Bool)
    (hgeneration : record.targetGeneration.toNat ≤ g.toNat + 1) :
    Sound j g (Preparation.saveDrain j serializes record succeeds slots).2 := by
  rcases @saveDrain_cases j serializes record succeeds slots with ⟨hsame, -⟩ | ⟨hcommit, hvalid⟩
  · rw [hsame]
    exact h
  · rw [hcommit]
    constructor
    · rintro d ⟨⟩
      exact hvalid
    · rintro d ⟨⟩
      exact hgeneration

theorem state_of_drainRecordsEqual {left right : DrainRecord} (h : drainRecordsEqual left right = true) :
    left.state = right.state := by
  simp only [drainRecordsEqual, Bool.and_eq_true, decide_eq_true_eq] at h
  exact h.1.1.1.1.1.2

/-- What a part of the drain leaves: a settled journal stays settled, and success settles it. -/
structure Drained (j : JsonLibrary) (g : UInt64) (slots : Slots) (out : Bool × Slots) : Prop where
  sound : Sound j g out.2
  settled : Settled slots → Settled out.2
  done : out.1 = true → Settled out.2

/-- A part that changes nothing and succeeds on a settled journal only. -/
theorem Drained.same (h : Sound j g slots) {b : Bool} (hb : b = true → Settled slots) : Drained j g slots (b, slots) where
  sound := h
  settled := id
  done := hb

theorem Drained.failed (h : Sound j g slots) : Drained j g slots (false, slots) := .same h nofun

theorem settled_commit {record : DrainRecord} (h : record.state = .completed) : Settled (slots.commit record) := by
  rintro d ⟨⟩
  exact h

theorem drained_scrubDrain (h : Sound j g slots) {journal : DrainRecord} (e : DrainMoment)
    (hgeneration : journal.targetGeneration.toNat ≤ g.toNat + 1) : Drained j g slots (scrubDrain j journal e slots) := by
  unfold scrubDrain
  by_cases hcompleted : journal.state = .completed
  swap
  · rw [if_pos hcompleted]
    exact .failed h
  rw [if_neg (not_not.mpr hcompleted)]
  cases e.scrubbed with
  | false => exact .failed h
  | true =>
    show Drained j g slots (decide ((scrubCompletedCopies j journal slots).1 = .savedAndVerified),
      (scrubCompletedCopies j journal slots).2)
    unfold scrubCompletedCopies
    by_cases hvalid : validDrainRecord j journal = true
    swap
    · rw [if_pos (by simp [hvalid])]
      exact .failed h
    rw [if_neg (by simp [hvalid, hcompleted])]
    by_cases hactive : slots.active.any (drainRecordsEqual · journal) = true
    swap
    · rw [if_pos (by simpa using hactive)]
      exact .failed h
    have hsettled : Settled slots := by
      intro d hd
      rw [hd, Option.any_some] at hactive
      rw [state_of_drainRecordsEqual hactive, hcompleted]
    rw [if_neg (by simpa using hactive)]
    split
    · exact .same h fun _ => hsettled
    · refine ⟨⟨?_, ?_⟩, fun _ => settled_commit hcompleted, fun _ => settled_commit hcompleted⟩
      · rintro d ⟨⟩
        exact hvalid
      · rintro d ⟨⟩
        exact hgeneration

theorem drained_completeOwnDrain (h : Sound j g slots) {journal : DrainRecord} (hactive : slots.active = some journal)
    (e : DrainMoment) : Drained j g slots (completeOwnDrain j serializes journal e slots) := by
  have hgeneration := h.generation journal hactive
  -- a part that saves leaves the journal sound; on a settled one nothing is saved before the last part
  have hassigned : Sound j g (assignDrain j serializes journal e slots).2 ∧
      ∀ journal', (assignDrain j serializes journal e slots).1 = some journal' →
        journal'.targetGeneration = journal.targetGeneration := by
    unfold assignDrain
    split_ifs with hstate hrange
    · exact ⟨h, fun journal' hsome => by cases hsome; rfl⟩
    · exact ⟨h, nofun⟩
    · refine ⟨h.saveDrain _ hgeneration, fun journal' hsome => ?_⟩
      dsimp only at hsome
      split at hsome
      · cases hsome
        rfl
      · cases hsome
  have hfinished : ∀ slots' journal', Sound j g slots' → journal'.targetGeneration = journal.targetGeneration →
      Sound j g (finishDrain j serializes journal' e slots').2 ∧
        ∀ journal'', (finishDrain j serializes journal' e slots').1 = some journal'' →
          journal''.targetGeneration = journal.targetGeneration := by
    intro slots' journal' h' htarget
    unfold finishDrain
    split_ifs with hstate hdurable
    · exact ⟨h', fun journal'' hsome => by cases hsome; exact htarget⟩
    · exact ⟨h', nofun⟩
    · refine ⟨h'.saveDrain _ (htarget ▸ hgeneration), fun journal'' hsome => ?_⟩
      dsimp only at hsome
      split at hsome
      · cases hsome
        exact htarget
      · cases hsome
  by_cases hcompleted : journal.state = .completed
  · have hskip : completeOwnDrain j serializes journal e slots = scrubDrain j journal e slots := by
      simp [completeOwnDrain, assignDrain, finishDrain, hcompleted]
    rw [hskip]
    exact drained_scrubDrain h e hgeneration
  have hunsettled : ¬ Settled slots := fun hsettled => hcompleted (hsettled journal hactive)
  unfold completeOwnDrain
  dsimp only
  split
  · exact ⟨hassigned.1, fun hsettled => absurd hsettled hunsettled, nofun⟩
  · next journal' hjournal' =>
    have hnext := hfinished _ _ hassigned.1 (hassigned.2 journal' hjournal')
    split
    · exact ⟨hnext.1, fun hsettled => absurd hsettled hunsettled, nofun⟩
    · next journal'' hjournal'' =>
      have htarget := hnext.2 journal'' hjournal''
      have hscrubbed := drained_scrubDrain hnext.1 e (htarget ▸ hgeneration)
      exact ⟨hscrubbed.sound, fun hsettled => absurd hsettled hunsettled, hscrubbed.done⟩

/-- **The drain of a barrier** settles the journal if it succeeds. -/
theorem drained_completeDataResetDrain (h : Sound j g slots) (b : Barrier) (e : DrainMoment) :
    Drained j g slots (completeDataResetDrain j serializes b e slots) := by
  unfold completeDataResetDrain
  dsimp only
  split
  · exact .failed h
  split
  · next hnone =>
    refine .same h fun _ d hd => ?_
    rw [hnone] at hd
    cases hd
  · next journal hactive =>
    split_ifs with hother hbinding hverified
    · refine .same h fun hdone d hd => ?_
      rw [hactive, Option.some.injEq] at hd
      simp only [Bool.and_eq_true, decide_eq_true_eq] at hdone
      rw [← hd]
      exact hdone.1
    · exact .failed h
    · exact .failed h
    · exact drained_completeOwnDrain h hactive e

/-- **The recovery at a boot** settles the journal, if it succeeds and no stored reset goes on with it. -/
theorem drained_recover (h : Sound j g slots) (record : Option Record) (deviceId : Bytes)
    (dataGeneration cardGeneration : UInt64) (e : DrainMoment) :
    let out := recoverOrphanedDataResetDrain j serializes record deviceId dataGeneration cardGeneration e slots
    Sound j g out.2 ∧ (Settled slots → Settled out.2) ∧
      (out.1 = true → Settled out.2 ∨ ∃ r, record = some r ∧ terminalState r.state = false) := by
  have hall : ∀ {out : Bool × Slots}, Drained j g slots out → Sound j g out.2 ∧ (Settled slots → Settled out.2) ∧
      (out.1 = true → Settled out.2 ∨ ∃ r, record = some r ∧ terminalState r.state = false) := fun hout =>
    ⟨hout.sound, hout.settled, fun hok => Or.inl (hout.done hok)⟩
  dsimp only
  unfold recoverOrphanedDataResetDrain
  split
  · exact hall (.failed h)
  split
  · next hnone =>
    refine hall (.same h fun _ d hd => ?_)
    rw [hnone] at hd
    cases hd
  · next journal hactive =>
    have hcompleted : journal.state = .completed → Settled slots := by
      intro hstate d hd
      rw [hactive, Option.some.injEq] at hd
      rw [← hd]
      exact hstate
    split_ifs with howned hdifferent hmatches hbinding
    · refine ⟨h, id, fun _ => Or.inr ?_⟩
      rw [Option.any_eq_true] at howned
      obtain ⟨r, hr, howns⟩ := howned
      simp only [durableResetOwnsJournal, Bool.and_eq_true, Bool.not_eq_true'] at howns
      exact ⟨r, hr, howns.1.1.1.1⟩
    · simp only [completedDrainFromDifferentDevice, Bool.and_eq_true, decide_eq_true_eq] at hdifferent
      exact hall (.same h fun _ => hcompleted hdifferent.1.2)
    · exact hall (drained_scrubDrain h e (h.generation journal hactive))
    · exact ⟨h, id, nofun⟩
    · exact hall (drained_completeDataResetDrain h _ e)

/-! ### The invariant -/

/-- The stored reset is being prepared. -/
def Preparing (w : World) : Prop := ∃ r, w.record = some r ∧ r.state = .preparing

/-- No sample waits, and the task stages nothing while the freeze lasts. -/
def Calm (w : World) : Prop := w.queue = [] ∧ w.sampling = false ∧ Quiet w.task

/-- **What holds throughout.** Where the producer is quiesced it is calm; a journal that is not settled belongs to a
preparation; and once a reset is prepared, its journal is settled and nothing more is staged. -/
structure Invariant (j : JsonLibrary) (w : World) : Prop where
  honest : Honest w.task
  calm : w.dataResetFrozen = true → w.dataResetProducerQuiesced = true → Calm w
  unsettled : w.running = true → Settled w.drain ∨ w.pendingPrepare.isSome = true ∨ Preparing w
  prepared : ∀ r, w.record = some r → terminalState r.state = false → r.state ≠ .preparing →
    Settled w.drain ∧ (w.running = true → Calm w)
  gated : w.running = true → ∀ r, w.record = some r → terminalState r.state = false →
    w.dataResetFrozen = true ∧ w.pendingPrepare = none
  opening : w.lock = .opening → ∀ r, w.record = some r → terminalState r.state = true
  inactive : w.dataResetFrozen = false → w.barrier.active = false
  waited : w.barrierWaited = true → w.running = true ∧ Preparing w ∧ w.dataResetProducerQuiesced = true ∧
    (w.barrierResult = some true → Settled w.drain)
  begun : ∀ r, w.record = some r → r.state ≠ .idle
  sound : Sound j w.dataGeneration w.drain
  barrier : w.barrier.targetGeneration.toNat ≤ w.dataGeneration.toNat + 1
  pending : ∀ p, w.pendingPrepare = some p → p.targetGeneration.toNat ≤ w.dataGeneration.toNat + 1
  record : ∀ r, w.record = some r → r.prepare.targetGeneration.toNat ≤ w.dataGeneration.toNat + 1

theorem Preparing.not_terminal (h : Preparing w) : ∃ r, w.record = some r ∧ terminalState r.state = false := by
  obtain ⟨r, hr, hstate⟩ := h
  exact ⟨r, hr, by rw [hstate]; rfl⟩

theorem settled_empty : Settled {} := nofun

theorem sound_empty : Sound j g {} := ⟨nofun, nofun⟩

theorem invariant_new (deviceId : Bytes) (dataGeneration cardGeneration : UInt64) :
    Invariant j (World.new deviceId dataGeneration cardGeneration) where
  honest := honest_iterate (Task.boot 0 0)
  calm := fun hfrozen => absurd hfrozen Bool.false_ne_true
  unsettled := fun hrunning => absurd hrunning Bool.false_ne_true
  prepared := fun _ hr => nomatch hr
  gated := fun hrunning => absurd hrunning Bool.false_ne_true
  opening := fun _ _ hr => nomatch hr
  inactive := fun _ => rfl
  waited := fun hwaited => absurd hwaited Bool.false_ne_true
  begun := fun _ hr => nomatch hr
  sound := sound_empty
  barrier := Nat.zero_le _
  pending := fun _ hp => nomatch hp
  record := fun _ hr => nomatch hr

/-! ### The task -/

/-- The device goes on with the task. -/
theorem Invariant.task (h : Invariant j w) {p : TaskProg Task} (hhonest : Honest p)
    (hquiet : Calm w → w.dataResetFrozen = true → Quiet p) : Invariant j { w with task := p } := by
  have hcalm : Calm w → w.dataResetFrozen = true → Calm { w with task := p } := fun hcalm hfrozen =>
    ⟨hcalm.1, hcalm.2.1, hquiet hcalm hfrozen⟩
  refine { h with honest := hhonest, calm := fun hfrozen hquiesced => ?_, prepared := fun r hr hactive hstate => ?_ }
  · exact hcalm (h.calm hfrozen hquiesced) hfrozen
  · obtain ⟨hsettled, hthen⟩ := h.prepared r hr hactive hstate
    exact ⟨hsettled, fun hrunning => hcalm (hthen hrunning) (h.gated hrunning r hr hactive).1⟩

/-- Samples are taken from the queue. -/
theorem Invariant.take (h : Invariant j w) (queue : List Arrival) (hqueue : w.queue = [] → queue = []) :
    Invariant j { w with queue := queue } := by
  have hcalm : Calm w → Calm { w with queue := queue } := fun hcalm => ⟨hqueue hcalm.1, hcalm.2⟩
  refine { h with calm := fun hfrozen hquiesced => ?_, prepared := fun r hr hactive hstate => ?_ }
  · exact hcalm (h.calm hfrozen hquiesced)
  · obtain ⟨hsettled, hthen⟩ := h.prepared r hr hactive hstate
    exact ⟨hsettled, fun hrunning => hcalm (hthen hrunning)⟩

/-- The journal changes. -/
theorem Invariant.journal (h : Invariant j w) {slots : Slots} (hsound : Sound j w.dataGeneration slots)
    (hunsettled : w.running = true → Settled slots ∨ w.pendingPrepare.isSome = true ∨ Preparing w)
    (hprepared : ∀ r, w.record = some r → terminalState r.state = false → r.state ≠ .preparing → Settled slots)
    (hwaited : w.barrierWaited = true → w.barrierResult = some true → Settled slots) :
    Invariant j { w with drain := slots } := by
  refine { h with
    sound := hsound
    unsettled := hunsettled
    prepared := fun r hr hactive hstate => ⟨hprepared r hr hactive hstate, (h.prepared r hr hactive hstate).2⟩
    waited := fun hwaits => ?_ }
  obtain ⟨hrunning, hpreparing, hquiesced, -⟩ := h.waited hwaits
  exact ⟨hrunning, hpreparing, hquiesced, hwaited hwaits⟩

/-- The answers of a calm device are those of a frozen one. -/
theorem frozen_answer {op : Op} (e : Moment) (hfrozen : w.dataResetFrozen = true) (hqueue : w.queue = []) :
    Frozen op (w.answer j serializes op e).2 := by
  cases op with
  | dataResetFrozen place => exact hfrozen
  | receive =>
    show w.queue.head? = none
    rw [hqueue]
    rfl
  | receiveAll => exact hqueue
  | _ => trivial

/-- A task that is about to stage something is not calm. -/
theorem not_calm_of_staging {records : List IntervalRecord} {offsetWh : UInt64} {k : Bool → TaskProg Task}
    (htask : w.task = .call (.saveStaged records offsetWh) k) : ¬ Calm w := by
  intro hcalm
  have hquiet : Quiet (.call (.saveStaged records offsetWh) k) := htask ▸ hcalm.2.2
  exact hquiet.1 records offsetWh rfl

/-- What the task stages is for a preparation: a prepared reset finds it calm. -/
theorem Invariant.stage (h : Invariant j w) (hrunning : w.running = true) {records : List IntervalRecord}
    {offsetWh : UInt64} {k : Bool → TaskProg Task} (htask : w.task = .call (.saveStaged records offsetWh) k)
    (hprogress : InProgress w) (succeeds : Bool) :
    Invariant j { w with
      drain := (saveDrain j serializes (stagedRecord j w.barrier records offsetWh) succeeds w.drain).2 } := by
  have hpreparing : ∀ r, w.record = some r → terminalState r.state = false → r.state = .preparing := by
    intro r hr hactive
    by_contra hstate
    exact not_calm_of_staging htask ((h.prepared r hr hactive hstate).2 hrunning)
  refine h.journal (h.sound.saveDrain succeeds h.barrier) (fun _ => Or.inr ?_) ?_ ?_
  · refine hprogress.imp_right ?_
    rintro ⟨r, hr, hactive⟩
    exact ⟨r, hr, hpreparing r hr hactive⟩
  · intro r hr hactive hstate
    exact absurd (hpreparing r hr hactive) hstate
  · intro hwaits
    obtain ⟨-, hstored, hquiesced, -⟩ := h.waited hwaits
    obtain ⟨r, hr, hactive⟩ := hstored.not_terminal
    exact absurd (h.calm (h.gated hrunning r hr hactive).1 hquiesced) (not_calm_of_staging htask)

/-- The producer is quiesced. -/
theorem Invariant.mark (h : Invariant j w) (hcalm : Calm w) :
    Invariant j { w with barrier := { w.barrier with producerQuiesced := true } } := by
  refine { h with calm := fun _ _ => hcalm, waited := fun hwaits => ?_ }
  obtain ⟨hrunning, hpreparing, hquiesced, hresult⟩ := h.waited hwaits
  refine ⟨hrunning, hpreparing, ?_, hresult⟩
  have hactive : w.barrier.active = true := Bool.and_elim_left hquiesced
  exact Bool.and_intro hactive rfl

/-- **The task goes on by one call.** -/
theorem Invariant.produce (h : Invariant j w) (hrunning : w.running = true) (e : Moment)
    (hmeets : Meets w (.produce e)) : Invariant j (w.produce j serializes e) := by
  unfold World.produce
  cases htask : w.task with
  | ret t =>
    refine h.task (honest_iterate t) fun hcalm _ => quiet_iterate ?_
    have hquiet : Quiet (.ret t) := htask ▸ hcalm.2.2
    exact hquiet
  | call op k =>
    have hhonest : Honest (.call op k) := htask ▸ h.honest
    have hquiet : Calm w → w.dataResetFrozen = true → Quiet (k (w.answer j serializes op e).2) := by
      intro hcalm hfrozen
      have hrest : Quiet (.call op k) := htask ▸ hcalm.2.2
      exact hrest.2 _ (frozen_answer e hfrozen hcalm.1)
    have hgoes := h.task (hhonest.2 (w.answer j serializes op e).2) hquiet
    cases op with
    | receive => exact hgoes.take w.queue.tail fun hnone => by rw [hnone]; rfl
    | receiveAll => exact hgoes.take [] fun _ => rfl
    | saveStaged records offsetWh =>
      have hprogress := hmeets.1 records offsetWh (by rw [htask]; rfl)
      have hstaged := @Invariant.stage j serializes w h hrunning records offsetWh k htask hprogress e.succeeds
      exact hstaged.task (hhonest.2 _) hquiet
    | markDataResetProducerQuiesced =>
      have hempty := hmeets.2 (by rw [htask]; rfl)
      have hcalm : Calm { w with task := k () } := ⟨hempty.1, hempty.2, hhonest.1 rfl ()⟩
      show Invariant j { (if w.barrier.active then _ else w) with task := k () }
      split
      · exact hgoes.mark hcalm
      · exact hgoes
    | _ => exact hgoes

/-! ### The meter and the storage -/

theorem Invariant.poll (h : Invariant j w) : Invariant j w.poll := by
  unfold World.poll
  split
  · exact h
  · next hopen =>
    refine { h with calm := fun hfrozen _ => absurd hfrozen hopen, prepared := fun r hr hactive hstate => ?_ }
    refine ⟨(h.prepared r hr hactive hstate).1, fun hrunning => ?_⟩
    exact absurd (h.gated hrunning r hr hactive).1 hopen

theorem Invariant.enqueueSample (h : Invariant j w) (sample : Option MeasurementSnapshot) :
    Invariant j (w.enqueueSample sample) := by
  unfold World.enqueueSample
  split
  · next hsampling =>
    have hbusy : ¬ Calm w := fun hcalm => Bool.false_ne_true (hcalm.2.1.symm.trans hsampling)
    refine { h with
      calm := fun hfrozen hquiesced => absurd (h.calm hfrozen hquiesced) hbusy
      prepared := fun r hr hactive hstate => ?_ }
    obtain ⟨hsettled, hthen⟩ := h.prepared r hr hactive hstate
    exact ⟨hsettled, fun hrunning => absurd (hthen hrunning) hbusy⟩
  · exact h

theorem Invariant.drainBarrier (h : Invariant j w) (ready : Bool) (e : DrainMoment) :
    Invariant j (w.drainBarrier j serializes ready e) := by
  unfold World.drainBarrier
  split_ifs with hqueued hready
  · exact h
  · refine { h with waited := fun hwaits => ?_ }
    obtain ⟨hrunning, hpreparing, hquiesced, -⟩ := h.waited hwaits
    exact ⟨hrunning, hpreparing, hquiesced, fun hfalse => absurd (Option.some.inj hfalse) Bool.false_ne_true⟩
  · have hdrained := @drained_completeDataResetDrain j serializes _ _ h.sound w.barrier e
    have hresult : Invariant j { w with
        barrierQueued := false
        barrierResult := some (completeDataResetDrain j serializes w.barrier e w.drain).1
        drain := (completeDataResetDrain j serializes w.barrier e w.drain).2 } := by
      refine { h with
        sound := hdrained.sound
        unsettled := fun hrunning => (h.unsettled hrunning).imp_left hdrained.settled
        prepared := fun r hr hactive hstate => ?_
        waited := fun hwaits => ?_ }
      · obtain ⟨hsettled, hthen⟩ := h.prepared r hr hactive hstate
        exact ⟨hdrained.settled hsettled, hthen⟩
      · obtain ⟨hrunning, hpreparing, hquiesced, -⟩ := h.waited hwaits
        exact ⟨hrunning, hpreparing, hquiesced, fun hok => hdrained.done (Option.some.inj hok)⟩
    exact hresult

/-! ### The gates -/

/-- Gates that were open are closed with a barrier that is not quiesced. -/
theorem closeGates_of_open (h : Invariant j w) (hopen : w.dataResetFrozen = false) :
    ∃ b : Barrier, w.closeGates = { w with dataResetFrozen := true, barrier := b } ∧
      (b.active && b.producerQuiesced) = false ∧ b.targetGeneration.toNat ≤ w.dataGeneration.toNat + 1 := by
  have hsame : w.beginDataResetProducerBarrier = w → ∃ b : Barrier,
      w.closeGates = { w with dataResetFrozen := true, barrier := b } ∧
        (b.active && b.producerQuiesced) = false ∧ b.targetGeneration.toNat ≤ w.dataGeneration.toNat + 1 := by
    intro hw
    refine ⟨w.barrier, ?_, ?_, h.barrier⟩
    · rw [World.closeGates, if_neg (by simp [hopen]), hw]
    · rw [h.inactive hopen]
      rfl
  cases hprepare : w.pendingPrepare.or (w.record.map (·.prepare)) with
  | none => exact hsame (by rw [World.beginDataResetProducerBarrier, hprepare])
  | some prepare =>
    by_cases htarget : prepare.targetGeneration = 0
    · refine hsame ?_
      rw [World.beginDataResetProducerBarrier, hprepare]
      exact if_pos htarget
    have hbound : prepare.targetGeneration.toNat ≤ w.dataGeneration.toNat + 1 := by
      rw [Option.or_eq_some_iff] at hprepare
      rcases hprepare with hpending | ⟨-, hstored⟩
      · exact h.pending prepare hpending
      · obtain ⟨r, hr, rfl⟩ := Option.map_eq_some_iff.mp hstored
        exact h.record r hr
    refine ⟨w.barrierOf prepare, ?_, rfl, hbound⟩
    rw [World.closeGates, if_neg (by simp [hopen]), World.beginDataResetProducerBarrier, hprepare]
    dsimp only
    rw [if_neg htarget]

theorem Invariant.closeGates (h : Invariant j w) (hrunning : w.running = true) : Invariant j w.closeGates := by
  cases hopen : w.dataResetFrozen with
  | true =>
    rw [World.closeGates, if_pos hopen]
    exact h
  | false =>
    obtain ⟨b, hclosed, hquiesced, hbound⟩ := closeGates_of_open h hopen
    -- nothing is in progress while the gates are open
    have hnothing : ∀ r, w.record = some r → terminalState r.state ≠ false := by
      intro r hr hactive
      have hfrozen := (h.gated hrunning r hr hactive).1
      exact Bool.false_ne_true (hopen.symm.trans hfrozen)
    rw [hclosed]
    refine { h with
      calm := fun _ hyes => absurd (hquiesced.symm.trans hyes) Bool.false_ne_true
      prepared := fun r hr hactive => absurd hactive (hnothing r hr)
      gated := fun _ r hr hactive => absurd hactive (hnothing r hr)
      inactive := nofun
      waited := fun hwaits => ?_
      barrier := hbound }
    obtain ⟨r, hr, hactive⟩ := (h.waited hwaits).2.1.not_terminal
    exact absurd hactive (hnothing r hr)

theorem Invariant.disableRecordWrites (h : Invariant j w) : Invariant j w.disableRecordWrites := by
  unfold World.disableRecordWrites
  split
  · exact { h with }
  · exact h

theorem Invariant.openGates (h : Invariant j w) (cardVerified : Bool) : Invariant j (w.openGates cardVerified) := by
  unfold World.openGates
  split
  · next hguard =>
    refine { h with opening := fun _ r hr => ?_ }
    have hreleasable := hguard.2.2
    rw [World.releasable, show w.record = some r from hr] at hreleasable
    simp only [Bool.and_eq_true, Bool.or_eq_true, decide_eq_true_eq] at hreleasable
    rcases hreleasable.1 with hcancelled | ⟨-, hcompleted⟩
    · rw [hcancelled]
      rfl
    · rw [hcompleted]
      rfl
  · exact h

/-- Gates are opened when nothing is in progress. -/
theorem Invariant.releaseFreeze (h : Invariant j w) (succeeds : Bool) : Invariant j (w.releaseFreeze succeeds) := by
  unfold World.releaseFreeze
  split_ifs with hlock hsucceeds
  · exact h
  · rw [not_not] at hlock
    have hnothing : ∀ r, w.record = some r → terminalState r.state ≠ false := by
      intro r hr hactive
      exact Bool.false_ne_true (hactive.symm.trans (h.opening hlock r hr))
    refine { h with
      calm := nofun
      prepared := fun r hr hactive => absurd hactive (hnothing r hr)
      gated := fun _ r hr hactive => absurd hactive (hnothing r hr)
      opening := nofun
      inactive := fun _ => rfl
      waited := fun hwaits => ?_ }
    obtain ⟨r, hr, hactive⟩ := (h.waited hwaits).2.1.not_terminal
    exact absurd hactive (hnothing r hr)
  · exact { h with opening := nofun }

/-! ### The coordinator -/

theorem Invariant.requestPrepare (h : Invariant j w) (hrunning : w.running = true) (request : PrepareRequest)
    (admissible : Bool) : Invariant j (w.requestPrepare request admissible) := by
  unfold World.requestPrepare
  split_ifs with hguard
  · exact h
  simp only [not_or, not_not] at hguard
  obtain ⟨-, -, -, hanother, hroom, htarget, -, haccept⟩ := hguard
  have hnothing : ∀ r, w.record = some r → terminalState r.state ≠ false := by
    intro r hr hactive
    rw [hr, Option.any_some, decide_eq_true_eq] at hanother
    unfold classifyPrepareRequest at haccept
    rw [hr] at haccept
    simp only [hactive, Bool.not_false, if_true] at haccept
    have hother : request.operationId ≠ r.prepare.operationId := fun hid => hanother hid.symm
    rw [if_neg hother] at haccept
    split at haccept
    · exact nomatch haccept
    · exact nomatch haccept
  have hpending : Invariant j { w with pendingPrepare := some request, lock := .checking } := by
    refine { h with
      unsettled := fun _ => Or.inr (Or.inl rfl)
      gated := fun _ r hr hactive => absurd hactive (hnothing r hr)
      opening := nofun
      pending := ?_ }
    rintro p ⟨⟩
    rw [htarget, UInt64.toNat_add]
    exact Nat.mod_le _ _
  exact hpending.closeGates hrunning

theorem Invariant.acceptPrepare (h : Invariant j w) : Invariant j w.acceptPrepare := by
  unfold World.acceptPrepare
  split
  · exact { h with opening := nofun }
  · exact h

/-- A prepare that is rejected leaves its journal: it must be settled. -/
theorem Invariant.rejectPrepare (h : Invariant j w) (hmeets : Meets w .rejectPrepare) : Invariant j w.rejectPrepare := by
  unfold World.rejectPrepare
  split
  · next hguard =>
    refine { h with
      unsettled := fun _ => Or.inl (hmeets hguard.1)
      gated := fun hrunning r hr hactive => ⟨(h.gated hrunning r hr hactive).1, rfl⟩
      opening := nofun
      pending := nofun }
  · exact h

/-- A record that is saved is one that the store takes. -/
theorem saveRecord_cases (w : World) (proposed : Record) (succeeds : Bool) :
    w.saveRecord proposed succeeds = none ∨
      (w.saveRecord proposed succeeds = some { w with record := some proposed } ∧
        admitsRecord w.record proposed = true) := by
  unfold World.saveRecord
  split
  · next hguard => exact Or.inr ⟨rfl, Bool.and_elim_right hguard⟩
  · exact Or.inl rfl

theorem Invariant.begins (h : Invariant j w) {proposed : Record} (hadmits : admitsRecord w.record proposed = true) :
    proposed.state ≠ .idle := by
  have hvalid : validRecord proposed = true → proposed.state ≠ .idle := by
    intro hvalid
    simp only [validRecord, Bool.and_eq_true, decide_eq_true_eq] at hvalid
    exact hvalid.1.1.1.1.1.1.1.1.1.1.1.2
  cases hrecord : w.record with
  | none =>
    rw [hrecord] at hadmits
    simp only [admitsRecord, Bool.and_eq_true] at hadmits
    exact hvalid hadmits.1.1
  | some current =>
    rw [hrecord] at hadmits
    simp only [admitsRecord, Bool.or_eq_true] at hadmits
    rcases hadmits with hequal | hupdate
    · have hsame : current = proposed := by simpa [recordsEqual] using hequal
      exact hsame ▸ h.begun current hrecord
    · simp only [validRecordUpdate, Bool.and_eq_true] at hupdate
      exact hvalid hupdate.1.2

/-- A record takes the place of the stored one. -/
theorem Invariant.store (h : Invariant j w) (hlock : w.lock = .free) {proposed : Record}
    (hadmits : admitsRecord w.record proposed = true)
    (hbound : proposed.prepare.targetGeneration.toNat ≤ w.dataGeneration.toNat + 1) {p : Option PrepareRequest}
    (hpending : p = none) {b : Bool} (hwaited : b = false)
    (hactive : terminalState proposed.state = false → w.dataResetFrozen = true)
    (hprepared : terminalState proposed.state = false → proposed.state ≠ .preparing →
      Settled w.drain ∧ (w.running = true → Calm w))
    (hunsettled : Settled w.drain ∨ proposed.state = .preparing) :
    Invariant j { w with record := some proposed, pendingPrepare := p, barrierWaited := b } := by
  subst hpending hwaited
  refine { h with
    unsettled := fun _ => hunsettled.imp_right fun hstate => Or.inr ⟨proposed, rfl, hstate⟩
    prepared := ?_
    gated := ?_
    opening := fun hopening => nomatch hlock.symm.trans hopening
    waited := nofun
    begun := ?_
    pending := nofun
    record := ?_ }
  · intro r hr
    rw [← Option.some.inj hr]
    exact hprepared
  · intro _ r hr
    rw [← Option.some.inj hr]
    exact fun hstate => ⟨hactive hstate, rfl⟩
  · intro r hr
    rw [← Option.some.inj hr]
    exact h.begins hadmits
  · intro r hr
    rw [← Option.some.inj hr]
    exact hbound

/-- An accepted prepare is stored once the producer is quiesced. -/
theorem Invariant.processPendingPrepare (h : Invariant j w) (hrunning : w.running = true) (startedUtcMs : UInt64)
    (succeeds : Bool) : Invariant j (w.processPendingPrepare startedUtcMs succeeds) := by
  unfold World.processPendingPrepare
  split
  · exact h
  next request hrequest =>
  split_ifs with hguard
  · exact h
  simp only [not_or, not_not] at hguard
  have hclosed := h.closeGates hrunning
  have hfrozen : w.closeGates.dataResetFrozen = true := by
    unfold World.closeGates
    split
    · next hfrozen => exact hfrozen
    · rfl
  have hlock : w.closeGates.lock = .free := by
    rw [← hguard.1, World.closeGates]
    split
    · rfl
    · unfold World.beginDataResetProducerBarrier
      split
      · rfl
      · split <;> rfl
  have hbound : request.targetGeneration.toNat ≤ w.closeGates.dataGeneration.toNat + 1 := by
    have hgeneration : w.closeGates.dataGeneration = w.dataGeneration := by
      unfold World.closeGates World.beginDataResetProducerBarrier
      split
      · rfl
      · split
        · rfl
        · split <;> rfl
    rw [hgeneration]
    exact h.pending request hrequest
  dsimp only
  split
  · exact hclosed
  rcases saveRecord_cases w.closeGates (preparingRecord request startedUtcMs) succeeds with hfailed | ⟨hsaved, hadmits⟩
  · rw [hfailed]
    exact hclosed
  · rw [hsaved]
    exact hclosed.store hlock hadmits hbound rfl rfl (fun _ => hfrozen) (fun _ hstate => absurd rfl hstate) (Or.inr rfl)

theorem settled_of_safeToCancel {record : Record} {loads : Bool} {energyOffsetWh : UInt64}
    (hsafe : w.dataResetDrainSafeToCancel record loads energyOffsetWh = true) : Settled w.drain := by
  intro d hd
  unfold World.dataResetDrainSafeToCancel at hsafe
  rw [hd] at hsafe
  split_ifs at hsafe with hquiesced hloads
  dsimp only at hsafe
  split at hsafe
  · simpa using hsafe
  · simp only [Bool.and_eq_true, decide_eq_true_eq] at hsafe
    exact hsafe.1.2

/-- A cancelled reset leaves a settled journal. -/
theorem Invariant.requestCancel (h : Invariant j w) (cancelled : Record) (loads : Bool) (energyOffsetWh : UInt64)
    (succeeds : Bool) : Invariant j (w.requestCancel cancelled loads energyOffsetWh succeeds) := by
  unfold World.requestCancel
  split
  · exact h
  next record hrecord =>
  split_ifs with hguard hsafe hcancellable
  · exact h
  · exact h
  · exact h
  simp only [not_or, not_not, Bool.not_eq_true] at hguard hcancellable
  obtain ⟨hlock, -, hstate, hprepare⟩ := hguard
  have hsettled : Settled w.drain := by
    by_cases hpreparing : record.state = .preparing
    · refine @settled_of_safeToCancel w record loads energyOffsetWh ?_
      by_contra hunsafe
      exact hsafe ⟨Or.inl hpreparing, by simpa using hunsafe⟩
    · refine (h.prepared record hrecord ?_ hpreparing).1
      have hkind := hcancellable.1
      cases hs : record.state <;> simp_all [cancellableState, terminalState]
  have hterminal : terminalState cancelled.state = true := by
    rw [hstate]
    rfl
  rcases saveRecord_cases w cancelled succeeds with hfailed | ⟨hsaved, hadmits⟩
  · rw [hfailed]
    exact h
  · rw [hsaved]
    refine h.store hlock hadmits ?_ rfl rfl (fun hactive => ?_) (fun hactive => ?_) (Or.inl hsettled)
    · rw [hprepare]
      exact h.record record hrecord
    · exact absurd (hterminal.symm.trans hactive) (by decide)
    · exact absurd (hterminal.symm.trans hactive) (by decide)

theorem Invariant.queueDataResetBarrier (h : Invariant j w) (hrunning : w.running = true) :
    Invariant j w.queueDataResetBarrier := by
  unfold World.queueDataResetBarrier
  split
  · next hguard =>
    refine { h with waited := fun _ => ?_ }
    have hstored := hguard.2.1
    rw [Option.any_eq_true] at hstored
    obtain ⟨r, hr, hstate⟩ := hstored
    exact ⟨hrunning, ⟨r, hr, by simpa using hstate⟩, hguard.2.2.1, nofun⟩
  · exact h

/-- A reset is prepared with a settled journal and a calm task. -/
theorem Invariant.progressPreparing (h : Invariant j w) (hrunning : w.running = true) (proposed : Record)
    (succeeds : Bool) : Invariant j (w.progressPreparing proposed succeeds) := by
  unfold World.progressPreparing
  split
  swap
  · exact h
  next record ok hrecord hresult =>
  split_ifs with hguard
  · exact h
  simp only [not_or, not_not, Bool.not_eq_true', Bool.not_eq_false] at hguard
  obtain ⟨hlock, hstate, hwaits, hprepare⟩ := hguard
  have hactive : terminalState record.state = false := by
    rw [hstate]
    rfl
  obtain ⟨hfrozen, hpending⟩ := h.gated hrunning record hrecord hactive
  have hdone : Invariant j { w with barrierWaited := false } := { h with waited := nofun }
  dsimp only
  split
  swap
  · exact hdone
  next hproposed =>
  rcases saveRecord_cases { w with barrierWaited := false } proposed succeeds with hfailed | ⟨hsaved, hadmits⟩
  · rw [hfailed]
    exact hdone
  · rw [hsaved]
    have hbound : proposed.prepare.targetGeneration.toNat ≤ w.dataGeneration.toNat + 1 := by
      rw [hprepare]
      exact h.record record hrecord
    have hsettled : proposed.state ≠ .preparing → Settled w.drain ∧ w.dataResetProducerQuiesced = true := by
      intro hnot
      obtain ⟨-, hok, hquiesced⟩ := hproposed.resolve_left hnot
      exact ⟨(h.waited hwaits).2.2.2 (by rw [hresult, hok]), hquiesced⟩
    refine h.store hlock hadmits hbound hpending rfl (fun _ => hfrozen) (fun _ hnot => ?_) ?_
    · exact ⟨(hsettled hnot).1, fun _ => h.calm hfrozen (hsettled hnot).2⟩
    · by_cases hnot : proposed.state = .preparing
      · exact Or.inr hnot
      · exact Or.inl (hsettled hnot).1

theorem Invariant.progressCommit (h : Invariant j w) (hrunning : w.running = true) (proposed : Record)
    (succeeds : Bool) : Invariant j (w.progressCommit proposed succeeds) := by
  unfold World.progressCommit
  split
  · exact h
  next record hrecord =>
  split
  swap
  · exact h
  next hguard =>
  obtain ⟨hlock, hstate, hprepare, -, -⟩ := hguard
  have hkind : terminalState record.state = false ∧ record.state ≠ .preparing := by
    rcases hstate with hs | hs | hs
    all_goals
      rw [hs]
      decide
  obtain ⟨hfrozen, hpending⟩ := h.gated hrunning record hrecord hkind.1
  obtain ⟨hsettled, hcalm⟩ := h.prepared record hrecord hkind.1 hkind.2
  have hwaits : w.barrierWaited = false := by
    by_contra hwaits
    obtain ⟨r, hr, hpreparing⟩ := (h.waited (by simpa using hwaits)).2.1
    rw [hrecord, Option.some.injEq] at hr
    exact hkind.2 (hr ▸ hpreparing)
  rcases saveRecord_cases w proposed succeeds with hfailed | ⟨hsaved, hadmits⟩
  · rw [hfailed]
    exact h
  · rw [hsaved]
    refine h.store hlock hadmits ?_ hpending hwaits (fun _ => hfrozen) (fun _ _ => ⟨hsettled, hcalm⟩) (Or.inl hsettled)
    rw [hprepare]
    exact h.record record hrecord

theorem Invariant.installGeneration (h : Invariant j w) : Invariant j w.installGeneration := by
  unfold World.installGeneration
  split
  · exact h
  next record hrecord =>
  split
  swap
  · exact h
  next hguard =>
  have hle : w.dataGeneration.toNat ≤ record.prepare.targetGeneration.toNat := by
    have hnext := hguard.2.2
    omega
  have hlater : ∀ {n : ℕ}, n ≤ w.dataGeneration.toNat + 1 → n ≤ record.prepare.targetGeneration.toNat + 1 := fun hn =>
    Nat.le_trans hn (Nat.add_le_add_right hle 1)
  exact { h with
    sound := h.sound.later hle
    barrier := hlater h.barrier
    pending := fun p hp => hlater (h.pending p hp)
    record := fun r hr => hlater (h.record r hr) }

/-! ### The boot -/

theorem calm_fresh (w : World) (drain : Slots) (e : BootMoment) : Calm (w.fresh drain e) :=
  ⟨rfl, rfl, quiet_iterate (emptied_boot e.energyOffsetWh e.energyBaselineAbsoluteWh)⟩

/-- A device that has lost its power. -/
theorem Invariant.fresh (h : Invariant j w) {drain : Slots} (e : BootMoment) (hsound : Sound j w.dataGeneration drain)
    (hsettled : Settled w.drain → Settled drain) : Invariant j (w.fresh drain e) where
  honest := honest_iterate (Task.boot e.energyOffsetWh e.energyBaselineAbsoluteWh)
  calm := fun _ _ => calm_fresh w drain e
  unsettled := fun hrunning => absurd hrunning Bool.false_ne_true
  prepared := fun r hr hactive hstate => ⟨hsettled (h.prepared r hr hactive hstate).1, fun _ => calm_fresh w drain e⟩
  gated := fun hrunning => absurd hrunning Bool.false_ne_true
  opening := fun hopening => nomatch hopening
  inactive := fun _ => rfl
  waited := fun hwaits => absurd hwaits Bool.false_ne_true
  begun := h.begun
  sound := hsound
  barrier := Nat.zero_le _
  pending := fun _ hp => nomatch hp
  record := h.record

/-- **A boot** completes what was staged, unless the reset it was staged for goes on. -/
theorem Invariant.boot (h : Invariant j w) (e : BootMoment) : Invariant j (w.boot j serializes e) := by
  obtain ⟨hsound, hsettled, hdone⟩ := @drained_recover j serializes _ _ h.sound w.record w.deviceId w.dataGeneration
    w.cardGeneration e.drain
  unfold World.boot
  dsimp only
  generalize recoverOrphanedDataResetDrain j serializes w.record w.deviceId w.dataGeneration w.cardGeneration e.drain
    w.drain = out at hsound hsettled hdone
  have hfresh := h.fresh e hsound hsettled
  have hcalm := calm_fresh w out.2 e
  have hprepared : ∀ r, w.record = some r → terminalState r.state = false → r.state ≠ .preparing → Settled out.2 :=
    fun r hr hactive hstate => hsettled (h.prepared r hr hactive hstate).1
  split_ifs with hfailed hgated
  · exact hfresh
  all_goals
    rw [Bool.not_eq_true, Bool.or_eq_false_iff, Bool.not_eq_false'] at hfailed
  · obtain ⟨b, hclosed, -, hbound⟩ := closeGates_of_open hfresh rfl
    rw [hclosed]
    refine { hfresh with
      calm := fun _ _ => hcalm
      unsettled := fun _ => ?_
      prepared := fun r hr hactive hstate => ⟨hprepared r hr hactive hstate, fun _ => hcalm⟩
      gated := fun _ _ _ _ => ⟨rfl, rfl⟩
      inactive := fun hopen => nomatch hopen
      waited := fun hwaits => absurd hwaits Bool.false_ne_true
      barrier := hbound }
    rcases hdone hfailed.1 with hnow | ⟨r, hr, hactive⟩
    · exact Or.inl hnow
    · by_cases hstate : r.state = .preparing
      · exact Or.inr (Or.inr ⟨r, hr, hstate⟩)
      · exact Or.inl (hprepared r hr hactive hstate)
  · -- a stored reset that is not at its end would have closed the gates
    have hnothing : ∀ r, w.record = some r → terminalState r.state ≠ false := by
      intro r hr hactive
      have hbegun := h.begun r hr
      rw [hr, Option.any_some] at hgated
      cases hs : r.state <;> simp_all [readingGateRequired, terminalState]
    refine { hfresh with
      unsettled := fun _ => ?_
      prepared := fun r hr hactive hstate => ⟨hprepared r hr hactive hstate, fun _ => hcalm⟩
      gated := fun _ r hr hactive => absurd hactive (hnothing r hr)
      waited := fun hwaits => absurd hwaits Bool.false_ne_true }
    rcases hdone hfailed.1 with hnow | ⟨r, hr, hactive⟩
    · exact Or.inl hnow
    · exact absurd hactive (hnothing r hr)

/-! ### All runs -/

/-- **One action** that finds what it must keeps the invariant. -/
theorem Invariant.after (h : Invariant j w) (a : Action) (hmeets : Meets w a) : Invariant j (w.after j serializes a) := by
  have hif : ∀ {w' : World}, (w.running = true → Invariant j w') → Invariant j (if w.running then w' else w) := by
    intro w' hw'
    split
    · next hrunning => exact hw' hrunning
    · exact h
  cases a with
  | boot e => exact h.boot e
  | poll => exact hif fun _ => h.poll
  | enqueueSample sample => exact hif fun _ => h.enqueueSample sample
  | produce e => exact hif fun hrunning => h.produce hrunning e hmeets
  | drainBarrier ready e => exact hif fun _ => h.drainBarrier ready e
  | requestPrepare request admissible => exact hif fun hrunning => h.requestPrepare hrunning request admissible
  | disableRecordWrites => exact hif fun _ => h.disableRecordWrites
  | rejectPrepare => exact hif fun _ => h.rejectPrepare hmeets
  | acceptPrepare => exact hif fun _ => h.acceptPrepare
  | processPendingPrepare started succeeds => exact hif fun hrunning => h.processPendingPrepare hrunning started succeeds
  | requestCancel cancelled loads offsetWh succeeds => exact hif fun _ => h.requestCancel cancelled loads offsetWh succeeds
  | queueDataResetBarrier => exact hif fun hrunning => h.queueDataResetBarrier hrunning
  | progressPreparing proposed succeeds => exact hif fun hrunning => h.progressPreparing hrunning proposed succeeds
  | progressCommit proposed succeeds => exact hif fun hrunning => h.progressCommit hrunning proposed succeeds
  | installGeneration => exact hif fun _ => h.installGeneration
  | openGates cardVerified => exact hif fun _ => h.openGates cardVerified
  | releaseFreeze succeeds => exact hif fun _ => h.releaseFreeze succeeds

theorem invariant_of_reachable (h : Reachable j serializes Meets w) : Invariant j w := by
  induction h with
  | new deviceId dataGeneration cardGeneration => exact invariant_new deviceId dataGeneration cardGeneration
  | step _ a ha ih => exact ih.after a ha

/-- The journal admits the first record of the next operation, if that has an identifier of its own. -/
def NextAdmitted (j : JsonLibrary) (w : World) : Prop :=
  ∀ d, validDrainRecord j d = true → d.state = .staged → d.targetGeneration.toNat = w.dataGeneration.toNat + 1 →
    (∀ left, w.drain.active = some left → left.operationId ≠ d.operationId) → drainAdmits j w.drain.active d = true

/-- **Nothing is left behind.** In every run whose actions find what they must, a device whose gates are open and that
has no reset in progress has a journal that is completed, or none; it admits what is staged for the next operation. -/
theorem nothing_left_behind :
    ∀ w, Reachable j serializes Meets w → Idle w → Settled w.drain ∧ NextAdmitted j w := by
  intro w h hidle
  have hinv := invariant_of_reachable h
  have hsettled : Settled w.drain := by
    rcases hinv.unsettled hidle.running with hsettled | hpending | hpreparing
    · exact hsettled
    · exact absurd (Or.inl hpending) hidle.nothing
    · exact absurd (Or.inr hpreparing.not_terminal) hidle.nothing
  refine ⟨hsettled, fun d hvalid hstaged htarget hown => ?_⟩
  cases hactive : w.drain.active with
  | none => simp [drainAdmits, hstaged]
  | some left =>
    have hgeneration : left.targetGeneration ≤ d.targetGeneration := by
      rw [UInt64.le_iff_toNat_le, htarget]
      exact hinv.sound.generation left hactive
    exact (drainAdmits_iff (hinv.sound.valid left hactive) hvalid (hsettled left hactive) hstaged hgeneration).mpr
      (hown left hactive)

theorem idle_of_nothing (hrunning : w.running = true) (hfrozen : w.dataResetFrozen = false)
    (hwrites : w.recordWritesEnabled = true) (hpending : w.pendingPrepare.isSome = false)
    (hrecord : w.record.isNone = true) : Idle w := by
  refine ⟨hrunning, hfrozen, hwrites, ?_⟩
  rintro (hsome | ⟨r, hr, -⟩)
  · exact Bool.false_ne_true (hpending.symm.trans hsome)
  · rw [hr] at hrecord
    exact Bool.false_ne_true hrecord

/-- A device that has rejected a prepare before anything was gathered. -/
def rejected : World :=
  [.boot {}, .requestPrepare asked.prepare true, .disableRecordWrites, .rejectPrepare, .openGates true,
    .releaseFreeze true].foldl (World.after textJson fun _ => true) (World.new asked.prepare.deviceId 0 1)

theorem nothing_left_behind_rejected : Settled rejected.drain ∧ NextAdmitted textJson rejected := by
  have hboot : Reachable textJson (fun _ => true) Meets _ := .step (.new asked.prepare.deviceId 0 1) (.boot {}) trivial
  have hclosed := (hboot.step (.requestPrepare asked.prepare true) trivial).step .disableRecordWrites trivial
  have hrejected := hclosed.step .rejectPrepare fun _ => settled_empty
  have hopened := (hrejected.step (.openGates true) trivial).step (.releaseFreeze true) trivial
  have hstate : rejected.running = true ∧ rejected.dataResetFrozen = false ∧ rejected.recordWritesEnabled = true ∧
    rejected.pendingPrepare.isSome = false ∧ rejected.record.isNone = true := by decide +kernel
  obtain ⟨hrunning, hfrozen, hwrites, hpending, hrecord⟩ := hstate
  exact nothing_left_behind rejected hopened (idle_of_nothing hrunning hfrozen hwrites hpending hrecord)

/-! ### A stranded journal -/

/-- What the task finds. -/
def found : Moment where
  setting := {
    config := { friendlyName := ascii "meter" }
    identity := { deviceId := asked.prepare.deviceId, bootId := cutShort.bootId }
    firmwareVersion := ascii "1.0.0" }

/-- A sample is gathered; a prepare closes the gates, the task cuts its interval short and stages it, and the prepare is
rejected. -/
def stranding : List Action :=
  ([.boot {}, .poll, .enqueueSample (some (sampleAt 1 500).sample)] : List Action) ++
    List.replicate 6 (Action.produce found) ++
    ([.requestPrepare asked.prepare true, .disableRecordWrites] : List Action) ++
    List.replicate 15 (Action.produce found) ++
    ([.rejectPrepare, .openGates true, .releaseFreeze true] : List Action)

def stranded : World := stranding.foldl (World.after textJson fun _ => true) (World.new asked.prepare.deviceId 0 1)

theorem reachable_foldl {j : JsonLibrary} {serializes : DrainRecord → Bool} (actions : List Action) : ∀ {w : World},
    Reachable j serializes (fun _ _ => True) w →
    Reachable j serializes (fun _ _ => True) (actions.foldl (World.after j serializes) w) := by
  induction actions with
  | nil => exact fun h => h
  | cons a actions ih => exact fun h => ih (h.step a trivial)

theorem stranded_state : stranded.running = true ∧ stranded.dataResetFrozen = false ∧
    stranded.recordWritesEnabled = true ∧ stranded.pendingPrepare.isSome = false ∧ stranded.record.isNone = true ∧
    (stranded.drain.active.map fun d => (d.state, d.operationId)) = some (.staged, asked.prepare.operationId) := by
  decide +kernel

/-- The gates are open and nothing is in progress, but the journal is staged, and nothing of another operation is
admitted. -/
theorem stranded_reachable : ∃ w, Reachable textJson (fun _ => true) (fun _ _ => True) w ∧ Idle w ∧ ¬ Settled w.drain ∧
    drainAdmits textJson w.drain.active drainStagedAgain = false := by
  obtain ⟨hrunning, hfrozen, hwrites, hpending, hrecord, hdrain⟩ := stranded_state
  obtain ⟨d, hd, hstate⟩ := Option.map_eq_some_iff.mp hdrain
  obtain ⟨hstaged, hid⟩ := Prod.mk.inj hstate
  have hidle := idle_of_nothing hrunning hfrozen hwrites hpending hrecord
  refine ⟨stranded, reachable_foldl stranding (.new _ 0 1), hidle, fun hsettled => ?_, ?_⟩
  · exact nomatch hstaged.symm.trans (hsettled d hd)
  · have hother : d.operationId ≠ drainStagedAgain.operationId := by
      rw [hid]
      decide
    rw [hd]
    show validDrainRecordUpdate textJson d drainStagedAgain = false
    unfold validDrainRecordUpdate
    split_ifs
    · rfl
    · simp [hstaged]

end PowerMonitor.Reset.Abandonment
