import PowerMonitor.Reset.Abandonment

/-! # Whose the barrier is

What the task stages for a reset is stored in the name of the operation that the barrier was begun for. A barrier
begins when the gates are closed, but not when they are closed again: gates that an earlier operation still holds,
because their release timed out, keep its barrier. In every run in which no other operation is accepted at such gates,
the barrier is that of the prepare that is pending, or of the reset in progress. -/

namespace PowerMonitor.Reset.Binding

open PowerMonitor.Lib.Binary PowerMonitor.Lib.Json PowerMonitor.Lib.Program PowerMonitor.Storage.Reading
open PowerMonitor.Core.IntervalAggregator PowerMonitor.Core.Aggregation PowerMonitor.Core.AggregationTask
open PowerMonitor.Reset.Policy PowerMonitor.Reset.Operation PowerMonitor.Reset.DrainJournal
open PowerMonitor.Reset.Preparation PowerMonitor.Reset.Abandonment
open PowerMonitor.Reset.RecordStore (asked)

/-! ### Attempts that time out -/

/-- The gates are not closed because the freeze times out: the barrier that was begun is ended again, and the prepare
that asked for it is dropped. Gates that were closed before stay so. -/
def closingFails (w : World) (request : Option PrepareRequest) : World :=
  if w.dataResetFrozen then w
  else
    let begun := { w with pendingPrepare := request.or w.pendingPrepare }.beginDataResetProducerBarrier
    { w with barrier := { begun.barrier with active := false, producerQuiesced := true } }

section

variable (j : JsonLibrary) (serializes : DrainRecord → Bool)

/-- A boot whose gates time out at first: it closes them then, and the device does not run. -/
def haltedBoot (w : World) (e : BootMoment) : World :=
  let recovered := recoverOrphanedDataResetDrain j serializes w.record w.deviceId w.dataGeneration w.cardGeneration
    e.drain w.drain
  { (w.fresh recovered.2 e).closeGates with recordWritesEnabled := false }

inductive Move
  | act (a : Action)
  | closingFails (request : Option PrepareRequest)
  | haltedBoot (e : BootMoment)

def afterMove (w : World) : Move → World
  | .act a => w.after j serializes a
  | .closingFails request => if w.running ∧ w.lock = .free then closingFails w request else w
  | .haltedBoot e => haltedBoot j serializes w e

/-- The device after any moves that `A` admits. -/
inductive Reached (A : World → Move → Prop) : World → Prop
  | new (deviceId : Bytes) (dataGeneration cardGeneration : UInt64) :
    Reached A (World.new deviceId dataGeneration cardGeneration)
  | step {w : World} (h : Reached A w) (m : Move) (hm : A w m) : Reached A (afterMove j serializes w m)

end

/-! ### The owner -/

/-- The journal is in the name of the prepare. -/
def OwnedBy (d : DrainRecord) (p : PrepareRequest) : Prop :=
  d.operationId = p.operationId ∧ d.deviceId = p.deviceId ∧ d.sourceGeneration = p.targetGeneration - 1 ∧
    d.targetGeneration = p.targetGeneration

/-- So is what the barrier stages. -/
def BoundTo (b : Barrier) (p : PrepareRequest) : Prop :=
  b.operationId = p.operationId ∧ b.deviceId = p.deviceId ∧ b.sourceGeneration = p.targetGeneration - 1 ∧
    b.targetGeneration = p.targetGeneration

/-- The prepare is pending, or it is that of a reset that is not at its end. -/
def InCharge (w : World) (p : PrepareRequest) : Prop :=
  w.pendingPrepare = some p ∨ ∃ r, w.record = some r ∧ terminalState r.state = false ∧ r.prepare = p

/-- **The barrier is bound**: whatever is staged through it is owned by the operation in charge, and the journal that
the task leaves, if it stages one, is. -/
def Bound (j : JsonLibrary) (serializes : DrainRecord → Bool) (w : World) : Prop :=
  w.barrier.active = true → ∀ p, InCharge w p →
    (∀ records offsetWh, OwnedBy (stagedRecord j w.barrier records offsetWh) p) ∧
    ∀ e d, (w.produce j serializes e).drain.active = some d → w.drain.active = some d ∨ OwnedBy d p

/-- **What a move must find**: a prepare that comes while the gates are still held is of the operation that they were
closed for. -/
def Meets (w : World) : Move → Prop
  | .act (.requestPrepare request _) => w.dataResetFrozen = true → BoundTo w.barrier request
  | _ => True

structure Inv (w : World) : Prop where
  bound : w.barrier.active = true → ∀ p, InCharge w p → BoundTo w.barrier p
  inactive : w.dataResetFrozen = false → w.barrier.active = false
  alone : ∀ p, w.pendingPrepare = some p → ∀ r, w.record = some r → terminalState r.state = true

variable {j : JsonLibrary} {serializes : DrainRecord → Bool} {w : World}

theorem inv_new (deviceId : Bytes) (dataGeneration cardGeneration : UInt64) :
    Inv (World.new deviceId dataGeneration cardGeneration) where
  bound := fun hactive => absurd hactive Bool.false_ne_true
  inactive := fun _ => rfl
  alone := fun _ hp => nomatch hp

/-- A reset in progress leaves no prepare pending. -/
theorem Inv.nothing_pending (h : Inv w) {r : Record} (hr : w.record = some r) (hactive : terminalState r.state = false) :
    w.pendingPrepare = none := by
  cases hp : w.pendingPrepare with
  | none => rfl
  | some p => exact absurd ((h.alone p hp r hr).symm.trans hactive) (by decide)

/-- A device whose barrier is not active. -/
theorem Inv.of_inactive (halone : ∀ p, w.pendingPrepare = some p → ∀ r, w.record = some r → terminalState r.state = true)
    (hinactive : w.barrier.active = false) : Inv w where
  bound := fun hactive => absurd (hinactive.symm.trans hactive) Bool.false_ne_true
  inactive := fun _ => hinactive
  alone := halone

/-! ### The gates -/

/-- What closing the gates does when they are open. -/
theorem closeGates_cases (hopen : w.dataResetFrozen = false) :
    w.closeGates = { w with dataResetFrozen := true } ∨
      ∃ prepare, w.pendingPrepare.or (w.record.map (·.prepare)) = some prepare ∧
        w.closeGates = { w with dataResetFrozen := true, barrier := w.barrierOf prepare } := by
  rw [World.closeGates, if_neg (by simp [hopen]), World.beginDataResetProducerBarrier]
  cases hprepare : w.pendingPrepare.or (w.record.map (·.prepare)) with
  | none => exact .inl rfl
  | some prepare =>
    by_cases htarget : prepare.targetGeneration = 0
    · exact .inl (by simp [htarget])
    · exact .inr ⟨prepare, rfl, by simp [htarget]⟩

theorem boundTo_barrierOf (w : World) (p : PrepareRequest) : BoundTo (w.barrierOf p) p := ⟨rfl, rfl, rfl, rfl⟩

/-- **Closing the gates** begins the barrier of the operation in charge. -/
theorem Inv.closeGates (h : Inv w) : Inv w.closeGates := by
  cases hopen : w.dataResetFrozen with
  | true =>
    rw [World.closeGates, if_pos hopen]
    exact h
  | false =>
    rcases closeGates_cases hopen with hclosed | ⟨prepare, hprepare, hclosed⟩
    · rw [hclosed]
      exact .of_inactive h.alone (h.inactive hopen)
    · rw [hclosed]
      refine { h with bound := fun _ p hcharge => ?_, inactive := Bool.noConfusion }
      have hp : prepare = p := by
        rcases hcharge with hpending | ⟨r, hr, hactive, rfl⟩
        · rw [show w.pendingPrepare = some p from hpending] at hprepare
          exact (Option.some.inj hprepare).symm
        · rw [h.nothing_pending hr hactive, show w.record = some r from hr] at hprepare
          exact (Option.some.inj hprepare).symm
      exact hp ▸ boundTo_barrierOf w prepare

theorem Inv.closingFails (h : Inv w) (request : Option PrepareRequest) : Inv (closingFails w request) := by
  unfold Binding.closingFails
  split
  · exact h
  · exact .of_inactive h.alone rfl

theorem Inv.disableRecordWrites (h : Inv w) : Inv w.disableRecordWrites := by
  unfold World.disableRecordWrites
  split
  · exact { h with }
  · exact h

theorem Inv.openGates (h : Inv w) (cardVerified : Bool) : Inv (w.openGates cardVerified) := by
  unfold World.openGates
  split
  · exact { h with }
  · exact h

theorem Inv.releaseFreeze (h : Inv w) (succeeds : Bool) : Inv (w.releaseFreeze succeeds) := by
  unfold World.releaseFreeze
  split_ifs
  · exact h
  · exact .of_inactive h.alone rfl
  · exact { h with }

/-! ### The coordinator -/

/-- A record is stored: that of the operation in charge, or one at its end. -/
theorem Inv.store (h : Inv w) {proposed : Record} (barrierWaited : Bool)
    (hcharge : terminalState proposed.state = false → InCharge w proposed.prepare) :
    Inv { w with record := some proposed, pendingPrepare := none, barrierWaited := barrierWaited } where
  bound := by
    rintro hactive p (hnone | ⟨r, hr, hopen, rfl⟩)
    · cases hnone
    · obtain rfl : proposed = r := Option.some.inj hr
      exact h.bound hactive _ (hcharge hopen)
  inactive := h.inactive
  alone := fun _ hp => nomatch hp

/-- The record of a reset in progress is replaced by one of the same operation. -/
theorem Inv.saveRecord (h : Inv w) {record proposed : Record} (hrecord : w.record = some record)
    (hactive : terminalState record.state = false) (hprepare : proposed.prepare = record.prepare) (succeeds : Bool) :
    Inv ((w.saveRecord proposed succeeds).getD w) := by
  rcases saveRecord_cases w proposed succeeds with hfailed | ⟨hsaved, -⟩
  · rw [hfailed]
    exact h
  · rw [hsaved]
    have hsame : { w with record := some proposed } =
        { w with record := some proposed, pendingPrepare := none, barrierWaited := w.barrierWaited } := by
      rw [← h.nothing_pending hrecord hactive]
    exact hsame ▸ h.store w.barrierWaited fun _ => .inr ⟨record, hrecord, hactive, hprepare.symm⟩

/-- A prepare is accepted beside a stored record only if that is at its end. -/
theorem terminal_of_accept {r : Record} {g : UInt64} {p : PrepareRequest}
    (h : classifyPrepareRequest (some r) g p = .accept) : terminalState r.state = true := by
  unfold classifyPrepareRequest at h
  by_contra hopen
  dsimp only at h
  split_ifs at h
  all_goals simp_all

theorem Inv.requestPrepare (h : Inv w) (request : PrepareRequest) (admissible : Bool)
    (hheld : w.dataResetFrozen = true → BoundTo w.barrier request) : Inv (w.requestPrepare request admissible) := by
  unfold World.requestPrepare
  split
  · exact h
  next haccepted =>
  have hterminal : ∀ r, w.record = some r → terminalState r.state = true := by
    intro r hr
    refine terminal_of_accept (g := w.dataGeneration) (p := request) ?_
    by_contra hrefused
    exact haccepted (.inr (.inr (.inr (.inr (.inr (.inr (.inr (hr ▸ hrefused))))))))
  have hasked : Inv { w with pendingPrepare := some request, lock := .checking } := by
    refine { h with bound := ?_, alone := fun _ _ => hterminal }
    rintro hactive p (hpending | ⟨r, hr, hopen, -⟩)
    · obtain rfl : request = p := Option.some.inj hpending
      cases hfrozen : w.dataResetFrozen with
      | true => exact hheld hfrozen
      | false => exact absurd ((h.inactive hfrozen).symm.trans hactive) Bool.false_ne_true
    · exact absurd ((hterminal r hr).symm.trans hopen) (by decide)
  exact hasked.closeGates

theorem Inv.drop (h : Inv w) (lock : Lock) : Inv { w with pendingPrepare := none, lock := lock } where
  bound := by
    rintro hactive p (hnone | hrecord)
    · cases hnone
    · exact h.bound hactive p (.inr hrecord)
  inactive := h.inactive
  alone := fun _ hp => nomatch hp

theorem Inv.rejectPrepare (h : Inv w) : Inv w.rejectPrepare := by
  unfold World.rejectPrepare
  split
  · exact h.drop .free
  · exact h

theorem Inv.acceptPrepare (h : Inv w) : Inv w.acceptPrepare := by
  unfold World.acceptPrepare
  split
  · exact { h with }
  · exact h

/-- **The first record** of an operation is stored when its barrier is quiesced. -/
theorem Inv.processPendingPrepare (h : Inv w) (startedUtcMs : UInt64) (succeeds : Bool) :
    Inv (w.processPendingPrepare startedUtcMs succeeds) := by
  unfold World.processPendingPrepare
  cases hpending : w.pendingPrepare with
  | none => exact h
  | some request =>
    dsimp only
    split
    · exact h
    split
    · exact h.closeGates
    have hclosed : w.closeGates.pendingPrepare = some request := by
      rw [← hpending]
      cases hopen : w.dataResetFrozen with
      | true => rw [World.closeGates, if_pos hopen]
      | false => rcases closeGates_cases hopen with hclosed | ⟨_, -, hclosed⟩ <;> rw [hclosed]
    rcases saveRecord_cases w.closeGates (preparingRecord request startedUtcMs) succeeds with hfailed | ⟨hsaved, -⟩
    · rw [hfailed]
      exact h.closeGates
    · rw [hsaved]
      exact h.closeGates.store false fun _ => .inl hclosed

theorem Inv.requestCancel (h : Inv w) (cancelled : Record) (loads : Bool) (energyOffsetWh : UInt64) (succeeds : Bool) :
    Inv (w.requestCancel cancelled loads energyOffsetWh succeeds) := by
  unfold World.requestCancel
  split
  · exact h
  next record hrecord =>
  split_ifs with hguard
  · exact h
  · exact h
  · exact h
  have hstate : cancelled.state = .cancelled := by
    by_contra hother
    exact hguard (.inr (.inr (.inl hother)))
  rcases saveRecord_cases w cancelled succeeds with hfailed | ⟨hsaved, -⟩
  · rw [hfailed]
    exact h
  · rw [hsaved]
    exact h.store false fun hopen => absurd (hstate ▸ hopen) (by decide)

theorem Inv.queueDataResetBarrier (h : Inv w) : Inv w.queueDataResetBarrier := by
  unfold World.queueDataResetBarrier
  split
  · exact { h with }
  · exact h

theorem Inv.progressPreparing (h : Inv w) (proposed : Record) (succeeds : Bool) :
    Inv (w.progressPreparing proposed succeeds) := by
  unfold World.progressPreparing
  split
  swap
  · exact h
  next record ok hrecord hresult =>
  split
  · exact h
  next hguard =>
  have hdone : Inv { w with barrierWaited := false } := { h with }
  dsimp only
  split
  swap
  · exact hdone
  have hpreparing : record.state = .preparing := by
    by_contra hother
    exact hguard (.inr (.inl hother))
  have hprepare : proposed.prepare = record.prepare := by
    by_contra hother
    exact hguard (.inr (.inr (.inr hother)))
  exact hdone.saveRecord hrecord (hpreparing ▸ rfl) hprepare succeeds

theorem Inv.progressCommit (h : Inv w) (proposed : Record) (succeeds : Bool) :
    Inv (w.progressCommit proposed succeeds) := by
  unfold World.progressCommit
  split
  · exact h
  next record hrecord =>
  split
  swap
  · exact h
  next hguard =>
  obtain ⟨-, hstate, hprepare, -, -⟩ := hguard
  refine h.saveRecord hrecord ?_ hprepare succeeds
  rcases hstate with hs | hs | hs
  all_goals
    rw [hs]
    rfl

theorem Inv.installGeneration (h : Inv w) : Inv w.installGeneration := by
  unfold World.installGeneration
  split
  · exact h
  split
  · exact { h with }
  · exact h

/-! ### The task and the power -/

theorem Inv.produce (h : Inv w) (e : Moment) : Inv (w.produce j serializes e) := by
  unfold World.produce
  cases w.task with
  | ret t => exact { h with }
  | call op k =>
    cases op with
    | markDataResetProducerQuiesced =>
      show Inv { (if w.barrier.active then _ else w) with task := k () }
      split
      · exact { h with }
      · exact { h with }
    | _ => exact { h with }

theorem Inv.enqueueSample (h : Inv w) (sample : Option MeasurementSnapshot) : Inv (w.enqueueSample sample) := by
  unfold World.enqueueSample
  split
  · exact { h with }
  · exact h

theorem Inv.poll (h : Inv w) : Inv w.poll := by
  unfold World.poll
  split
  · exact h
  · exact { h with }

theorem Inv.drainBarrier (h : Inv w) (ready : Bool) (e : DrainMoment) : Inv (w.drainBarrier j serializes ready e) := by
  unfold World.drainBarrier
  split_ifs
  · exact h
  · exact { h with }
  · exact { h with }

theorem inv_fresh (w : World) (drain : Slots) (e : BootMoment) : Inv (w.fresh drain e) :=
  .of_inactive (fun _ hp => nomatch hp) rfl

theorem inv_boot (w : World) (e : BootMoment) : Inv (w.boot j serializes e) := by
  unfold World.boot
  dsimp only
  have hclosed := (inv_fresh w (recoverOrphanedDataResetDrain j serializes w.record w.deviceId w.dataGeneration
    w.cardGeneration e.drain w.drain).2 e).closeGates
  split_ifs
  · exact inv_fresh w _ e
  · exact { hclosed with }
  · exact .of_inactive (fun _ hp => nomatch hp) rfl

/-! ### All runs -/

theorem Inv.after (h : Inv w) (a : Action) (hmeets : Meets w (.act a)) : Inv (w.after j serializes a) := by
  have hif : ∀ {w' : World}, Inv w' → Inv (if w.running then w' else w) := by
    intro w' hw'
    split
    · exact hw'
    · exact h
  cases a with
  | boot e => exact inv_boot w e
  | poll => exact hif h.poll
  | enqueueSample sample => exact hif (h.enqueueSample sample)
  | produce e => exact hif (h.produce e)
  | drainBarrier ready e => exact hif (h.drainBarrier ready e)
  | requestPrepare request admissible => exact hif (h.requestPrepare request admissible hmeets)
  | disableRecordWrites => exact hif h.disableRecordWrites
  | rejectPrepare => exact hif h.rejectPrepare
  | acceptPrepare => exact hif h.acceptPrepare
  | processPendingPrepare started succeeds => exact hif (h.processPendingPrepare started succeeds)
  | requestCancel cancelled loads offsetWh succeeds => exact hif (h.requestCancel cancelled loads offsetWh succeeds)
  | queueDataResetBarrier => exact hif h.queueDataResetBarrier
  | progressPreparing proposed succeeds => exact hif (h.progressPreparing proposed succeeds)
  | progressCommit proposed succeeds => exact hif (h.progressCommit proposed succeeds)
  | installGeneration => exact hif h.installGeneration
  | openGates cardVerified => exact hif (h.openGates cardVerified)
  | releaseFreeze succeeds => exact hif (h.releaseFreeze succeeds)

theorem inv_of_reached (h : Reached j serializes Meets w) : Inv w := by
  induction h with
  | new deviceId dataGeneration cardGeneration => exact inv_new deviceId dataGeneration cardGeneration
  | step _ m hm ih =>
    cases m with
    | act a => exact ih.after a hm
    | closingFails request =>
      show Inv (if _ then _ else _)
      split
      · exact Inv.closingFails ih request
      · exact ih
    | haltedBoot e => exact { (inv_fresh _ _ e).closeGates with }

/-- What the task stores in the journal is what it stages through the barrier. -/
theorem staged_of_produce {e : Moment} {d : DrainRecord} (hd : (w.produce j serializes e).drain.active = some d) :
    w.drain.active = some d ∨ ∃ records offsetWh, d = stagedRecord j w.barrier records offsetWh := by
  unfold World.produce at hd
  cases htask : w.task with
  | ret t =>
    rw [htask] at hd
    exact .inl hd
  | call op k =>
    rw [htask] at hd
    cases op with
    | saveStaged records offsetWh =>
      have hjournal : (saveDrain j serializes (stagedRecord j w.barrier records offsetWh) e.succeeds w.drain).2.active =
        some d := hd
      rcases @saveDrain_cases j serializes (stagedRecord j w.barrier records offsetWh) e.succeeds w.drain with
        ⟨hsame, -⟩ | ⟨hcommit, -⟩
      · exact .inl (hsame ▸ hjournal)
      · rw [hcommit] at hjournal
        exact .inr ⟨records, offsetWh, (Option.some.inj hjournal).symm⟩
    | markDataResetProducerQuiesced =>
      refine .inl (Eq.trans ?_ hd)
      show _ = (if w.barrier.active then _ else w).drain.active
      split <;> rfl
    | _ => exact .inl hd

/-- **The barrier is bound** in every run in which the gates that are still held are asked for by the operation that
closed them. -/
theorem bound_of_reached (h : Reached j serializes Meets w) : Bound j serializes w := by
  intro hactive p hcharge
  have hbound := (inv_of_reached h).bound hactive p hcharge
  refine ⟨fun _ _ => hbound, fun e d hd => (staged_of_produce hd).imp_right ?_⟩
  rintro ⟨records, offsetWh, rfl⟩
  exact hbound

/-! ### Gates that are still held -/

/-- Another operation on the same device. -/
def another : PrepareRequest := { asked.prepare with operationId := ascii "00000000-0000-0000-0000-000000000003" }

/-- A prepare is rejected, and the release of its gates times out or does not; then another one comes. -/
def succession (released : Bool) : List Action :=
  [.boot {}, .requestPrepare asked.prepare true, .disableRecordWrites, .rejectPrepare, .openGates true,
    .releaseFreeze released, .requestPrepare another true]

def succeeded (released : Bool) : World :=
  (succession released).foldl (World.after textJson fun _ => true) (World.new asked.prepare.deviceId 0 1)

theorem succeeded_state (released : Bool) : (succeeded released).pendingPrepare = some another ∧
    (succeeded released).barrier.active = true ∧
    (succeeded released).barrier.operationId = if released then another.operationId else asked.prepare.operationId := by
  cases released <;> decide +kernel

/-- The gates are released before the other prepare comes: the barrier is its own. -/
theorem bound_of_reached_released : (succeeded true).barrier.active = true ∧ InCharge (succeeded true) another ∧
    Bound textJson (fun _ => true) (succeeded true) := by
  have hboot : Reached textJson (fun _ => true) Meets _ := .step (.new asked.prepare.deviceId 0 1) (.act (.boot {})) trivial
  have hasked := hboot.step (.act (.requestPrepare asked.prepare true)) fun hheld => absurd hheld (by decide +kernel)
  have hrejected := (hasked.step (.act .disableRecordWrites) trivial).step (.act .rejectPrepare) trivial
  have hopened := (hrejected.step (.act (.openGates true)) trivial).step (.act (.releaseFreeze true)) trivial
  have hagain := hopened.step (.act (.requestPrepare another true)) fun hheld => absurd hheld (by decide +kernel)
  exact ⟨(succeeded_state true).2.1, .inl (succeeded_state true).1, bound_of_reached hagain⟩

theorem reached_foldl (actions : List Action) : ∀ {w : World}, Reached j serializes (fun _ _ => True) w →
    Reached j serializes (fun _ _ => True) (actions.foldl (World.after j serializes) w) := by
  induction actions with
  | nil => exact fun h => h
  | cons a actions ih => exact fun h => ih (h.step (.act a) trivial)

/-- **The gates are still held** when the other prepare comes: what is staged is in the name of the first one. -/
theorem bound_to_another :
    ¬ ∀ w, Reached textJson (fun _ => true) (fun _ _ => True) w → Bound textJson (fun _ => true) w := by
  intro h
  obtain ⟨hpending, hactive, hoperation⟩ := succeeded_state false
  have hbound := h _ (reached_foldl (succession false) (.new asked.prepare.deviceId 0 1)) hactive another (.inl hpending)
  have howner : asked.prepare.operationId = another.operationId := hoperation.symm.trans (hbound.1 [] 0).1
  exact absurd howner (by decide)

end PowerMonitor.Reset.Binding
