import PowerMonitor.Ota.Checkpoints

/-! # Updates: which attempts are started

A manifest is compared with the record of the last update only. As long as that record is the one of the manifest's
deployment, an attempt that was started is not started again: the record in the memory and the stored one both stand
against it (`Bars`). Once another deployment has taken the record's place, nothing is left of what was started
before.

* `Inv.checkpoint`, `Inv.reported`: a checkpoint and a report keep the invariant.
* `started_increasing`: in a run whose manifests meet the record of their own deployment wherever they could be
  stale, the attempts of each deployment are started in increasing order. -/

namespace PowerMonitor.Ota.Attempts

open PowerMonitor.Lib.Binary PowerMonitor.Lib.Program PowerMonitor.Lib.Memory
open PowerMonitor.Ota.ManifestV2 PowerMonitor.Ota.Recovery PowerMonitor.Ota.OtaService PowerMonitor.Ota.Checkpoints

/-- An attempt of a deployment. -/
abbrev Attempt := Bytes × UInt32

/-- If the record is of the attempt's deployment, no manifest of this attempt or an earlier one passes it. -/
def Bars (r : RecoveryRecord) (p : Attempt) : Prop :=
  r.deploymentId = p.1 → p.2 ≤ r.attempt ∧ (p.2 = r.attempt → r.state ≠ .waitingForSchedule)

/-- **Each attempt is later** than the ones of its deployment before it. -/
def Increasing (started : List Attempt) : Prop := started.Pairwise fun p q => p.1 = q.1 → p.2 < q.2

/-- What holds of the board between any two calls. -/
structure BoardInv (b : Board) : Prop where
  increasing : Increasing b.started
  named : ∀ p ∈ b.started, p.1 ≠ []
  stored : ∀ r ∈ b.stored, ∀ p ∈ b.started, Bars r p

structure Inv (svc : Service) (b : Board) : Prop extends BoardInv b where
  recovery : ∀ p ∈ b.started, Bars svc.recovery p

variable {A : Op → Event → Board → Prop} {svc svc' : Service} {b b' : Board} {m : Manifest} {state : State}
  {result error : Bytes} {r : StoreResult}

/-- The attempts of the manifest's deployment that were started are earlier ones. -/
def Newer (m : Manifest) (b : Board) : Prop := ∀ p ∈ b.started, p.1 = m.deploymentId → p.2 < m.attempt

theorem newer_of_bars {prior : RecoveryRecord} (hnamed : ∀ p ∈ b.started, p.1 ≠ [])
    (hbars : ∀ p ∈ b.started, Bars prior p) (hdeployment : prior.deploymentId = m.deploymentId)
    (hcheck : checkAttempt prior m = .ok ()) : Newer m b := by
  intro p hp hid
  obtain ⟨hle, hwait⟩ := hbars p hp (hdeployment.trans hid.symm)
  have hne : prior.deploymentId ≠ [] := by
    rw [hdeployment, ← hid]
    exact hnamed p hp
  unfold checkAttempt at hcheck
  rw [if_pos ⟨hne, hdeployment⟩] at hcheck
  split_ifs at hcheck with hrelease hstale
  simp only [not_or, not_and, Decidable.not_not, UInt32.not_lt] at hstale
  obtain ⟨hge, hsame⟩ := hstale
  rcases UInt32.lt_or_eq_of_le (UInt32.le_trans hle hge) with hlt | heq
  · exact hlt
  · -- an equal attempt passes only while it waits, and then it was not started
    have hattempt : m.attempt = prior.attempt := UInt32.le_antisymm (heq ▸ hle) hge
    have hwaiting := hsame hattempt
    simp only [sameWaitingAttempt, Bool.and_eq_true, beq_iff_eq] at hwaiting
    exact absurd hwaiting.1.1.1.1.2 (hwait (heq.trans hattempt))

/-! ### Between the calls -/

theorem Inv.of_recovery (h : Inv svc b) (hr : svc'.recovery = svc.recovery) : Inv svc' b where
  toBoardInv := h.toBoardInv
  recovery := by
    rw [hr]
    exact h.recovery

/-- A record that stands against every started attempt, stored. -/
theorem Inv.store {record : RecoveryRecord} (h : Inv svc b) (hbars : ∀ p ∈ b.started, Bars record p) :
    Inv svc { b with stored := some record } where
  increasing := h.increasing
  named := h.named
  stored := by
    rintro r ⟨⟩
    exact hbars
  recovery := h.recovery

/-- A record that stands against every started attempt, stored and kept in the memory. -/
theorem Inv.adopt {record : RecoveryRecord} (h : Inv svc b) (hbars : ∀ p ∈ b.started, Bars record p)
    (hr : svc'.recovery = record) : Inv svc' { b with stored := some record } where
  toBoardInv := (h.store hbars).toBoardInv
  recovery := by
    rw [hr]
    exact hbars

/-- **A checkpoint keeps the invariant** if the record it saves stands against what was started. -/
theorem Inv.checkpoint (h : Inv svc b) (hbars : ∀ p ∈ b.started, Bars (candidate svc state error) p)
    (hcheckpoint : Checkpoint svc b state result error r svc' b') : Inv svc' b' := by
  cases hcheckpoint with
  | failed => exact h.of_recovery rfl
  | unsaid => exact (h.store hbars).of_recovery rfl
  | saved => exact h.adopt hbars rfl

/-- A record that goes on to another state than waiting stands against what the one before did. -/
theorem bars_candidate (h : Inv svc b) (hstate : state ≠ .waitingForSchedule) :
    ∀ p ∈ b.started, Bars (candidate svc state error) p :=
  fun p hp hid => ⟨(h.recovery p hp hid).1, fun _ => hstate⟩

/-- **A report keeps the invariant.** -/
theorem Inv.reported (h : Inv svc b) (hreport : Reported svc b svc' b') : Inv svc' b' := by
  cases hreport with
  | failed => exact h.of_recovery rfl
  | unsaid _ milestone =>
    have hbars : ∀ p ∈ b.started, Bars { svc.recovery with lastReportState := milestone } p := h.recovery
    exact (h.store hbars).of_recovery rfl
  | saved _ milestone =>
    have hbars : ∀ p ∈ b.started, Bars { svc.recovery with lastReportState := milestone } p := h.recovery
    exact h.adopt hbars rfl

/-- The calls that neither store a record nor start an attempt. -/
def Quiet : Op → Prop
  | .save _ | .noteStarted _ => False
  | _ => True

theorem act_quiet {o : Op} (ho : Quiet o) (e : Event) (b : Board) :
    (act o e b).1.stored = b.stored ∧ (act o e b).1.started = b.started := by
  cases o with
  | save | noteStarted => exact ho.elim
  | load => cases e <;> cases hstored : b.stored <;> simp [act, hstored]
  | _ => cases e <;> exact ⟨rfl, rfl⟩

theorem BoardInv.of_eq (h : BoardInv b) (hstored : b'.stored = b.stored) (hstarted : b'.started = b.started) :
    BoardInv b' := by
  refine ⟨?_, ?_, ?_⟩
  · rw [hstarted]
    exact h.increasing
  · rw [hstarted]
    exact h.named
  · rw [hstored, hstarted]
    exact h.stored

theorem Inv.quiet (h : Inv svc b) {o : Op} (ho : Quiet o) (e : Event) : Inv svc (act o e b).1 where
  toBoardInv := h.toBoardInv.of_eq (act_quiet ho e b).1 (act_quiet ho e b).2
  recovery := by
    rw [(act_quiet ho e b).2]
    exact h.recovery

/-! ### The programs that start nothing -/

/-- Keeps the invariant, whatever the events. -/
abbrev KeepsInv {α : Type} (p : OtaProg α) : Prop := Keeps device A BoardInv Inv p

theorem keeps_quiet {o : Op} (ho : Quiet o) : KeepsInv (A := A) (perform o) :=
  keeps_perform (fun _ _ h => h.toBoardInv) fun _ _ e _ h => h.quiet ho e

theorem keeps_memory {f : Service → Service} (hf : ∀ svc, (f svc).recovery = svc.recovery) :
    KeepsInv (A := A) (modify f : OtaProg PUnit) :=
  keeps_modify fun svc _ h => h.of_recovery (hf svc)

theorem keeps_state (hstate : state ≠ .waitingForSchedule) {persist report : Bool} :
    KeepsInv (A := A) (setState state result error persist report) := by
  cases persist with
  | true => exact keeps_setState (fun _ _ h => h.toBoardInv) fun _ _ _ _ _ h => h.checkpoint (bars_candidate h hstate)
  | false => exact keeps_setState_shown fun _ _ h => h.of_recovery rfl

theorem keeps_report : KeepsInv (A := A) flushPendingReportWithLease :=
  keeps_flushPendingReportWithLease (fun _ _ h => h.toBoardInv) fun _ _ _ _ h => h.reported

theorem keeps_failClosed (failureCode : Bytes) : KeepsInv (A := A) (failClosedAfterBootSelection failureCode) :=
  .bind (.bind (keeps_quiet trivial) fun _ => keeps_pure _) fun _ =>
    .bind (keeps_memory fun _ => rfl) fun _ => .bind (keeps_state (by decide)) fun _ => keeps_pure _

theorem keeps_finishUpdate (m : Manifest) (image : Image) : KeepsInv (A := A) (finishUpdate m image) := by
  unfold finishUpdate
  refine .bind (keeps_state (by decide)) fun _ => .bind (keeps_state (by decide)) fun _ => .bind (keeps_quiet trivial) fun _ => ?_
  refine .ite (keeps_pure _) (.bind (.bind (keeps_quiet trivial) fun _ => keeps_pure _) fun verified => ?_)
  cases verified with
  | error code => exact .bind (keeps_failClosed code) fun _ => keeps_pure _
  | ok => exact .bind (keeps_state (by decide)) fun _ => keeps_pure _

theorem keeps_finishInstall : KeepsInv (A := A) finishInstall := by
  unfold finishInstall
  have hfail (failureCode : Bytes) : KeepsInv (A := A) (do
      let _ ← failClosedAfterBootSelection failureCode
      return false) := .bind (keeps_failClosed failureCode) fun _ => keeps_pure _
  refine .bind (keeps_state (by decide)) fun _ => .ite (hfail _) (.bind keeps_report fun _ => ?_)
  refine .bind (keeps_memory fun _ => rfl) fun _ => .bind (keeps_state (by decide)) fun _ => .ite (hfail _) ?_
  refine .bind keeps_report fun _ => .bind (keeps_state (by decide)) fun _ => .ite (hfail _) (.bind keeps_report fun _ => ?_)
  refine .bind (.bind (keeps_quiet trivial) fun _ => .bind keeps_get fun _ => keeps_pure _) fun verified => ?_
  cases verified with
  | error code => exact hfail code
  | ok => exact keeps_pure _

theorem keeps_initiatePostBootRollback (failureCode : Bytes) :
    KeepsInv (A := A) (initiatePostBootRollback failureCode) := by
  unfold initiatePostBootRollback
  refine .bind (keeps_state (by decide)) fun _ => .bind (keeps_memory fun _ => rfl) fun _ => .bind (keeps_quiet trivial) fun _ => ?_
  exact .ite (keeps_pure _) (.bind (keeps_quiet trivial) fun _ => .ite (keeps_pure _) (keeps_pure _))

theorem keeps_preServiceRollback (failureCode : Bytes) : KeepsInv (A := A) (preServiceRollback failureCode) :=
  .bind (keeps_initiatePostBootRollback failureCode) fun _ =>
    .ite (keeps_pure _) (.bind (keeps_memory fun _ => rfl) fun _ => keeps_pure _)

theorem keeps_beginPending (runningPending : Bool) (recovered : RecoveryRecord) :
    KeepsInv (A := A) (beginPending runningPending recovered) := by
  refine .bind keeps_get fun svc => ?_
  cases classifyPostBoot runningPending .healthy svc.firmware recovered with
  | validate =>
    refine .ite (.bind (keeps_state (by decide)) fun _ => keeps_pure _) ?_
    exact .bind (keeps_memory fun _ => rfl) fun _ => .bind (keeps_state (by decide)) fun _ => keeps_pure _
  | reportRollback =>
    refine .bind (keeps_memory fun _ => rfl) fun _ => .bind (keeps_state (by decide)) fun _ => ?_
    exact .bind (keeps_memory fun _ => rfl) fun _ => keeps_pure _
  | rollback => exact keeps_preServiceRollback _
  | _ => exact .bind (keeps_state (by decide)) fun _ => .bind (keeps_memory fun _ => rfl) fun _ => keeps_pure _

theorem keeps_beginUnrecorded (result : StoreResult) : KeepsInv (A := A) (beginUnrecorded result) := by
  unfold beginUnrecorded
  refine .bind (keeps_memory fun _ => rfl) fun _ => .bind (.bind (keeps_quiet trivial) fun _ => keeps_pure _) fun pending => ?_
  have hlast : KeepsInv (A := A) (if pending then preServiceRollback (recoveryLoadFailureCode result) else pure true) :=
    .ite (keeps_preServiceRollback _) (keeps_pure _)
  exact .ite (.bind (keeps_memory fun _ => rfl) fun _ => hlast) hlast

/-- The record that boot reads stands against every attempt started before. -/
theorem inv_adoptRecord {recovered : RecoveryRecord} (h : BoardInv b) (hr : recovered ∈ b.stored) :
    Inv (adoptRecord recovered svc) b where
  toBoardInv := h
  recovery := h.stored recovered hr

/-- What `load` reads is the stored record. -/
theorem mem_of_load {e : Event} {recovered : RecoveryRecord} (h : (act .load e b).2 = .ok recovered) :
    recovered ∈ b.stored := by
  cases e <;> cases hstored : b.stored <;> simp_all [act]

theorem spec_begin (h : Inv svc b) : spec device A BoardInv begin (fun _ => Inv) svc b := by
  unfold begin
  rw [spec_bind]
  refine spec_perform.mpr ⟨h.toBoardInv, fun e _ => ?_⟩
  have hafter := h.quiet (o := Op.load) trivial e
  have hsame : (act .load e b).1.stored = b.stored := (act_quiet (o := Op.load) trivial e b).1
  show spec device A BoardInv (match (act .load e b).2 with | .error _ => _ | .ok _ => _) _ svc (act .load e b).1
  cases hloaded : (act .load e b).2 with
  | error result => exact keeps_beginUnrecorded result _ _ hafter
  | ok recovered =>
    have hadopt : Inv (adoptRecord recovered svc) (act .load e b).1 :=
      inv_adoptRecord hafter.toBoardInv (hsame ▸ mem_of_load hloaded)
    refine spec_bind.mpr ((spec_modify _).mpr ?_)
    refine Keeps.bind (.bind (keeps_quiet (o := Op.imageState) trivial) fun _ => keeps_pure _) (fun pending => ?_) _ _ hadopt
    refine .ite (keeps_preServiceRollback _) (.ite (keeps_beginPending _ _) ?_)
    exact .ite (.bind (keeps_memory fun _ => rfl) fun _ => keeps_pure _) (keeps_pure _)

theorem keeps_validateImage : KeepsInv (A := A) validateImage := by
  unfold validateImage
  refine .bind (keeps_state (by decide)) fun _ => .ite (keeps_initiatePostBootRollback _) ?_
  refine .bind (keeps_quiet trivial) fun _ => .ite (keeps_initiatePostBootRollback _) ?_
  refine .bind (keeps_memory fun _ => rfl) fun _ => .bind (keeps_state (by decide)) fun _ => ?_
  exact .bind (keeps_memory fun _ => rfl) fun _ => keeps_pure _

theorem keeps_checkRunningImage (health : PostBootHealthClass) : KeepsInv (A := A) (checkRunningImage health) := by
  refine .bind (keeps_quiet (o := Op.imageState) trivial) fun imageState => ?_
  match imageState with
  | none => exact keeps_pure _
  | some .valid | some .invalid => exact keeps_pure _
  | some .pendingVerify =>
    refine .bind keeps_get fun svc => ?_
    cases classifyPostBoot true health svc.firmware svc.recovery with
    | defer => exact .bind (keeps_state (by decide)) fun _ => .ite (keeps_initiatePostBootRollback _) (keeps_pure _)
    | block => exact .bind (keeps_state (by decide)) fun _ => keeps_pure _
    | validate => exact keeps_validateImage
    | _ => exact keeps_initiatePostBootRollback _

theorem keeps_rollbackAndReboot : KeepsInv (A := A) rollbackAndReboot := by
  unfold rollbackAndReboot
  refine .bind (keeps_quiet trivial) fun _ => .ite (keeps_pure _) (.bind (keeps_quiet trivial) fun _ => ?_)
  refine .ite (keeps_pure _) (.bind (keeps_memory fun _ => rfl) fun _ => .bind (keeps_state (by decide)) fun _ => ?_)
  refine .ite (.bind (keeps_memory fun _ => rfl) fun _ => keeps_pure _) (.bind (keeps_quiet trivial) fun _ => ?_)
  refine .ite (.bind (keeps_memory fun _ => rfl) fun _ => ?_) (keeps_pure _)
  exact .bind (keeps_state (by decide)) fun _ => keeps_pure _

theorem keeps_flushPendingReport : KeepsInv (A := A) flushPendingReport :=
  .bind keeps_get fun _ => .ite keeps_report (keeps_pure _)

/-! ### An attempt that is started -/

/-- An attempt under way that was not started: nothing of its deployment as late as this was. -/
structure Offered (m : Manifest) (svc : Service) (b : Board) : Prop extends Inv svc b where
  newer : Newer m b
  deploymentId : svc.recovery.deploymentId = m.deploymentId
  attempt : svc.recovery.attempt = m.attempt

/-- A record of an attempt later than all of its deployment stands against them, in whatever state. -/
theorem bars_of_newer {record : RecoveryRecord} (h : Newer m b) (hid : record.deploymentId = m.deploymentId)
    (hattempt : record.attempt = m.attempt) : ∀ p ∈ b.started, Bars record p := by
  intro p hp hp'
  have hlt := h p hp (hp'.symm.trans hid)
  rw [hattempt]
  exact ⟨UInt32.le_of_lt hlt, fun heq => absurd heq (UInt32.ne_of_lt hlt)⟩

theorem Offered.checkpoint (h : Offered m svc b) (hcheckpoint : Checkpoint svc b state result error r svc' b') :
    Offered m svc' b' where
  toInv := h.toInv.checkpoint (bars_of_newer h.newer h.deploymentId h.attempt) hcheckpoint
  newer := by cases hcheckpoint <;> exact h.newer
  deploymentId := by cases hcheckpoint <;> exact h.deploymentId
  attempt := by cases hcheckpoint <;> exact h.attempt

theorem Offered.reported (h : Offered m svc b) (hreport : Reported svc b svc' b') : Offered m svc' b' where
  toInv := h.toInv.reported hreport
  newer := by cases hreport <;> exact h.newer
  deploymentId := by cases hreport <;> exact h.deploymentId
  attempt := by cases hreport <;> exact h.attempt

/-- A record of the attempt that does not wait. -/
structure Stands (m : Manifest) (r : RecoveryRecord) : Prop where
  deploymentId : r.deploymentId = m.deploymentId
  attempt : r.attempt = m.attempt
  state : r.state ≠ .waitingForSchedule

/-- An attempt to be started: its record is stored. -/
structure Ready (m : Manifest) (svc : Service) (b : Board) : Prop extends Offered m svc b where
  deployment : m.deploymentId ≠ []
  memory : Stands m svc.recovery
  record : ∀ r ∈ b.stored, Stands m r

theorem Offered.ready (h : Offered m svc b)
    (hcheckpoint : Checkpoint svc b .downloadStarting result error .savedAndVerified svc' b') : Ready m svc' b' where
  toOffered := h.checkpoint hcheckpoint
  deployment := by
    cases hcheckpoint with
    | failed h => cases h
    | saved hid => exact h.deploymentId ▸ hid
  memory := by
    cases hcheckpoint with
    | failed h => cases h
    | saved => exact ⟨h.deploymentId, h.attempt, nofun⟩
  record := by
    cases hcheckpoint with
    | failed h => cases h
    | saved =>
      rintro r ⟨⟩
      exact ⟨h.deploymentId, h.attempt, nofun⟩

theorem Ready.reported (h : Ready m svc b) (hreport : Reported svc b svc' b') : Ready m svc' b' := by
  have hmemory := h.memory
  have hstands (milestone : Bytes) : Stands m { svc.recovery with lastReportState := milestone } :=
    ⟨hmemory.deploymentId, hmemory.attempt, hmemory.state⟩
  refine ⟨h.toOffered.reported hreport, h.deployment, ?_, ?_⟩
  · cases hreport with
    | saved _ milestone => exact hstands milestone
    | _ => exact hmemory
  · cases hreport with
    | failed => exact h.record
    | unsaid _ milestone | saved _ milestone =>
      rintro r ⟨⟩
      exact hstands milestone

/-- A record of an attempt that does not wait stands against the attempts before it and against itself. -/
theorem Stands.bars {record : RecoveryRecord} (h : Stands m record) (hnewer : Newer m b) :
    ∀ p ∈ b.started ++ [(m.deploymentId, m.attempt)], Bars record p := by
  intro p hp
  rcases List.mem_append.mp hp with hp | hp
  · exact bars_of_newer hnewer h.deploymentId h.attempt p hp
  · obtain rfl := List.mem_singleton.mp hp
    exact fun _ => ⟨h.attempt ▸ UInt32.le_refl _, fun _ => h.state⟩

/-- **Starting an attempt that is ready** keeps the invariant. -/
theorem Ready.start (h : Ready m svc b) (e : Event) : Inv svc (act (.noteStarted m) e b).1 where
  increasing := List.pairwise_append.mpr ⟨h.increasing, List.pairwise_singleton _ _, by
    intro p hp q hq hid
    obtain rfl := List.mem_singleton.mp hq
    exact h.newer p hp hid⟩
  named := by
    intro p hp
    rcases List.mem_append.mp hp with hp | hp
    · exact h.toInv.named p hp
    · obtain rfl := List.mem_singleton.mp hp
      exact h.deployment
  stored r hr := (h.record r hr).bars h.newer
  recovery := h.memory.bars h.newer

theorem spec_downloadAndApply (h : Ready m svc b) :
    spec device A BoardInv (downloadAndApply m) (fun _ => Inv) svc b := by
  unfold downloadAndApply
  refine spec_bind.mpr (spec_perform.mpr ⟨h.toBoardInv, fun e _ => ?_⟩)
  refine Keeps.bind (keeps_quiet (o := Op.openImage) trivial) (fun opened => ?_) _ _ (h.start e)
  cases opened with
  | error code => exact keeps_pure _
  | ok =>
    refine .bind (keeps_state (by decide)) fun _ => .bind (keeps_quiet (o := Op.writeImage m.sizeBytes) trivial) fun written => ?_
    refine .bind (keeps_memory fun _ => rfl) fun _ => ?_
    cases written.2 with
    | error code => exact keeps_pure _
    | ok image => exact keeps_finishUpdate m image

theorem Offered.of_begin (h : Inv svc b) (hnewer : Newer m b) : Offered m (beginAttempt m svc) b where
  toBoardInv := h.toBoardInv
  recovery := bars_of_newer hnewer rfl rfl
  newer := hnewer
  deploymentId := rfl
  attempt := rfl

theorem Offered.quiet (h : Offered m svc b) {o : Op} (ho : Quiet o) (e : Event) : Offered m svc (act o e b).1 where
  toInv := h.toInv.quiet ho e
  newer := by
    unfold Newer
    rw [(act_quiet ho e b).2]
    exact h.newer
  deploymentId := h.deploymentId
  attempt := h.attempt

/-- **An attempt later than those of its deployment** keeps the invariant, wherever it ends. -/
theorem spec_runAttempt (h : Inv svc b) (hnewer : Newer m b) :
    spec device A BoardInv (runAttempt m) (fun _ => Inv) svc b := by
  unfold runAttempt
  refine spec_bind.mpr ((spec_modify _).mpr ?_)
  have h0 := Offered.of_begin h hnewer
  refine spec_bind.mpr (spec_post (spec_setState h0.toBoardInv) fun r₁ svc₁ b₁ hauthenticated => ?_)
  have h1 := h0.checkpoint hauthenticated
  refine spec_ite.mpr ?_
  split
  · exact h1.toInv
  refine spec_bind.mpr (spec_post (spec_flushPendingReportWithLease h1.toBoardInv) fun _ svc₂ b₂ hreported => ?_)
  have h2 := h1.reported hreported
  refine spec_bind.mpr (spec_perform.mpr ⟨h2.toBoardInv, fun e _ => ?_⟩)
  have h3 := h2.quiet (o := Op.withinUpdateWindow) trivial e
  refine spec_ite.mpr ?_
  split
  · refine spec_bind.mpr (spec_post (spec_setState h3.toBoardInv) fun r₄ svc₄ b₄ hwaiting => ?_)
    exact (h3.checkpoint hwaiting).toInv
  refine spec_bind.mpr (spec_post (spec_setState h3.toBoardInv) fun r₄ svc₄ b₄ hstarting => ?_)
  refine spec_ite.mpr ?_
  split
  · exact (h3.checkpoint hstarting).toInv
  next hsaved =>
  obtain rfl : r₄ = .savedAndVerified := by simpa [recoverySaved] using hsaved
  have h4 := h3.ready hstarting
  refine spec_bind.mpr (spec_post (spec_flushPendingReportWithLease h4.toBoardInv) fun _ svc₅ b₅ hreported => ?_)
  refine spec_bind.mpr (spec_post (spec_downloadAndApply (h4.reported hreported)) fun downloaded svc₆ b₆ h6 => ?_)
  cases downloaded with
  | error code =>
    exact Keeps.bind (keeps_state (by decide)) (fun _ => .bind keeps_report fun _ => keeps_pure _) _ _ h6
  | ok => exact keeps_finishInstall _ _ h6

/-! ### The server's reply -/

/-- **The record meets the manifest**, if the service accepts it: the record in the memory is the one of the
manifest's deployment, or none of its attempts as late as this one was started. -/
def Meets (cfg : Configuration) (svc : Service) (b : Board) : Command → Prop
  | .apply (.manifest m) now partitionSize =>
    acceptManifest cfg svc.firmware now partitionSize m = .ok () →
      svc.recovery.deploymentId = m.deploymentId ∨ Newer m b
  | _ => True

variable {cfg : Configuration}

/-- The manifest is later than the attempts of its deployment, if it meets the record and passes it. -/
theorem newer_of_meets (h : Inv svc b) (hmeets : svc.recovery.deploymentId = m.deploymentId ∨ Newer m b)
    (hcheck : checkAttempt svc.recovery m = .ok ()) : Newer m b := by
  rcases hmeets with hid | hnewer
  · exact newer_of_bars h.named h.recovery hid hcheck
  · exact hnewer

theorem spec_applyManifest {now : ℤ} {partitionSize : UInt32} (h : Inv svc b)
    (hmeets : Meets cfg svc b (.apply (.manifest m) now partitionSize)) :
    spec device A BoardInv (applyManifest cfg m now partitionSize) (fun _ => Inv) svc b := by
  have hreject (error : Bytes) (svc : Service) (b : Board) (h : Inv svc b) : spec device A BoardInv (do
      let _ ← setState .manifestRejected (ascii "manifest_rejected") error false true
      return false) (fun _ => Inv) svc b := Keeps.bind (keeps_state (by decide)) (fun _ => keeps_pure _) _ _ h
  unfold applyManifest
  refine spec_bind.mpr (spec_setState_shown.mpr (spec_bind.mpr (spec_get.mpr ?_)))
  have hshown : Inv (enter svc .manifestReceived (ascii "manifest_received") []) b := h.of_recovery rfl
  have hfirmware : (enter svc .manifestReceived (ascii "manifest_received") []).firmware = svc.firmware := rfl
  rw [hfirmware]
  cases haccept : acceptManifest cfg svc.firmware now partitionSize m with
  | error error => exact hreject error _ _ hshown
  | ok =>
    refine spec_bind.mpr (spec_perform.mpr ⟨h.toBoardInv, fun e _ => ?_⟩)
    have hnoted : Inv _ (act (.noteAccepted m) e b).1 := hshown.quiet (o := .noteAccepted m) trivial e
    have hrecovery : (enter svc .manifestReceived (ascii "manifest_received") []).recovery = svc.recovery := rfl
    rw [hrecovery]
    cases hcheck : checkAttempt svc.recovery m with
    | error error => exact hreject error _ _ hnoted
    | ok =>
      have hnewer : Newer m b := newer_of_meets h (hmeets haccept) hcheck
      exact spec_runAttempt hnoted hnewer

theorem spec_applyFromManifestUrl {reply : Reply} {now : ℤ} {partitionSize : UInt32} (h : Inv svc b)
    (hmeets : Meets cfg svc b (.apply reply now partitionSize)) :
    spec device A BoardInv (applyFromManifestUrl cfg reply now partitionSize) (fun _ => Inv) svc b := by
  have hstop (state : State) (hstate : state ≠ .waitingForSchedule) (result error : Bytes) (svc : Service)
      (h : Inv svc b) : spec device A BoardInv (do
        let _ ← setState state result error false true
        return false) (fun _ => Inv) svc b := Keeps.bind (keeps_state hstate) (fun _ => keeps_pure _) _ _ h
  have hreply (shown : OtaStatus) : spec device A BoardInv (applyReply cfg reply now partitionSize) (fun _ => Inv)
      { svc with status := shown } b := by
    have hshown : Inv { svc with status := shown } b := h.of_recovery rfl
    cases reply with
    | unavailable => exact hstop _ (by decide) _ _ _ hshown
    | malformed error => exact hstop _ (by decide) _ _ _ hshown
    | manifest m => exact spec_applyManifest hshown hmeets
  have hfetch : ∀ unresolved : Bool, spec device A BoardInv (do
      if unresolved then
        let _ ← setState .failed (ascii "rejected") (ascii "ota_restricted_rollback_must_be_resolved") false true
        return false
      let _ ← setState .manifestCheck (ascii "manifest_check") [] false true
      let fetched : Bool ← perform Op.fetchManifest
      if ¬ fetched then
        let _ ← setState .failed (ascii "failed") (ascii "ota_manifest_fetch_failed") false true
        return false
      applyReply cfg reply now partitionSize) (fun _ => Inv) svc b := by
    intro unresolved
    refine spec_ite.mpr ?_
    split
    · exact hstop _ (by decide) _ _ _ h
    refine spec_bind.mpr (spec_setState_shown.mpr (spec_bind.mpr (spec_asks trivial h.toBoardInv fun fetched => ?_)))
    refine spec_ite.mpr ?_
    split
    · exact hstop _ (by decide) _ _ _ (h.of_recovery rfl)
    · exact hreply _
  unfold applyFromManifestUrl
  refine spec_bind.mpr (spec_asks trivial h.toBoardInv fun admitted => spec_ite.mpr ?_)
  split
  · exact h
  refine spec_bind.mpr (spec_asks trivial h.toBoardInv fun safeMode => spec_ite.mpr ?_)
  split
  · exact hstop _ (by decide) _ _ _ h
  refine spec_bind.mpr (spec_bind.mpr (spec_get.mpr (spec_ite.mpr ?_)))
  split
  · exact spec_asks trivial h.toBoardInv hfetch
  · exact hfetch false

/-! ### Runs -/

theorem spec_command (c : Command) (h : Inv svc b) (hmeets : Meets cfg svc b c) :
    spec device A BoardInv (c.prog cfg) (fun _ => Inv) svc b := by
  cases c with
  | apply reply now partitionSize => exact spec_applyFromManifestUrl h hmeets
  | check health => exact Keeps.bind (keeps_checkRunningImage health) (fun _ => keeps_pure _) _ _ h
  | report => exact Keeps.bind keeps_flushPendingReport (fun _ => keeps_pure _) _ _ h
  | rollback => exact keeps_rollbackAndReboot _ _ h

theorem boot_stored (b : Board) : b.boot.stored = b.stored ∧ b.boot.started = b.started := by
  unfold Board.boot
  split
  · exact ⟨rfl, rfl⟩
  · split_ifs
    · exact ⟨rfl, rfl⟩
    · split <;> exact ⟨rfl, rfl⟩

/-- The service as it starts has no record. -/
theorem inv_powerOn (h : BoardInv b) : Inv (powerOn b) b where
  toBoardInv := h
  recovery := fun p hp hid => absurd hid.symm (h.named p hp)

/-- What holds of the memory, if there is one, and the board. -/
def RunInv : Option Service → Board → Prop
  | some svc, b => Inv svc b
  | none, b => BoardInv b

theorem runInv_memoryAfter {reboots : Bool → Bool} {out : Board × Option ((Bool × Service) × List Event)}
    (h : Outcome BoardInv (fun r => Inv r.2) out) : RunInv (memoryAfter reboots out.2) out.1 := by
  obtain ⟨b, none | ⟨⟨value, svc⟩, rest⟩⟩ := out
  · exact h
  · rw [memoryAfter]
    split
    · exact Inv.toBoardInv h
    · exact h

/-- **Every run keeps the invariant**, if each manifest meets the record. -/
theorem runInv_of_runs {admitted : Op → Event → Prop} {memory : Option Service}
    (h : Runs cfg (Meets cfg) admitted memory b) : RunInv memory b := by
  induction h with
  | initial h =>
    refine ⟨?_, ?_, ?_⟩
    · rw [h.started]
      exact List.Pairwise.nil
    · simp [h.started]
    · simp [h.started]
  | boot es h hes ih =>
    have hboard := BoardInv.of_eq ih (boot_stored _).1 (boot_stored _).2
    exact runInv_memoryAfter (spec_run (spec_begin (inv_powerOn hboard)) hes)
  | command c es h hc hes ih => exact runInv_memoryAfter (spec_run (spec_command c ih hc) hes)
  | powerLoss h ih => exact Inv.toBoardInv ih

/-! ### Two deployments in turn -/

/-- The first attempt of an update to version `1.<minor>.0` that the release and the deployment of this letter offer. -/
def sampleManifest (letter minor manifestHmac : String) : Manifest where
  schemaVersion := ascii "pm-ota-manifest/2"
  protocolVersion := ascii "pm-protocol/1.0.0"
  deploymentId := ascii (letter ++ "-0000-4000-8000-000000000000")
  releaseId := ascii (letter ++ "-0000-4000-8000-000000000001")
  deviceId := ascii "00000000-0000-4000-8000-000000000000"
  version := ascii ("1." ++ minor ++ ".0")
  projectName := ascii "power-monitor-sensor"
  hardwareTarget := ascii "esp32-s3"
  protocolMin := ascii "pm-protocol/1.0.0"
  protocolMax := ascii "pm-protocol/1.0.0"
  sizeBytes := 4096
  sha256 := List.replicate 64 48
  buildHash := List.replicate 64 49
  notBefore := ascii "2026-01-01T00:00:00Z"
  expiresAt := ascii "2026-01-02T00:00:00Z"
  allowDowngrade := false
  attempt := 1
  hmacAlgorithm := ascii "HMAC-SHA256"
  hmacKeyContext := ascii "pm-ota-manifest-v2/server-to-device"
  manifestHmac := ascii manifestHmac
  downloadPath := ascii "/api/v1/device-firmware/" ++ ascii (letter ++ "-0000-4000-8000-000000000001") ++
    ascii "/download?deployment_id=" ++ ascii (letter ++ "-0000-4000-8000-000000000000")

def manifestA : Manifest := sampleManifest "aaaaaaaa" "1" "UBLmMZxELn1zffFdOzboNVmvUJ9D80eeJDXGKxRydyM"

def manifestB : Manifest := sampleManifest "bbbbbbbb" "2" "W-nS3MGctmWYQqrqd2xeTZPVfc8toq0xbLopH5IkfkU"

/-- A device whose library computes HMAC-SHA-256 at the two manifests. -/
def sampleConfiguration : Configuration where
  crypto :=
    { sha256 := fun _ => default
      hmacSha256 := fun key data =>
        if key = (List.range 32).map UInt8.ofNat ∧ data = canonicalManifest manifestA then
          #v[0x50, 0x12, 0xe6, 0x31, 0x9c, 0x44, 0x2e, 0x7d, 0x73, 0x7d, 0xf1, 0x5d, 0x3b, 0x36, 0xe8, 0x35,
            0x59, 0xaf, 0x50, 0x9f, 0x43, 0xf3, 0x47, 0x9e, 0x24, 0x35, 0xc6, 0x2b, 0x14, 0x72, 0x77, 0x23]
        else if key = (List.range 32).map UInt8.ofNat ∧ data = canonicalManifest manifestB then
          #v[0x5b, 0xe9, 0xd2, 0xdc, 0xc1, 0x9c, 0xb6, 0x65, 0x98, 0x42, 0xaa, 0xea, 0x77, 0x6c, 0x5e, 0x4d,
            0x93, 0xd5, 0x7d, 0xcf, 0x2d, 0xa2, 0xad, 0x31, 0x6c, 0xba, 0x29, 0x1f, 0x92, 0x24, 0x7e, 0x45]
        else default }
  otaManifestKey := some (Vector.ofFn fun i => UInt8.ofNat i)
  deviceId := ascii "00000000-0000-4000-8000-000000000000"
  protocol := ascii "pm-protocol/1.0.0"
  hardwareTarget := ascii "esp32-s3-n16r8"

/-- A device that runs version 1.0.0 and was never updated. -/
def newBoard : Board where
  stored := none
  running := ⟨ascii "1.0.0", List.replicate 64 50⟩
  imageState := .valid
  other := none
  selected := false
  kept := false
  returned := false
  accepted := []
  started := []
  marked := []

/-- The manifest is offered at noon; its image cannot be fetched. -/
def offer (m : Manifest) : Command × List Event :=
  (.apply (.manifest m) 1767268800 6291456,
    [.ok, .fail, .ok, .ok, .ok, .fail, .ok, .ok, .fail, .ok, .stopped 0 (ascii "ota_dns_resolution_failed"), .ok, .fail])

/-- The device after the manifests were offered one after another. -/
def afterOffers (ms : List Manifest) : Option Service × Board :=
  ms.foldl (fun x m => stepCommand sampleConfiguration x (offer m)) (bootStep newBoard [.ok, .ok])

theorem initial_newBoard : Initial newBoard := ⟨rfl, rfl, rfl, rfl, rfl, rfl, rfl, rfl⟩

/-- The commands that offer well-formed manifests. -/
def WellFormed : Command → Prop
  | .apply (.manifest m) _ _ => manifestFieldsValid m = true
  | _ => True

theorem runs_offers {ms : List Manifest} {x : Option Service × Board}
    (hx : Runs sampleConfiguration (fun _ _ => WellFormed) (fun _ _ => True) x.1 x.2)
    (h : ∀ m ∈ ms, manifestFieldsValid m = true) :
    Runs sampleConfiguration (fun _ _ => WellFormed) (fun _ _ => True)
      (ms.foldl (fun x m => stepCommand sampleConfiguration x (offer m)) x).1
      (ms.foldl (fun x m => stepCommand sampleConfiguration x (offer m)) x).2 := by
  induction ms generalizing x with
  | nil => exact hx
  | cons m ms ih =>
    exact ih (runs_stepCommand hx (offer m) (fun _ => h m List.mem_cons_self) fun _ _ _ => trivial) fun m' hm' => h m' (List.mem_cons_of_mem _ hm')

theorem started_abba : (afterOffers [manifestA]).2.started = [(manifestA.deploymentId, 1)] ∧
    (afterOffers [manifestA, manifestB, manifestA]).2.started =
      [(manifestA.deploymentId, 1), (manifestB.deploymentId, 1), (manifestA.deploymentId, 1)] ∧
    ∀ m ∈ [manifestA, manifestB, manifestA], manifestFieldsValid m = true := by
  decide +kernel

/-- **The attempts of a deployment are started in increasing order**, so each at most once and none after a later one,
in every run whose manifests meet the record. -/
theorem started_increasing {admitted : Op → Event → Prop} {memory : Option Service}
    (h : Runs cfg (Meets cfg) admitted memory b) : Increasing b.started := by
  cases memory with
  | some svc => exact (runInv_of_runs h).increasing
  | none => exact BoardInv.increasing (runInv_of_runs h)

/-- The first attempt of a new device. -/
theorem started_increasing_first :
    Increasing (afterOffers [manifestA]).2.started ∧
      (afterOffers [manifestA]).2.started = [(manifestA.deploymentId, 1)] := by
  have hnew : Newer manifestA (bootStep newBoard [.ok, .ok]).2 := by unfold Newer; decide
  have hrun : Runs sampleConfiguration (Meets sampleConfiguration) (fun _ _ => True) (afterOffers [manifestA]).1
      (afterOffers [manifestA]).2 := by
    simp only [afterOffers, List.foldl_cons, List.foldl_nil]
    refine runs_stepCommand ?_ (offer manifestA) (fun _ _ => .inr hnew) fun _ _ _ => trivial
    exact runs_bootStep (.initial initial_newBoard) _ fun _ _ _ => trivial
  exact ⟨started_increasing hrun, started_abba.1⟩

/-- **With another deployment in between, an attempt is started again.** -/
theorem attempt_restarted : ¬ ∀ memory b,
    Runs sampleConfiguration (fun _ _ => WellFormed) (fun _ _ => True) memory b → Increasing b.started := by
  intro h
  obtain ⟨-, hstarted, hvalid⟩ := started_abba
  have hagain := h _ _ (runs_offers (runs_bootStep (.initial initial_newBoard) [.ok, .ok] fun _ _ _ => trivial) hvalid)
  rw [← afterOffers, hstarted] at hagain
  have hlast : (manifestA.deploymentId, (1 : UInt32)) ∈ [(manifestB.deploymentId, 1), (manifestA.deploymentId, 1)] := by
    simp
  exact absurd (List.rel_of_pairwise_cons hagain hlast rfl) (by decide)

end PowerMonitor.Ota.Attempts
