import PowerMonitor.Ota.OtaService

/-! # Updates: what a checkpoint leaves

The service writes the record of the update in two places only: `setState`, with the state it enters, and `postReport`,
with the milestone it has reported. Each either leaves everything as it was, or has the board store the new record; the
memory follows where the save was verified.

* `spec_setState`, `spec_flushPendingReportWithLease`: everything that the two can do.
* `keeps_setState`, `keeps_flushPendingReportWithLease`: the invariants they keep. -/

namespace PowerMonitor.Ota.Checkpoints

open PowerMonitor.Lib.Binary PowerMonitor.Lib.Program PowerMonitor.Lib.Memory
open PowerMonitor.Ota.ManifestV2 PowerMonitor.Ota.Recovery PowerMonitor.Ota.OtaService

/-- The memory with a new state shown. -/
def enter (svc : Service) (state : State) (result error : Bytes) : Service :=
  { svc with status := svc.status.enter state result error }

/-- **What `setState` leaves of a state it persists.** -/
inductive Checkpoint (svc : Service) (b : Board) (state : State) (result error : Bytes) :
    StoreResult → Service → Board → Prop
  | failed {r : StoreResult} (h : recoverySaved r = false) :
      Checkpoint svc b state result error r (enter svc state result error) b
  | unsaid (hid : svc.recovery.deploymentId ≠ []) :
      Checkpoint svc b state result error .readbackFailed (enter svc state result error)
        { b with stored := some (candidate svc state error) }
  | saved (hid : svc.recovery.deploymentId ≠ []) (reportPending : Bool) :
      Checkpoint svc b state result error .savedAndVerified
        { enter svc state result error with
          recovery := candidate svc state error, recoveryLoadResult := .loaded, reportPending := reportPending }
        { b with stored := some (candidate svc state error) }

/-- **What a report leaves.** -/
inductive Reported (svc : Service) (b : Board) : Service → Board → Prop
  | failed (reportPending : Bool) : Reported svc b { svc with reportPending := reportPending } b
  | unsaid (hid : svc.status.deploymentId ≠ []) (milestone : Bytes) (reportPending : Bool) :
      Reported svc b { svc with reportPending := reportPending }
        { b with stored := some { svc.recovery with lastReportState := milestone } }
  | saved (hid : svc.status.deploymentId ≠ []) (milestone : Bytes) (reportPending : Bool) :
      Reported svc b
        { svc with recovery := { svc.recovery with lastReportState := milestone }, reportPending := reportPending }
        { b with stored := some { svc.recovery with lastReportState := milestone } }

variable {A : Op → Event → Board → Prop} {C : Board → Prop} {svc : Service} {b : Board} {state : State}
  {result error : Bytes} {report : Bool}

/-- Everything that `setState` can do with a state it persists. -/
theorem spec_setState (hC : C b) :
    spec device A C (setState state result error true report) (Checkpoint svc b state result error) svc b := by
  have hunsaved (p q : Prop) {r : StoreResult} (hr : recoverySaved r = false) : ¬(p ∧ q ∧ recoverySaved r = true ∧
      state ≠ .idle ∧ state ≠ .manifestUnavailable) := fun h => by simp [hr] at h
  simp only [setState, persistState, spec_bind, spec_modify, if_true, spec_get, spec_ite, spec_pure]
  by_cases hid : svc.recovery.deploymentId = [] ∨ svc.recovery.releaseId = []
  · rw [if_pos hid, if_neg (hunsaved _ _ rfl)]
    exact .failed rfl
  rw [if_neg hid]
  by_cases hfull : svc.recovery.evidenceSequence = 18446744073709551615
  · rw [if_pos hfull, if_neg (hunsaved _ _ rfl)]
    exact .failed rfl
  rw [if_neg hfull]
  have hid : svc.recovery.deploymentId ≠ [] := fun h => hid (.inl h)
  refine spec_perform.mpr ⟨hC, fun e _ => ?_⟩
  cases e with
  | ok =>
    rw [if_neg (fun h => h rfl)]
    split_ifs
    · exact .saved hid true
    · exact .saved hid svc.reportPending
  | unsaid =>
    rw [if_pos (by exact Bool.false_ne_true), if_neg (hunsaved _ _ rfl)]
    exact .unsaid hid
  | _ =>
    rw [if_pos (by exact Bool.false_ne_true), if_neg (hunsaved _ _ rfl)]
    exact .failed rfl

/-- A state that is only shown. -/
theorem spec_setState_shown {Q : StoreResult → Service → Board → Prop} :
    spec device A C (setState state result error false report) Q svc b ↔
      Q .notRequired (enter svc state result error) b := by
  simp [setState, enter]

/-- Everything that a report can do. -/
theorem spec_flushPendingReportWithLease (hC : C b) :
    spec device A C flushPendingReportWithLease (fun _ => Reported svc b) svc b := by
  simp only [flushPendingReportWithLease, spec_bind, spec_get]
  cases RecoveryRecord.nextMilestone svc.recovery with
  | none => exact .failed false
  | some next =>
    simp only [postReport, spec_bind, spec_get, spec_ite]
    split_ifs with hid
    · exact .failed _
    have hid : svc.status.deploymentId ≠ [] := fun h => hid (.inl h)
    refine spec_perform.mpr ⟨hC, fun e _ => ?_⟩
    cases e with
    | ok =>
      rw [if_neg (fun h => h rfl)]
      refine spec_perform.mpr ⟨hC, fun e' _ => ?_⟩
      cases e' with
      | ok =>
        rw [if_pos (by exact rfl)]
        exact .saved hid next _
      | unsaid =>
        rw [if_neg (by exact Bool.false_ne_true)]
        exact .unsaid hid next true
      | _ =>
        rw [if_neg (by exact Bool.false_ne_true)]
        exact .failed true
    | _ =>
      rw [if_pos (by exact Bool.false_ne_true)]
      exact .failed _

/-- The calls that change nothing on the board. -/
def Asks : Op → Prop
  | .load | .imageState | .rollbackPossible | .admission | .safeMode | .fetchManifest | .withinUpdateWindow
  | .openImage | .selectedImage | .postReport => True
  | _ => False

theorem act_asks {o : Op} (ho : Asks o) (e : Event) (b : Board) : (act o e b).1 = b := by
  cases o with
  | load => cases e <;> cases hstored : b.stored <;> simp [act, hstored]
  | imageState | rollbackPossible | admission | safeMode | fetchManifest | withinUpdateWindow | openImage | selectedImage
  | postReport => cases e <;> rfl
  | _ => exact ho.elim

/-- **A question**, whatever its answer. -/
theorem spec_asks {o : Op} {Q : Ans o → Service → Board → Prop} (ho : Asks o) (hC : C b) (h : ∀ answer, Q answer svc b) :
    spec device A C (perform o) Q svc b := by
  refine spec_perform.mpr ⟨hC, fun e _ => ?_⟩
  have hb : (device.act o e b).1 = b := act_asks ho e b
  rw [hb]
  exact h _

/-! ### Invariants -/

variable {I : Service → Board → Prop}

theorem keeps_setState (hC : ∀ svc b, I svc b → C b)
    (h : ∀ svc b r svc' b', I svc b → Checkpoint svc b state result error r svc' b' → I svc' b') :
    Keeps device A C I (setState state result error true report) := fun svc b hI =>
  spec_post (spec_setState (hC svc b hI)) fun r svc' b' => h svc b r svc' b' hI

theorem keeps_setState_shown (h : ∀ svc b, I svc b → I (enter svc state result error) b) :
    Keeps device A C I (setState state result error false report) := fun svc b hI =>
  spec_setState_shown.mpr (h svc b hI)

theorem keeps_flushPendingReportWithLease (hC : ∀ svc b, I svc b → C b)
    (h : ∀ svc b svc' b', I svc b → Reported svc b svc' b' → I svc' b') :
    Keeps device A C I flushPendingReportWithLease := fun svc b hI =>
  spec_post (spec_flushPendingReportWithLease (hC svc b hI)) fun _ svc' b' => h svc b svc' b' hI

end PowerMonitor.Ota.Checkpoints
