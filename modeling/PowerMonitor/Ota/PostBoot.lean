import PowerMonitor.Ota.Attempts

/-! # Updates: which images are accepted

A new image runs for verification until the service marks it valid. It does so only for the target of the record that is
stored then, and that record is of a manifest that was accepted. An image that the boot loader goes back to is none of
the targets: the manifests that it accepted name other versions, and a record of another image's manifest is not
pending.

* `Inv`: what holds of the memory and the board between any two calls; `Installing`: while an image is installed.
* `Inv.checkpoint`, `Inv.reported`: a checkpoint and a report keep it.
* `spec_begin`, `spec_command`: what a boot and a command leave, wherever they end.
* `authentic_of_runs`: the result, for every run. -/

namespace PowerMonitor.Ota.PostBoot

open PowerMonitor.Lib.Binary PowerMonitor.Lib.Program PowerMonitor.Lib.Memory
open PowerMonitor.Ota.ManifestV2 PowerMonitor.Ota.Recovery PowerMonitor.Ota.OtaService PowerMonitor.Ota.Checkpoints

/-- The target of the record is that of an accepted manifest. -/
def Named (accepted : List Manifest) (r : RecoveryRecord) : Prop :=
  ∃ m ∈ accepted, m.version = r.targetVersion ∧ m.buildHash = r.targetBuildHash

/-- **The stored record speaks for the image**: it waits for the boot of exactly this image, which an accepted manifest
names. -/
def Authentic (accepted : List Manifest) (image : Image) (stored : Option RecoveryRecord) : Prop :=
  ∃ r ∈ stored, r.pendingReboot = true ∧ r.targetVersion = image.version ∧ r.targetBuildHash = image.buildHash ∧
    Named accepted r

/-- The version of an image that ran before an update: the one to go back to, or the one gone back to. -/
def Prior (b : Board) (v : Bytes) : Prop :=
  (b.kept = true ∧ ∃ image, b.other = some image ∧ image.version = v) ∨ (b.returned = true ∧ b.running.version = v)

/-- A manifest that `verifyManifest` accepts, for some firmware of the device at some time. -/
def Verified (cfg : Configuration) (m : Manifest) : Prop :=
  ∃ firmware now partitionSize, acceptManifest cfg firmware now partitionSize m = .ok ()

/-- What holds of the board between any two calls. -/
structure BoardInv (cfg : Configuration) (b : Board) : Prop where
  verified : ∀ m ∈ b.accepted, Verified cfg m
  named : ∀ r ∈ b.stored, Named b.accepted r
  differs : ∀ r ∈ b.stored, r.targetVersion ≠ r.previousVersion
  prior : ∀ v, Prior b v → ∀ r ∈ b.stored, r.pendingReboot = true → r.targetVersion ≠ v
  selected : b.selected = true → ∀ r ∈ b.stored, r.targetVersion ≠ b.running.version
  marked : ∀ p ∈ b.marked, Authentic b.accepted p.1 p.2

structure Inv (cfg : Configuration) (svc : Service) (b : Board) : Prop extends BoardInv cfg b where
  firmware : svc.firmware = b.running
  deploymentId : svc.status.deploymentId = svc.recovery.deploymentId
  target : svc.recovery.deploymentId ≠ [] →
    svc.status.targetBuildHash = svc.recovery.targetBuildHash ∧ Named b.accepted svc.recovery
  memoryDiffers : svc.recovery.deploymentId ≠ [] → svc.recovery.targetVersion ≠ svc.recovery.previousVersion
  memoryPrior : svc.status.pendingReboot = true ∨ svc.recovery.pendingReboot = true → ¬ Prior b svc.recovery.targetVersion
  memorySelected : b.selected = true → svc.recovery.targetVersion ≠ b.running.version
  /-- A pending image whose record waits for it is shown as one. -/
  pending : b.imageState = .pendingVerify → svc.recovery.pendingReboot = true →
    svc.recovery.targetVersion = b.running.version → svc.status.pendingReboot = true

variable {cfg : Configuration} {A : Op → Event → Board → Prop} {svc svc' : Service} {b b' : Board} {m : Manifest} {state : State}
  {result error : Bytes} {r : StoreResult}

/-! ### Between the calls -/

theorem BoardInv.store {record : RecoveryRecord} (h : BoardInv cfg b) (hnamed : Named b.accepted record)
    (hdiffers : record.targetVersion ≠ record.previousVersion)
    (hprior : record.pendingReboot = true → ¬ Prior b record.targetVersion)
    (hselected : b.selected = true → record.targetVersion ≠ b.running.version) :
    BoardInv cfg { b with stored := some record } where
  verified := h.verified
  named := by
    rintro r ⟨⟩
    exact hnamed
  differs := by
    rintro r ⟨⟩
    exact hdiffers
  prior := by
    rintro v hv r ⟨⟩ hpending rfl
    exact hprior hpending hv
  selected := by
    rintro hs r ⟨⟩
    exact hselected hs
  marked := h.marked

theorem Inv.shown (h : Inv cfg svc b) : Inv cfg (enter svc state result error) b := { h with }

/-- What a checkpoint stores. -/
theorem Inv.store_candidate (h : Inv cfg svc b) (hid : svc.recovery.deploymentId ≠ []) :
    BoardInv cfg { b with stored := some (candidate svc state error) } := by
  obtain ⟨hhash, m, hm, hversion, hbuild⟩ := h.target hid
  exact h.store ⟨m, hm, hversion, hbuild.trans hhash.symm⟩ (h.memoryDiffers hid) (fun hp => h.memoryPrior (.inl hp)) h.memorySelected

/-- **A checkpoint keeps the invariant**, whatever the state. -/
theorem Inv.checkpoint (h : Inv cfg svc b) (hcheckpoint : Checkpoint svc b state result error r svc' b') : Inv cfg svc' b' := by
  cases hcheckpoint with
  | failed => exact h.shown
  | unsaid hid => exact { h with toBoardInv := h.store_candidate hid }
  | saved hid =>
    obtain ⟨hhash, m, hm, hversion, hbuild⟩ := h.target hid
    exact { h with
      toBoardInv := h.store_candidate hid
      target := fun _ => ⟨rfl, m, hm, hversion, hbuild.trans hhash.symm⟩
      memoryPrior := fun hp => h.memoryPrior (.inl (hp.elim id id))
      pending := fun _ hp _ => hp }

/-- What a report stores. -/
theorem Inv.store_report (h : Inv cfg svc b) (hid : svc.status.deploymentId ≠ []) (milestone : Bytes) :
    BoardInv cfg { b with stored := some { svc.recovery with lastReportState := milestone } } :=
  h.store (h.target (h.deploymentId ▸ hid)).2 (h.memoryDiffers (h.deploymentId ▸ hid)) (fun hp => h.memoryPrior (.inr hp)) h.memorySelected

/-- **A report keeps the invariant.** -/
theorem Inv.reported (h : Inv cfg svc b) (hreport : Reported svc b svc' b') : Inv cfg svc' b' := by
  cases hreport with
  | failed => exact { h with }
  | unsaid hid milestone => exact { h with toBoardInv := h.store_report hid milestone }
  | saved hid milestone => exact { h with toBoardInv := h.store_report hid milestone }

theorem Named.cons {accepted : List Manifest} {r : RecoveryRecord} (h : Named accepted r) : Named (m :: accepted) r := by
  obtain ⟨m', hm', htarget⟩ := h
  exact ⟨m', List.mem_cons_of_mem _ hm', htarget⟩

theorem Authentic.cons {accepted : List Manifest} {image : Image} {stored : Option RecoveryRecord}
    (h : Authentic accepted image stored) : Authentic (m :: accepted) image stored := by
  obtain ⟨r, hr, hpending, hversion, hbuild, hnamed⟩ := h
  exact ⟨r, hr, hpending, hversion, hbuild, hnamed.cons⟩

theorem Inv.noteAccepted (h : Inv cfg svc b) (hm : Verified cfg m) : Inv cfg svc { b with accepted := m :: b.accepted } :=
  { h with
    verified := List.forall_mem_cons.mpr ⟨hm, h.verified⟩
    named := fun r hr => (h.named r hr).cons
    marked := fun p hp => (h.marked p hp).cons
    target := fun hid => ⟨(h.target hid).1, (h.target hid).2.cons⟩ }

/-- The slot of the image to go back to is written. -/
theorem Inv.writeImage (h : Inv cfg svc b) : Inv cfg svc { b with other := none, kept := false } := by
  have hprior {v : Bytes} (hv : Prior { b with other := none, kept := false } v) : Prior b v := by
    rcases hv with ⟨hkept, -⟩ | hreturned
    · cases hkept
    · exact .inr hreturned
  exact { h with
    prior := fun v hv => h.prior v (hprior hv)
    memoryPrior := fun hp hv => h.memoryPrior hp (hprior hv) }

theorem Inv.deselect (h : Inv cfg svc b) : Inv cfg svc { b with selected := false } :=
  { h with selected := nofun, memorySelected := nofun }

theorem Inv.markInvalid (h : Inv cfg svc b) : Inv cfg svc { b with imageState := .invalid } := { h with pending := nofun }

/-- The calls that need nothing of the memory to keep the invariant. -/
def Mild : Op → Prop
  | .save _ | .markValid | .endUpdate _ | .noteAccepted _ => False
  | _ => True

theorem Inv.mild (h : Inv cfg svc b) {o : Op} (ho : Mild o) (e : Event) : Inv cfg svc (act o e b).1 := by
  cases o with
  | save | markValid | endUpdate | noteAccepted => exact ho.elim
  | markInvalid =>
    cases e with
    | ok => exact h.markInvalid
    | _ => exact h
  | writeImage size => cases e <;> exact h.writeImage
  | restoreBoot =>
    cases e with
    | ok | unsaid => exact h.deselect
    | _ => exact h
  | noteStarted m => exact { h with }
  | load | imageState | rollbackPossible | admission | safeMode | fetchManifest | withinUpdateWindow | openImage
  | selectedImage | postReport =>
    rw [act_asks (by exact trivial)]
    exact h

/-! ### The programs that need nothing of the memory -/

/-- Keeps the invariant, whatever the events. -/
abbrev KeepsInv (cfg : Configuration) {α : Type} (p : OtaProg α) : Prop := Keeps device A (BoardInv cfg) (Inv cfg) p

theorem keeps_mild {o : Op} (ho : Mild o) : KeepsInv (A := A) cfg (perform o) :=
  keeps_perform (fun _ _ h => h.toBoardInv) fun _ _ e _ h => h.mild ho e

theorem keeps_state {persist report : Bool} : KeepsInv (A := A) cfg (setState state result error persist report) := by
  cases persist with
  | true => exact keeps_setState (fun _ _ h => h.toBoardInv) fun _ _ _ _ _ h => h.checkpoint
  | false => exact keeps_setState_shown fun _ _ h => h.shown

theorem keeps_report : KeepsInv (A := A) cfg flushPendingReportWithLease :=
  keeps_flushPendingReportWithLease (fun _ _ h => h.toBoardInv) fun _ _ _ _ h => h.reported

theorem keeps_initiatePostBootRollback (failureCode : Bytes) :
    KeepsInv (A := A) cfg (initiatePostBootRollback failureCode) := by
  unfold initiatePostBootRollback
  refine .bind keeps_state fun _ => .bind (keeps_modify fun _ _ h => { h with }) fun _ => .bind (keeps_mild trivial) fun _ => ?_
  exact .ite (keeps_pure _) (.bind (keeps_mild trivial) fun _ => .ite (keeps_pure _) (keeps_pure _))

theorem keeps_flushPendingReport : KeepsInv (A := A) cfg flushPendingReport :=
  .bind keeps_get fun _ => .ite keeps_report (keeps_pure _)

/-! ### An update -/

/-- An attempt for another version than the one that runs. -/
structure Attempting (cfg : Configuration) (m : Manifest) (svc : Service) (b : Board) : Prop extends Inv cfg svc b where
  version : svc.recovery.targetVersion = m.version
  another : m.version ≠ b.running.version

/-- Its record is stored. -/
structure Recorded (cfg : Configuration) (m : Manifest) (svc : Service) (b : Board) : Prop extends Attempting cfg m svc b where
  record : ∀ r ∈ b.stored, r.targetVersion = m.version

/-- Its image takes the place of the one to go back to. -/
structure Installing (cfg : Configuration) (m : Manifest) (svc : Service) (b : Board) : Prop extends Recorded cfg m svc b where
  kept : b.kept = false

theorem Attempting.checkpoint (h : Attempting cfg m svc b) (hcheckpoint : Checkpoint svc b state result error r svc' b') :
    Attempting cfg m svc' b' where
  toInv := h.toInv.checkpoint hcheckpoint
  version := by cases hcheckpoint <;> exact h.version
  another := by cases hcheckpoint <;> exact h.another

theorem Attempting.reported (h : Attempting cfg m svc b) (hreport : Reported svc b svc' b') : Attempting cfg m svc' b' where
  toInv := h.toInv.reported hreport
  version := by cases hreport <;> exact h.version
  another := by cases hreport <;> exact h.another

theorem Attempting.recorded (h : Attempting cfg m svc b)
    (hcheckpoint : Checkpoint svc b state result error .savedAndVerified svc' b') : Recorded cfg m svc' b' where
  toAttempting := h.checkpoint hcheckpoint
  record := by
    cases hcheckpoint with
    | failed h => cases h
    | saved =>
      rintro r ⟨⟩
      exact h.version

theorem Recorded.checkpoint (h : Recorded cfg m svc b) (hcheckpoint : Checkpoint svc b state result error r svc' b') :
    Recorded cfg m svc' b' where
  toAttempting := h.toAttempting.checkpoint hcheckpoint
  record := by
    cases hcheckpoint with
    | failed => exact h.record
    | _ =>
      rintro r ⟨⟩
      exact h.version

theorem Recorded.reported (h : Recorded cfg m svc b) (hreport : Reported svc b svc' b') : Recorded cfg m svc' b' where
  toAttempting := h.toAttempting.reported hreport
  record := by
    cases hreport with
    | failed => exact h.record
    | _ =>
      rintro r ⟨⟩
      exact h.version

theorem Installing.checkpoint (h : Installing cfg m svc b) (hcheckpoint : Checkpoint svc b state result error r svc' b') :
    Installing cfg m svc' b' where
  toRecorded := h.toRecorded.checkpoint hcheckpoint
  kept := by cases hcheckpoint <;> exact h.kept

theorem Installing.reported (h : Installing cfg m svc b) (hreport : Reported svc b svc' b') : Installing cfg m svc' b' where
  toRecorded := h.toRecorded.reported hreport
  kept := by cases hreport <;> exact h.kept

/-- While an image is installed, the reboot may be shown as pending or not. -/
theorem Installing.show (h : Installing cfg m svc b) (pendingReboot : Bool) (received : UInt32) (progress : UInt8) :
    Installing cfg m { svc with status := { svc.status with
      pendingReboot := pendingReboot, bytesReceived := received, progressPercent := progress } } b :=
  { h with
    memoryPrior := by
      rintro - (⟨hkept, -⟩ | ⟨-, hrunning⟩)
      · rw [h.kept] at hkept
        cases hkept
      · exact h.another (h.version.symm.trans hrunning.symm)
    pending := fun _ _ hrunning => absurd (h.version.symm.trans hrunning) h.another }

/-- The image written whole may be selected for the next boot. -/
theorem Installing.select (h : Installing cfg m svc b) (image : Image) :
    Installing cfg m svc { b with other := some image, selected := true } := by
  have hprior {v : Bytes} (hv : Prior { b with other := some image, selected := true } v) : Prior b v := by
    rcases hv with ⟨hkept, -⟩ | hreturned
    · exact absurd (h.kept.symm.trans hkept) Bool.false_ne_true
    · exact .inr hreturned
  exact { h with
    prior := fun v hv => h.prior v (hprior hv)
    selected := fun _ r hr => h.record r hr ▸ h.another
    memoryPrior := fun hp hv => h.memoryPrior hp (hprior hv)
    memorySelected := fun _ => h.version ▸ h.another }

/-- Keeps what holds while an image is installed. -/
abbrev KeepsInstalling (cfg : Configuration) (m : Manifest) {α : Type} (p : OtaProg α) : Prop := Keeps device A (BoardInv cfg) (Installing cfg m) p

theorem installing_asks {o : Op} (ho : Asks o) : KeepsInstalling (A := A) cfg m (perform o) := fun _ _ h =>
  spec_asks ho h.toBoardInv fun _ => h

theorem installing_state {persist report : Bool} :
    KeepsInstalling (A := A) cfg m (setState state result error persist report) := by
  cases persist with
  | true => exact keeps_setState (fun _ _ h => h.toBoardInv) fun _ _ _ _ _ h => h.checkpoint
  | false => exact keeps_setState_shown fun _ _ h => { h with toInv := h.toInv.shown }

theorem installing_report : KeepsInstalling (A := A) cfg m flushPendingReportWithLease :=
  keeps_flushPendingReportWithLease (fun _ _ h => h.toBoardInv) fun _ _ _ _ h => h.reported

theorem Installing.deselect (h : Installing cfg m svc b) : Installing cfg m svc { b with selected := false } :=
  { h with toInv := h.toInv.deselect }

theorem installing_failClosed (failureCode : Bytes) :
    KeepsInstalling (A := A) cfg m (failClosedAfterBootSelection failureCode) := by
  have hrestore : KeepsInstalling (A := A) cfg m (perform Op.restoreBoot) :=
    keeps_perform (fun _ _ h => h.toBoardInv) fun _ _ e _ h => by
      cases e with
      | ok | unsaid => exact h.deselect
      | _ => exact h
  refine .bind (.bind hrestore fun _ => keeps_pure _) fun _ => .bind (keeps_modify fun svc b h => ?_) fun _ => ?_
  · exact h.show false svc.status.bytesReceived svc.status.progressPercent
  · exact .bind installing_state fun _ => keeps_pure _

theorem installing_finishUpdate (image : Image) : KeepsInstalling (A := A) cfg m (finishUpdate m image) := by
  have hend : KeepsInstalling (A := A) cfg m (perform (Op.endUpdate image)) :=
    keeps_perform (fun _ _ h => h.toBoardInv) fun _ _ e _ h => by
      cases e with
      | ok | unsaid => exact h.select image
      | _ => exact h
  unfold finishUpdate
  refine .bind installing_state fun _ => .bind installing_state fun _ => .bind hend fun _ => .ite (keeps_pure _) ?_
  refine .bind (.bind (installing_asks trivial) fun _ => keeps_pure _) fun verified => ?_
  cases verified with
  | error code => exact .bind (installing_failClosed code) fun _ => keeps_pure _
  | ok => exact .bind installing_state fun _ => keeps_pure _

theorem installing_finishInstall : KeepsInstalling (A := A) cfg m finishInstall := by
  have hfail (failureCode : Bytes) : KeepsInstalling (A := A) cfg m (do
      let _ ← failClosedAfterBootSelection failureCode
      return false) := .bind (installing_failClosed failureCode) fun _ => keeps_pure _
  unfold finishInstall
  refine .bind installing_state fun _ => .ite (hfail _) (.bind installing_report fun _ => ?_)
  refine .bind (keeps_modify fun svc _ h => h.show true svc.status.bytesReceived 100) fun _ => .bind installing_state fun _ => ?_
  refine .ite (hfail _) (.bind installing_report fun _ => .bind installing_state fun _ => .ite (hfail _) ?_)
  refine .bind installing_report fun _ => ?_
  refine .bind (.bind (installing_asks trivial) fun _ => .bind keeps_get fun _ => keeps_pure _) fun verified => ?_
  cases verified with
  | error code => exact hfail code
  | ok => exact keeps_pure _

/-- **A download** leaves the invariant, and if it succeeds, an image to be booted. -/
theorem spec_downloadAndApply (h : Recorded cfg m svc b) :
    spec device A (BoardInv cfg) (downloadAndApply m) (fun r svc b => Inv cfg svc b ∧ (r = .ok () → Installing cfg m svc b)) svc b := by
  unfold downloadAndApply
  refine spec_bind.mpr (spec_perform.mpr ⟨h.toBoardInv, fun e _ => ?_⟩)
  have hstarted : Recorded cfg m svc (act (.noteStarted m) e b).1 := { h with }
  refine spec_bind.mpr (spec_asks trivial hstarted.toBoardInv fun opened => ?_)
  cases opened with
  | error code => exact ⟨hstarted.toInv, fun hok => by cases hok⟩
  | ok =>
    refine spec_bind.mpr (spec_setState_shown.mpr (spec_bind.mpr (spec_perform.mpr ⟨hstarted.toBoardInv, fun e' _ => ?_⟩)))
    have hshown : Inv cfg (enter svc .downloading (ascii "downloading") []) _ := hstarted.toInv.shown
    have hwritten : Installing cfg m (enter svc .downloading (ascii "downloading") [])
        (act (.writeImage m.sizeBytes) e' (act (.noteStarted m) e b).1).1 :=
      { toInv := hshown.mild (o := .writeImage m.sizeBytes) trivial e'
        version := h.version
        another := by cases e' <;> exact h.another
        record := by cases e' <;> exact h.record
        kept := by cases e' <;> rfl }
    refine spec_bind.mpr ((spec_modify _).mpr ?_)
    have hreceived := hwritten.show svc.status.pendingReboot
      (act (.writeImage m.sizeBytes) e' (act (.noteStarted m) e b).1).2.1
      ((act (.writeImage m.sizeBytes) e' (act (.noteStarted m) e b).1).2.1.toNat * 100 / m.sizeBytes.toNat).toUInt8
    cases (device.act (.writeImage m.sizeBytes) e' (device.act (.noteStarted m) e b).1).2.2 with
    | error code => exact ⟨hreceived.toInv, fun hok => by cases hok⟩
    | ok image => exact spec_post (installing_finishUpdate image _ _ hreceived) fun _ _ _ h => ⟨h.toInv, fun _ => h⟩

/-- The attempt of an accepted manifest begins: nothing is pending. -/
theorem Attempting.of_begin (h : Inv cfg svc b) (hm : m ∈ b.accepted) (hanother : m.version ≠ b.running.version) :
    Attempting cfg m (beginAttempt m svc) b where
  toBoardInv := h.toBoardInv
  firmware := h.firmware
  deploymentId := rfl
  target := fun _ => ⟨rfl, m, hm, rfl, rfl⟩
  memoryDiffers := fun _ heq => hanother (heq.trans (congrArg Image.version h.firmware))
  memoryPrior := fun hp => nomatch hp
  memorySelected := fun _ => hanother
  pending := fun _ hp => nomatch hp
  version := rfl
  another := hanother

theorem Attempting.asks (h : Attempting cfg m svc b) {o : Op} (ho : Asks o) (e : Event) : Attempting cfg m svc (act o e b).1 := by
  rw [act_asks ho]
  exact h

/-- **An attempt of an accepted manifest** keeps the invariant, wherever it ends. -/
theorem spec_runAttempt (h : Inv cfg svc b) (hm : m ∈ b.accepted) (hanother : m.version ≠ b.running.version) :
    spec device A (BoardInv cfg) (runAttempt m) (fun _ => Inv cfg) svc b := by
  unfold runAttempt
  refine spec_bind.mpr ((spec_modify _).mpr ?_)
  have h0 := Attempting.of_begin h hm hanother
  refine spec_bind.mpr (spec_post (spec_setState h0.toBoardInv) fun r₁ svc₁ b₁ hauthenticated => ?_)
  have h1 := h0.checkpoint hauthenticated
  refine spec_ite.mpr ?_
  split
  · exact h1.toInv
  refine spec_bind.mpr (spec_post (spec_flushPendingReportWithLease h1.toBoardInv) fun _ svc₂ b₂ hreported => ?_)
  have h2 := h1.reported hreported
  refine spec_bind.mpr (spec_asks trivial h2.toBoardInv fun within => spec_ite.mpr ?_)
  split
  · exact Keeps.bind keeps_state (fun _ => keeps_pure _) _ _ h2.toInv
  refine spec_bind.mpr (spec_post (spec_setState h2.toBoardInv) fun r₃ svc₃ b₃ hstarting => ?_)
  refine spec_ite.mpr ?_
  split
  · exact (h2.checkpoint hstarting).toInv
  next hsaved =>
  obtain rfl : r₃ = .savedAndVerified := by simpa [recoverySaved] using hsaved
  have h3 := h2.recorded hstarting
  refine spec_bind.mpr (spec_post (spec_flushPendingReportWithLease h3.toBoardInv) fun _ svc₄ b₄ hreported => ?_)
  refine spec_bind.mpr (spec_post (spec_downloadAndApply (h3.reported hreported)) fun downloaded svc₅ b₅ h5 => ?_)
  cases downloaded with
  | error code => exact Keeps.bind keeps_state (fun _ => .bind keeps_report fun _ => keeps_pure _) _ _ h5.1
  | ok => exact spec_post (installing_finishInstall _ _ (h5.2 rfl)) fun _ _ _ h => h.toInv

theorem keeps_applyManifest (now : ℤ) (partitionSize : UInt32) :
    KeepsInv (A := A) cfg (applyManifest cfg m now partitionSize) := by
  have hreject (error : Bytes) : KeepsInv (A := A) cfg (do
      let _ ← setState .manifestRejected (ascii "manifest_rejected") error false true
      return false) := .bind keeps_state fun _ => keeps_pure _
  unfold applyManifest
  refine .bind keeps_state fun _ svc b h => spec_bind.mpr (spec_get.mpr ?_)
  cases haccept : acceptManifest cfg svc.firmware now partitionSize m with
  | error error => exact hreject error _ _ h
  | ok =>
    have hnoted := h.noteAccepted ⟨_, now, partitionSize, haccept⟩
    refine spec_bind.mpr (spec_perform.mpr ⟨h.toBoardInv, fun e _ => ?_⟩)
    cases checkAttempt svc.recovery m with
    | error error => exact hreject error _ _ hnoted
    | ok =>
      refine spec_runAttempt hnoted List.mem_cons_self ?_
      have hrunning : (device.act (.noteAccepted m) e b).1.running = svc.firmware := h.firmware.symm
      rw [hrunning]
      exact version_ne_of_verifyManifest haccept

theorem keeps_applyFromManifestUrl (reply : Reply) (now : ℤ) (partitionSize : UInt32) :
    KeepsInv (A := A) cfg (applyFromManifestUrl cfg reply now partitionSize) := by
  have hreply : KeepsInv (A := A) cfg (applyReply cfg reply now partitionSize) := by
    cases reply with
    | manifest m => exact keeps_applyManifest now partitionSize
    | _ => exact .bind keeps_state fun _ => keeps_pure _
  unfold applyFromManifestUrl
  refine .bind (keeps_mild trivial) fun _ => .ite (keeps_pure _) (.bind (keeps_mild trivial) fun _ => ?_)
  refine .ite (.bind keeps_state fun _ => keeps_pure _) ?_
  refine .bind (.bind keeps_get fun _ => .ite (keeps_mild trivial) (keeps_pure _)) fun _ => ?_
  refine .ite (.bind keeps_state fun _ => keeps_pure _) (.bind keeps_state fun _ => .bind (keeps_mild trivial) fun _ => ?_)
  exact .ite (.bind keeps_state fun _ => keeps_pure _) hreply

/-! ### Validation -/

theorem targetMatches_iff {running : Image} {record : RecoveryRecord} :
    targetMatches running record = true ↔ record.pendingReboot = true ∧ record.targetVersion ≠ [] ∧
      record.targetBuildHash ≠ [] ∧ record.targetVersion = running.version ∧ record.targetBuildHash = running.buildHash := by
  simp only [targetMatches, Bool.and_eq_true, decide_eq_true_eq, beq_iff_eq]
  constructor
  · rintro ⟨⟨⟨⟨hpending, hversion⟩, hbuild⟩, hsameVersion⟩, hsameBuild⟩
    exact ⟨hpending, hversion, hbuild, hsameVersion.symm, hsameBuild.symm⟩
  · rintro ⟨hpending, hversion, hbuild, hsameVersion, hsameBuild⟩
    exact ⟨⟨⟨⟨hpending, hversion⟩, hbuild⟩, hsameVersion.symm⟩, hsameBuild.symm⟩

/-- An image is validated only if it is the target of the record. -/
theorem targetMatches_of_validate {pendingImage : Bool} {health : PostBootHealthClass} {running : Image}
    {record : RecoveryRecord} (h : classifyPostBoot pendingImage health running record = .validate) :
    targetMatches running record = true := by
  unfold classifyPostBoot at h
  split_ifs at h <;> simp_all

/-- **What the checkpoint before the validation stores speaks for the running image.** -/
theorem Inv.authentic_candidate (h : Inv cfg svc b) (hpending : b.imageState = .pendingVerify)
    (hmatches : targetMatches svc.firmware svc.recovery = true) (hid : svc.recovery.deploymentId ≠ []) :
    Authentic b.accepted b.running (some (candidate svc state error)) := by
  obtain ⟨hreboot, -, -, hversion, hbuild⟩ := targetMatches_iff.mp hmatches
  rw [h.firmware] at hversion hbuild
  obtain ⟨hhash, m, hm, hmversion, hmbuild⟩ := h.target hid
  exact ⟨_, rfl, h.pending hpending hreboot hversion, hversion, hhash.trans hbuild, m, hm, hmversion,
    hmbuild.trans hhash.symm⟩

/-- The image is marked valid. -/
theorem Inv.markValid (h : Inv cfg svc b) (hauthentic : Authentic b.accepted b.running b.stored) (e : Event) :
    Inv cfg svc (act .markValid e b).1 := by
  have hmarked : ∀ p ∈ b.marked ++ [(b.running, b.stored)], Authentic b.accepted p.1 p.2 := by
    intro p hp
    rcases List.mem_append.mp hp with hp | hp
    · exact h.marked p hp
    · obtain rfl := List.mem_singleton.mp hp
      exact hauthentic
  cases e with
  | ok | unsaid => exact { h with marked := hmarked, pending := nofun }
  | _ => exact { h with marked := hmarked }

theorem spec_validateImage (h : Inv cfg svc b) (hpending : b.imageState = .pendingVerify)
    (hmatches : targetMatches svc.firmware svc.recovery = true) :
    spec device A (BoardInv cfg) validateImage (fun _ => Inv cfg) svc b := by
  unfold validateImage
  refine spec_bind.mpr (spec_post (spec_setState h.toBoardInv) fun r₁ svc₁ b₁ hcheckpoint => spec_ite.mpr ?_)
  have h1 := h.checkpoint hcheckpoint
  split
  · exact keeps_initiatePostBootRollback _ _ _ h1
  next hsaved =>
  obtain rfl : r₁ = .savedAndVerified := by simpa [recoverySaved] using hsaved
  have hauthentic : Authentic b₁.accepted b₁.running b₁.stored := by
    cases hcheckpoint with
    | failed h => cases h
    | saved hid => exact h.authentic_candidate hpending hmatches hid
  refine spec_bind.mpr (spec_perform.mpr ⟨h1.toBoardInv, fun e _ => ?_⟩)
  have h2 := h1.markValid hauthentic e
  cases e with
  | ok =>
    have hshown : Inv cfg { svc₁ with status := { svc₁.status with pendingReboot := false, progressPercent := 100 } }
        (act .markValid .ok b₁).1 :=
      { h2 with
        memoryPrior := fun hp => h2.memoryPrior (.inr (hp.resolve_left Bool.false_ne_true))
        pending := fun hstate => by cases hstate }
    rw [if_neg (fun h => h rfl)]
    refine spec_bind.mpr ((spec_modify _).mpr ?_)
    refine Keeps.bind keeps_state (fun _ => .bind (keeps_modify ?_) fun _ => keeps_pure _) _ _ hshown
    exact fun _ _ h => { h with }
  | _ =>
    rw [if_pos (by exact Bool.false_ne_true)]
    exact keeps_initiatePostBootRollback _ _ _ h2

theorem keeps_checkRunningImage (health : PostBootHealthClass) : KeepsInv (A := A) cfg (checkRunningImage health) := by
  intro svc b h
  unfold checkRunningImage
  refine spec_bind.mpr (spec_perform.mpr ⟨h.toBoardInv, fun e _ => ?_⟩)
  have hb : (device.act .imageState e b).1 = b := act_asks (o := .imageState) trivial e b
  rw [hb]
  have hanswer : (device.act .imageState e b).2 = none ∨ (device.act .imageState e b).2 = some b.imageState := by
    cases e <;> simp [device, act]
  rcases hanswer with hanswer | hanswer <;> rw [hanswer]
  · exact h
  cases hstate : b.imageState with
  | valid | invalid => exact h
  | pendingVerify =>
    refine spec_bind.mpr (spec_get.mpr ?_)
    cases haction : classifyPostBoot true health svc.firmware svc.recovery with
    | validate => exact spec_validateImage h hstate (targetMatches_of_validate haction)
    | defer => exact Keeps.bind keeps_state (fun _ => .ite (keeps_initiatePostBootRollback _) (keeps_pure _)) _ _ h
    | block => exact Keeps.bind keeps_state (fun _ => keeps_pure _) _ _ h
    | _ => exact keeps_initiatePostBootRollback _ _ _ h

/-! ### Boot -/

/-- **The boot loader keeps what holds of the board**: whichever image it goes back to later, the record's target is
another. -/
theorem BoardInv.boot (h : BoardInv cfg b) : BoardInv cfg b.boot := by
  unfold Board.boot
  split
  · next image hselected _ =>
    refine { h with prior := ?_, selected := nofun }
    rintro v (⟨-, image, ⟨⟩, rfl⟩ | ⟨hreturned, -⟩) r hr -
    · exact h.selected hselected r hr
    · cases hreturned
  · split_ifs
    · exact { h with selected := nofun }
    · split
      · next image hother =>
        refine { h with prior := ?_, selected := nofun }
        rintro v (⟨hkept, -⟩ | ⟨hreturned, hversion⟩) r hr hpending
        · cases hkept
        · exact h.prior v (.inl ⟨hreturned, image, hother, hversion⟩) r hr hpending
      · exact { h with selected := nofun }

theorem boot_selected (b : Board) : b.boot.selected = false := by
  unfold Board.boot
  split
  · rfl
  · split_ifs
    · rfl
    · split <;> rfl

/-- The service as it starts has no record. -/
theorem inv_powerOn (h : BoardInv cfg b) (hselected : b.selected = false) : Inv cfg (powerOn b) b where
  toBoardInv := h
  firmware := rfl
  deploymentId := rfl
  target := fun hid => absurd rfl hid
  memoryDiffers := fun hid => absurd rfl hid
  memoryPrior := fun hp => nomatch hp
  memorySelected := fun hs => absurd (hselected.symm.trans hs) Bool.false_ne_true
  pending := fun _ hp => nomatch hp

/-- The record that boot reads, in the memory. -/
theorem Inv.adoptRecord {recovered : RecoveryRecord} (h : Inv cfg svc b) (hr : recovered ∈ b.stored) :
    Inv cfg (adoptRecord recovered svc) b where
  toBoardInv := h.toBoardInv
  firmware := h.firmware
  deploymentId := rfl
  target := fun _ => ⟨rfl, h.named recovered hr⟩
  memoryDiffers := fun _ => h.differs recovered hr
  memoryPrior := fun hp hv => h.prior _ hv recovered hr (hp.elim id id) rfl
  memorySelected := fun hs => h.selected hs recovered hr
  pending := fun _ hp _ => hp

/-- The image that ran before an update runs again: the boot loader went back to it, or the record has it as the
previous one. -/
def RunsAgain (before : Option RecoveryRecord) (b : Board) : Prop :=
  b.returned = true ∨ ∃ r ∈ before, r.previousVersion = b.running.version

/-- Nothing is stored as validated on an image that runs again. -/
def Unvalidated (before : Option RecoveryRecord) (b : Board) : Prop :=
  RunsAgain before b → b.stored = before ∨ ∀ r ∈ b.stored, r.state ≠ .validated

/-- What holds at boot between any two calls. -/
def BootBoard (cfg : Configuration) (before : Option RecoveryRecord) (b : Board) : Prop := BoardInv cfg b ∧ Unvalidated before b

def BootInv (cfg : Configuration) (before : Option RecoveryRecord) (svc : Service) (b : Board) : Prop := Inv cfg svc b ∧ Unvalidated before b

variable {before : Option RecoveryRecord}

theorem BootInv.board (h : BootInv cfg before svc b) : BootBoard cfg before b := ⟨h.1.toBoardInv, h.2⟩

/-- A checkpoint at boot, of another state than validated or on an image that was not gone back to. -/
theorem BootInv.checkpoint (h : BootInv cfg before svc b) (hstate : RunsAgain before b → state ≠ .validated)
    (hcheckpoint : Checkpoint svc b state result error r svc' b') : BootInv cfg before svc' b' := by
  refine ⟨h.1.checkpoint hcheckpoint, ?_⟩
  cases hcheckpoint with
  | failed => exact h.2
  | _ =>
    intro hagain
    refine .inr ?_
    rintro r ⟨⟩
    exact hstate hagain

theorem BootInv.markInvalid (h : BootInv cfg before svc b) : BootInv cfg before svc { b with imageState := .invalid } :=
  ⟨h.1.markInvalid, h.2⟩

/-- **A rollback at boot**: if the service goes on, it is restricted. -/
theorem spec_preServiceRollback (h : BootInv cfg before svc b) (failureCode : Bytes) :
    spec device A (BootBoard cfg before) (preServiceRollback failureCode)
      (fun v svc b => BootInv cfg before svc b ∧ (v = true → svc.restrictedRecoveryMode = true)) svc b := by
  have hend : ∀ (result : RunningImageCheckResult) svc b, BootInv cfg before svc b → spec device A (BootBoard cfg before) (do
      if result = .rollbackInitiated then return false
      enterRestrictedRecovery failureCode
      return true : OtaProg Bool)
      (fun v svc b => BootInv cfg before svc b ∧ (v = true → svc.restrictedRecoveryMode = true)) svc b := by
    intro result svc b h
    refine spec_ite.mpr ?_
    split
    · exact ⟨h, nofun⟩
    · exact ⟨⟨{ h.1 with }, h.2⟩, fun _ => rfl⟩
  unfold preServiceRollback
  refine spec_bind.mpr (spec_bind.mpr (spec_post (spec_setState h.board) fun r₁ svc₁ b₁ hcheckpoint => ?_))
  have h1 := h.checkpoint (fun _ => by decide) hcheckpoint
  refine spec_bind.mpr ((spec_modify _).mpr ?_)
  have h2 : BootInv cfg before { svc₁ with reportPending := recoverySaved r₁ } b₁ := ⟨{ h1.1 with }, h1.2⟩
  refine spec_bind.mpr (spec_asks trivial h2.board fun possible => spec_ite.mpr ?_)
  split
  · exact hend _ _ _ h2
  refine spec_bind.mpr (spec_perform.mpr ⟨h2.board, fun e _ => spec_ite.mpr ?_⟩)
  have h3 : BootInv cfg before { svc₁ with reportPending := recoverySaved r₁ } (device.act .markInvalid e b₁).1 := by
    cases e with
    | ok => exact h2.markInvalid
    | _ => exact h2
  split
  · exact hend _ _ _ h3
  · exact hend _ _ _ h3

/-- The result of a boot. -/
def Booted (cfg : Configuration) (before : Option RecoveryRecord) (v : Bool) (svc : Service) (b : Board) : Prop :=
  BootInv cfg before svc b ∧ (v = true → svc.restrictedRecoveryMode = false → b.imageState = .pendingVerify →
    Authentic b.accepted b.running b.stored)

theorem booted_of_restricted {v : Bool} (h : BootInv cfg before svc b ∧ (v = true → svc.restrictedRecoveryMode = true)) :
    Booted cfg before v svc b :=
  ⟨h.1, fun hv hrestricted => absurd ((h.2 hv).symm.trans hrestricted) (by decide)⟩

theorem booted_of_settled {v : Bool} (h : BootInv cfg before svc b) (hsettled : b.imageState ≠ .pendingVerify) :
    Booted cfg before v svc b := ⟨h, fun _ _ hpending => absurd hpending hsettled⟩

/-- The state of the running image is read, not failed to be read. -/
def StateReadable (o : Op) (e : Event) : Prop := o = .imageState → e ≠ .fail

theorem spec_runningImagePendingVerification {Q : Bool → Service → Board → Prop} {C : Board → Prop} (hC : C b)
    (h : ∀ v, (v = true ↔ b.imageState = .pendingVerify) → Q v svc b) :
    spec device (fun o e _ => StateReadable o e) C runningImagePendingVerification Q svc b := by
  unfold runningImagePendingVerification
  refine spec_bind.mpr (spec_perform.mpr ⟨hC, fun e he => ?_⟩)
  have hb : (device.act .imageState e b).1 = b := act_asks (o := .imageState) trivial e b
  have hanswer : (device.act .imageState e b).2 = some b.imageState := by
    cases e with
    | fail => exact absurd rfl (he rfl)
    | _ => rfl
  rw [hb, hanswer]
  exact h _ (by simp)

theorem classifyPostBoot_pending {running : Image} {record : RecoveryRecord} :
    classifyPostBoot true .healthy running record = if targetMatches running record then .validate else .rollback := by
  unfold classifyPostBoot
  cases targetMatches running record <;> rfl

/-- What a checkpoint leaves alone. -/
theorem Checkpoint.board (h : Checkpoint svc b state result error r svc' b') :
    b'.imageState = b.imageState ∧ b'.returned = b.returned ∧ b'.running = b.running ∧ b'.accepted = b.accepted := by
  cases h <;> exact ⟨rfl, rfl, rfl, rfl⟩

/-- A checkpoint of an image that is settled, at boot. -/
theorem booted_checkpoint {v : Bool} (h : BootInv cfg before svc b) (hsettled : b.imageState ≠ .pendingVerify)
    (hstate : RunsAgain before b → state ≠ .validated) (hcheckpoint : Checkpoint svc b state result error r svc' b') :
    Booted cfg before v svc' b' :=
  booted_of_settled (h.checkpoint hstate hcheckpoint) (by rwa [(Checkpoint.board hcheckpoint).1])

/-- While no image waits for verification, the status may show that no reboot is pending. -/
theorem BootInv.settle (h : BootInv cfg before svc b) (hsettled : b.imageState ≠ .pendingVerify) (status : OtaStatus)
    (hid : status.deploymentId = svc.status.deploymentId)
    (hhash : status.targetBuildHash = svc.status.targetBuildHash) (hpending : status.pendingReboot = false) :
    BootInv cfg before { svc with status := status } b :=
  ⟨{ h.1 with
      deploymentId := hid.trans h.1.deploymentId
      target := fun hne => ⟨hhash.trans (h.1.target hne).1, (h.1.target hne).2⟩
      memoryPrior := fun hp => h.1.memoryPrior (.inr (hp.resolve_left (hpending ▸ Bool.false_ne_true)))
      pending := fun hstate => absurd hstate hsettled }, h.2⟩

section

variable {recovered : RecoveryRecord}

/-- **A pending image at boot**: the record's target goes on, any other image goes back. -/
theorem spec_beginPending_pending (h : BootInv cfg before svc b) (hsvc : svc.recovery = recovered)
    (hstored : b.stored = some recovered) (hstate : b.imageState = .pendingVerify) :
    spec device A (BootBoard cfg before) (beginPending true recovered) (Booted cfg before) svc b := by
  subst hsvc
  unfold beginPending
  refine spec_bind.mpr (spec_get.mpr ?_)
  rw [classifyPostBoot_pending]
  cases hmatches : targetMatches svc.firmware svc.recovery with
  | false => exact spec_post (spec_preServiceRollback h _) fun _ _ _ => booted_of_restricted
  | true =>
    refine spec_bind.mpr (spec_post (spec_setState h.board) fun r₁ svc₁ b₁ hcheckpoint => ?_)
    refine ⟨h.checkpoint (fun _ => by decide) hcheckpoint, fun _ _ _ => ?_⟩
    cases hcheckpoint with
    | failed =>
      obtain ⟨hreboot, -, -, hversion, hbuild⟩ := targetMatches_iff.mp hmatches
      rw [h.1.firmware] at hversion hbuild
      exact ⟨_, hstored, hreboot, hversion, hbuild, h.1.named _ hstored⟩
    | unsaid hid => exact h.1.authentic_candidate hstate hmatches hid
    | saved hid => exact h.1.authentic_candidate hstate hmatches hid

/-- **A settled image at boot**: it is recorded as validated only if it is the record's target, which no image is that
was gone back to. -/
theorem spec_beginPending_settled (h : BootInv cfg before svc b) (hsvc : svc.recovery = recovered)
    (hstored : b.stored = some recovered) (hbefore : before = some recovered) (hstate : b.imageState ≠ .pendingVerify) :
    spec device A (BootBoard cfg before) (beginPending false recovered) (Booted cfg before) svc b := by
  subst hsvc
  unfold beginPending
  refine spec_bind.mpr (spec_get.mpr ?_)
  have hstop {v : Bool} (svc' : Service) (b' : Board) (hbooted : Booted cfg before v svc' b') :
      Booted cfg before v { svc' with reportPending := true } b' := ⟨⟨{ hbooted.1.1 with }, hbooted.1.2⟩, hbooted.2⟩
  cases haction : classifyPostBoot false .healthy svc.firmware svc.recovery with
  | validate =>
    obtain ⟨hreboot, -, -, hversion, -⟩ := targetMatches_iff.mp (targetMatches_of_validate haction)
    have hrunning : b.running.version = svc.recovery.targetVersion := by rw [hversion, h.1.firmware]
    have hnew : RunsAgain before b → State.validated ≠ .validated := by
      rintro (hreturned | ⟨r, hr, hprevious⟩)
      · exact absurd (.inr ⟨hreturned, hrunning⟩) (h.1.memoryPrior (.inr hreboot))
      · obtain rfl : svc.recovery = r := Option.some.inj (hbefore.symm.trans hr)
        exact absurd (hrunning.symm.trans hprevious.symm) (h.1.differs _ hstored)
    refine spec_bind.mpr ((spec_modify _).mpr ?_)
    have h1 := h.settle hstate { svc.status with pendingReboot := false, progressPercent := 100 } rfl rfl rfl
    exact spec_bind.mpr (spec_post (spec_setState h1.board) fun _ _ _ => booted_checkpoint h1 hstate hnew)
  | reportRollback =>
    refine spec_bind.mpr ((spec_modify _).mpr ?_)
    have h1 := h.settle hstate { svc.status with rollbackDetected := true, pendingReboot := false } rfl rfl rfl
    refine spec_bind.mpr (spec_post (spec_setState h1.board) fun _ _ _ hcheckpoint => ?_)
    exact hstop _ _ (booted_checkpoint h1 hstate (fun _ => by decide) hcheckpoint)
  | rollback => exact spec_post (spec_preServiceRollback h _) fun _ _ _ => booted_of_restricted
  | _ =>
    refine spec_bind.mpr (spec_post (spec_setState h.board) fun _ _ _ hcheckpoint => ?_)
    exact hstop _ _ (booted_checkpoint h hstate (fun _ => by decide) hcheckpoint)

end

/-- **A boot**, wherever it ends: the invariant, the evidence for a pending image that goes on, and nothing stored as
validated on an image that was gone back to. -/
theorem spec_begin (h : BoardInv cfg b) (hselected : b.selected = false) :
    spec device (fun o e _ => StateReadable o e) (BootBoard cfg b.stored) begin (Booted cfg b.stored) (powerOn b) b := by
  have h0 : BootInv cfg b.stored (powerOn b) b := ⟨inv_powerOn h hselected, fun _ => .inl rfl⟩
  unfold begin
  refine spec_bind.mpr (spec_perform.mpr ⟨h0.board, fun e _ => ?_⟩)
  have hb : (device.act .load e b).1 = b := act_asks (o := .load) trivial e b
  have hanswer : (∃ result, (device.act .load e b).2 = .error result) ∨
      ∃ recovered ∈ b.stored, (device.act .load e b).2 = .ok recovered := by
    cases e <;> cases hstored : b.stored <;> simp [device, act, hstored]
  rw [hb]
  rcases hanswer with ⟨result, hanswer⟩ | ⟨recovered, hstored, hanswer⟩ <;> rw [hanswer]
  · unfold beginUnrecorded
    refine spec_bind.mpr ((spec_modify _).mpr (spec_bind.mpr ?_))
    have h1 : BootInv cfg b.stored { powerOn b with recoveryLoadResult := result } b := ⟨{ h0.1 with }, h0.2⟩
    refine spec_runningImagePendingVerification h1.board fun pending hpending => ?_
    have hlast (svc : Service) (h : BootInv cfg b.stored svc b) : spec device (fun o e _ => StateReadable o e)
        (BootBoard cfg b.stored) (if pending then preServiceRollback (recoveryLoadFailureCode result) else pure true)
        (Booted cfg b.stored) svc b := by
      refine spec_ite.mpr ?_
      split
      · exact spec_post (spec_preServiceRollback h _) fun _ _ _ => booted_of_restricted
      next hsettled => exact booted_of_settled h (mt hpending.mpr hsettled)
    refine spec_ite.mpr ?_
    split
    · exact spec_bind.mpr ((spec_modify _).mpr (hlast _ ⟨{ h1.1 with }, h1.2⟩))
    · exact hlast _ h1
  · have h1 : BootInv cfg b.stored (adoptRecord recovered (powerOn b)) b := ⟨h0.1.adoptRecord hstored, h0.2⟩
    refine spec_bind.mpr ((spec_modify _).mpr (spec_bind.mpr ?_))
    refine spec_runningImagePendingVerification h1.board fun pending hpending => spec_ite.mpr ?_
    split
    · exact spec_post (spec_preServiceRollback h1 _) fun _ _ _ => booted_of_restricted
    next hnot =>
    refine spec_ite.mpr ?_
    split
    · cases hvalue : pending with
      | true => exact spec_beginPending_pending h1 rfl hstored (hpending.mp hvalue)
      | false => exact spec_beginPending_settled h1 rfl hstored hstored (mt hpending.mpr (hvalue ▸ Bool.false_ne_true))
    next hreboot =>
    have hsettled : b.imageState ≠ .pendingVerify := fun hstate => hnot ⟨hpending.mpr hstate, hreboot⟩
    refine spec_ite.mpr ?_
    split
    · exact booted_of_settled ⟨{ h1.1 with }, h1.2⟩ hsettled
    · exact booted_of_settled h1 hsettled

/-! ### Runs -/

/-- The commands of an update; the rollback by hand is not one. -/
def Updating : Command → Prop
  | .rollback => False
  | _ => True

theorem spec_command {c : Command} (hc : Updating c) (h : Inv cfg svc b) :
    spec device A (BoardInv cfg) (c.prog cfg) (fun _ => Inv cfg) svc b := by
  cases c with
  | apply reply now partitionSize => exact keeps_applyFromManifestUrl reply now partitionSize _ _ h
  | check health => exact Keeps.bind (keeps_checkRunningImage health) (fun _ => keeps_pure _) _ _ h
  | report => exact Keeps.bind keeps_flushPendingReport (fun _ => keeps_pure _) _ _ h
  | rollback => exact hc.elim

/-- What holds of the memory, if there is one, and the board. -/
def RunInv (cfg : Configuration) : Option Service → Board → Prop
  | some svc, b => Inv cfg svc b
  | none, b => BoardInv cfg b

theorem RunInv.board {memory : Option Service} (h : RunInv cfg memory b) : BoardInv cfg b := by
  cases memory with
  | some svc => exact Inv.toBoardInv h
  | none => exact h

theorem runInv_memoryAfter {reboots : Bool → Bool} {out : Board × Option ((Bool × Service) × List Event)}
    (h : Outcome (BoardInv cfg) (fun r => Inv cfg r.2) out) : RunInv cfg (memoryAfter reboots out.2) out.1 := by
  obtain ⟨b, none | ⟨⟨value, svc⟩, rest⟩⟩ := out
  · exact h
  · rw [memoryAfter]
    split
    · exact Inv.toBoardInv h
    · exact h

/-- **Every run keeps the invariant.** -/
theorem runInv_of_runs {memory : Option Service}
    (h : Runs cfg (fun _ _ => Updating) StateReadable memory b) : RunInv cfg memory b := by
  induction h with
  | initial h =>
    refine ⟨?_, ?_, ?_, ?_, ?_, ?_⟩
    · simp [h.accepted]
    · simp [h.stored]
    · simp [h.stored]
    · simp [h.stored]
    · simp [h.stored]
    · simp [h.marked]
  | boot es h hes ih =>
    exact runInv_memoryAfter (spec_run (spec_mono (spec_begin (RunInv.board ih).boot (boot_selected _)) (fun _ h => h.1) fun _ _ _ h => h.1.1) hes)
  | command c es h hc hes ih => exact runInv_memoryAfter (spec_run (spec_command hc ih) hes)
  | powerLoss h ih => exact Inv.toBoardInv ih

/-- No call puts another image in charge. -/
theorem act_running (o : Op) (e : Event) (b : Board) :
    (act o e b).1.running = b.running ∧ (act o e b).1.returned = b.returned := by
  cases o with
  | load => cases e <;> cases hstored : b.stored <;> simp [act, hstored]
  | _ => cases e <;> exact ⟨rfl, rfl⟩

/-- The image that runs is that of the boot, to the end. -/
theorem run_running {α : Type} (p : Prog Op Ans α) : ∀ (es : List Event) (b : Board),
    (run device p es b).1.running = b.running ∧ (run device p es b).1.returned = b.returned := by
  induction p with
  | ret a => exact fun _ _ => ⟨rfl, rfl⟩
  | call o k ih =>
    intro es b
    cases es with
    | nil => exact ⟨rfl, rfl⟩
    | cons e es =>
      obtain ⟨hrunning, hreturned⟩ := ih (act o e b).2 es (act o e b).1
      exact ⟨hrunning.trans (act_running o e b).1, hreturned.trans (act_running o e b).2⟩

/-- A boot of the board, and what it leaves. -/
def bootRun (b : Board) (es : List Event) : Board × Option ((Bool × Service) × List Event) :=
  run device (begin.run (powerOn b.boot)) es b.boot

/-- **Only the authenticated target is accepted**, whatever happened before: an image was marked valid only while the
record stored spoke for it, a boot that leaves a pending image in service has such a record, and on an image that runs
again nothing is stored as validated. -/
theorem authentic_of_runs {memory : Option Service} (h : Runs cfg (fun _ _ => Updating) StateReadable memory b) :
    (∀ m ∈ b.accepted, Verified cfg m) ∧ (∀ p ∈ b.marked, Authentic b.accepted p.1 p.2) ∧
      (memory = none → ∀ es, Along device (fun o e _ => StateReadable o e) (begin.run (powerOn b.boot)) es b.boot →
        (∀ svc rest, (bootRun b es).2 = some ((true, svc), rest) → svc.restrictedRecoveryMode = false →
          (bootRun b es).1.imageState = .pendingVerify →
            Authentic (bootRun b es).1.accepted (bootRun b es).1.running (bootRun b es).1.stored) ∧
        (RunsAgain b.stored b.boot →
          (bootRun b es).1.stored = b.stored ∨ ∀ r ∈ (bootRun b es).1.stored, r.state ≠ .validated)) := by
  have hinv := runInv_of_runs h
  refine ⟨hinv.board.verified, hinv.board.marked, ?_⟩
  rintro rfl es hes
  have hspec := spec_begin (RunInv.board hinv).boot (boot_selected b)
  rw [(Attempts.boot_stored b).1] at hspec
  refine ⟨fun svc rest hout => ((spec_run hspec hes).of_result hout).2 rfl, fun hagain => ?_⟩
  have hend : Unvalidated b.stored (bootRun b es).1 :=
    (spec_run (spec_mono hspec (fun _ h => h.2) fun _ _ _ h => h.1.2) hes).state
  refine hend ?_
  rw [RunsAgain, bootRun, (run_running _ es b.boot).1, (run_running _ es b.boot).2]
  exact hagain

/-! ### An update that succeeds -/

/-- A manifest is offered at noon, its image is installed, and no report gets through. -/
def installed : Command × List Event :=
  (.apply (.manifest Attempts.manifestA) 1767268800 6291456,
    [.ok, .unsaid, .ok, .ok, .ok, .unsaid, .ok, .ok, .unsaid, .ok, .ok, .image ⟨ascii "1.1.0", List.replicate 64 49⟩, .ok,
      .ok, .ok, .unsaid, .ok, .unsaid, .ok, .unsaid, .ok])

/-- The device that reboots into the new image. -/
def afterUpdate : Option Service × Board :=
  stepCommand Attempts.sampleConfiguration (bootStep Attempts.newBoard [.ok, .ok]) installed

/-- The boot into the new image. -/
def afterReboot : Board × Option ((Bool × Service) × List Event) := bootRun afterUpdate.2 [.ok, .ok, .ok]

/-- The device after the new image found itself healthy. -/
def afterValidation : Option Service × Board :=
  stepCommand Attempts.sampleConfiguration (bootStep afterUpdate.2 [.ok, .ok, .ok]) (.check .healthy, [.ok, .ok, .ok, .ok])

theorem afterUpdate_shape : afterUpdate.1.isNone = true ∧
    afterReboot.2.any (fun r => r.1.1 && !r.1.2.restrictedRecoveryMode) = true ∧
    afterReboot.1.imageState = .pendingVerify ∧ afterValidation.2.marked.length = 1 := by
  decide +kernel

theorem readable_of_ok {es : List Event} (h : ∀ e ∈ es, e ≠ .fail) : ∀ e ∈ es, ∀ o, StateReadable o e := fun e he _ _ =>
  h e he

theorem runs_afterUpdate :
    Runs Attempts.sampleConfiguration (fun _ _ => Updating) StateReadable afterUpdate.1 afterUpdate.2 := by
  refine runs_stepCommand (runs_bootStep (.initial Attempts.initial_newBoard) _ (readable_of_ok ?_)) installed
    (fun _ => trivial) (readable_of_ok ?_)
  · simp
  · simp [installed]

theorem runs_afterValidation :
    Runs Attempts.sampleConfiguration (fun _ _ => Updating) StateReadable afterValidation.1 afterValidation.2 := by
  have hoff : afterUpdate.1 = none := Option.isNone_iff_eq_none.mp afterUpdate_shape.1
  refine runs_stepCommand (runs_bootStep (hoff ▸ runs_afterUpdate) _ (readable_of_ok ?_)) (.check .healthy, _)
    (fun _ => trivial) (readable_of_ok ?_)
  · simp
  · simp

/-- The record speaks for the new image when it boots, and when it is marked valid. -/
theorem authentic_of_runs_update :
    Authentic afterReboot.1.accepted afterReboot.1.running afterReboot.1.stored ∧
      afterValidation.2.marked ≠ [] ∧ ∀ p ∈ afterValidation.2.marked, Authentic afterValidation.2.accepted p.1 p.2 := by
  obtain ⟨hoff, hbegun, hpending, hmarked⟩ := afterUpdate_shape
  have hboot := ((authentic_of_runs runs_afterUpdate).2.2 (Option.isNone_iff_eq_none.mp hoff) [.ok, .ok, .ok]
    (along_of_forall _ _ fun e he o _ => readable_of_ok (by simp) e he o)).1
  refine ⟨?_, List.ne_nil_of_length_eq_add_one hmarked, (authentic_of_runs runs_afterValidation).2.1⟩
  rw [← afterReboot] at hboot
  generalize afterReboot = out at hboot hbegun hpending
  obtain ⟨b, none | ⟨⟨value, svc⟩, rest⟩⟩ := out
  · cases hbegun
  obtain ⟨rfl, hrestricted⟩ : value = true ∧ svc.restrictedRecoveryMode = false := by simpa using hbegun
  exact hboot svc rest rfl hrestricted hpending

end PowerMonitor.Ota.PostBoot
