import PowerMonitor.Reset.Preparation
import PowerMonitor.Reset.RecordStore

/-! # Requests that can be stored

A request is admitted by one set of rules (`classifyPrepareRequest`, `classifyCommitRequest`) and the record it leads to
is stored by another (`validRecord`, `validRecordUpdate`). What the first admits the second stores.

* `latched_storable`: a commit that is accepted.
* `Stored.prepare_storable`: a prepare that is accepted, after any operations.
* `newNextSequence_above`: the next sequence that the commit fixes is above all the evidence. -/

namespace PowerMonitor.Reset.Requests

open PowerMonitor.Lib.Binary PowerMonitor.Reset.Policy PowerMonitor.Reset.Operation PowerMonitor.Reset.Preparation
open PowerMonitor.Reset.RecordStore (asked withdrawn)

/-! ### Commits -/

structure CommitRequest where
  protocol : Bytes := []
  operationId : Bytes := []
  deviceId : Bytes := []
  targetGeneration : UInt64 := 0
  planRevision : UInt64 := 0
  planDigest : Bytes := []
  approvedBoundary : UInt64 := 0
  preparedReceiptDigest : Bytes := []
  deriving DecidableEq

def validCommitRequest (request : CommitRequest) : Bool :=
  request.protocol = protocolVersion && lowercaseUuid request.operationId && lowercaseUuid request.deviceId &&
    request.targetGeneration ≠ 0 && request.planRevision ≠ 0 && lowercaseHex request.planDigest 64 &&
    request.approvedBoundary ≤ maximumResetBoundary && lowercaseHex request.preparedReceiptDigest 64

/-- The dispositions of a commit. -/
inductive CommitDisposition
  | accept | replay | invalid | staleGeneration | conflict | notPrepared | boundaryTooLow | sequenceExhausted
  deriving DecidableEq, Repr

def classifyCommitRequest (record : Record) (request : CommitRequest) : CommitDisposition :=
  if !validCommitRequest request then .invalid
  else if request.targetGeneration < record.prepare.targetGeneration then .staleGeneration
  else if request.operationId ≠ record.prepare.operationId ∨ request.deviceId ≠ record.prepare.deviceId ∨
      request.targetGeneration ≠ record.prepare.targetGeneration ∨ request.planRevision ≠ record.prepare.planRevision ∨
      request.planDigest ≠ record.prepare.planDigest ∨ request.preparedReceiptDigest ≠ record.prepared.receiptDigest then
    .conflict
  else if record.state = .preparing ∨ record.state = .cancelled then .notPrepared
  else
    match highestTrustedBoundary (boundaryInputs record) with
    | none => .sequenceExhausted
    | some required =>
      if request.approvedBoundary < required then .boundaryTooLow
      else if record.checkpoint = .none ∧ record.commit.approvedBoundarySet then
        if request.approvedBoundary = record.commit.approvedBoundary then .replay else .conflict
      else if commitPointReached record.checkpoint then
        if record.commit.approvedBoundarySet ∧ request.approvedBoundary = record.commit.approvedBoundary then .replay
        else .conflict
      else if record.state = .prepared then .accept
      else .notPrepared

/-- The record that latches the boundary of an accepted commit. -/
def latched (record : Record) (request : CommitRequest) : Record :=
  { record with
    commit := { record.commit with
      approvedBoundarySet := true
      approvedBoundary := request.approvedBoundary
      newSequenceFloor := request.approvedBoundary
      newNextSequence := request.approvedBoundary + 1 }
    failureCode := [] }

/-- What an accepted commit is known to be. -/
structure Accepted (record : Record) (request : CommitRequest) : Prop where
  prepared : record.state = .prepared
  before : commitPointReached record.checkpoint = false
  unset : record.checkpoint = .none → record.commit.approvedBoundarySet = false
  room : request.approvedBoundary ≤ maximumResetBoundary
  covers : ∃ required, highestTrustedBoundary (boundaryInputs record) = some required ∧ required ≤ request.approvedBoundary

theorem accepted_of_classify {record : Record} {request : CommitRequest}
    (h : classifyCommitRequest record request = .accept) : Accepted record request := by
  unfold classifyCommitRequest at h
  split at h
  · cases h
  next hvalid =>
  split at h
  · cases h
  split at h
  · cases h
  split at h
  · cases h
  split at h
  · cases h
  next required hrequired =>
  split at h
  · cases h
  next hcovers =>
  split at h
  · split at h <;> cases h
  next hunset =>
  split at h
  · split at h <;> cases h
  next hbefore =>
  split at h
  next hprepared =>
    have hroom : request.approvedBoundary ≤ maximumResetBoundary := by
      simp only [Bool.not_eq_true', Bool.not_eq_false, validCommitRequest, Bool.and_eq_true, decide_eq_true_eq] at hvalid
      exact hvalid.1.2
    exact ⟨hprepared, by simpa using hbefore, fun hnone => by simpa [hnone] using hunset, hroom,
      required, hrequired, UInt64.not_lt.mp hcovers⟩
  · cases h

/-- The record before its commit point, and before its boundary is latched. -/
structure Uncommitted (record : Record) : Prop where
  valid : validRecord record = true
  prepared : record.state = .prepared
  checkpoint : record.checkpoint = .none
  commit : record.commit = {}
  noProgress : noProgress record = true

theorem uncommitted_of_accept {record : Record} {request : CommitRequest} (hvalid : validRecord record = true)
    (h : Accepted record request) : Uncommitted record := by
  have hparts := hvalid
  simp only [validRecord, Bool.and_eq_true] at hparts
  obtain ⟨⟨⟨⟨⟨⟨⟨⟨⟨⟨-, hplace⟩, -⟩, -⟩, -⟩, -⟩, hcommit⟩, -⟩, -⟩, -⟩, -⟩ := hparts
  have hnone : record.checkpoint = .none := by simpa [validStateCheckpoint, h.prepared] using hplace
  have hnothing : noCommitEvidence record = true := by
    rw [h.before, if_neg Bool.false_ne_true, validPreauthorizationEvidence, h.unset hnone] at hcommit
    exact hcommit
  simp only [noCommitEvidence, Bool.and_eq_true, decide_eq_true_eq] at hnothing
  exact ⟨hvalid, h.prepared, hnone, hnothing.1, hnothing.2⟩

/-- The evidence of the latched record. -/
theorem latched_evidence {record : Record} {request : CommitRequest} (h : Uncommitted record)
    (haccept : Accepted record request) : validPreauthorizationEvidence (latched record request) = true := by
  obtain ⟨required, hrequired, hcovers⟩ := haccept.covers
  have hinputs : boundaryInputs (latched record request) = boundaryInputs record := rfl
  have hprogress : noProgress (latched record request) = true := h.noProgress
  simp only [validPreauthorizationEvidence, hinputs, hrequired, hprogress]
  simp [latched, h.prepared, h.checkpoint, h.commit, hcovers, haccept.room]

theorem latched_valid {record : Record} {request : CommitRequest} (h : Uncommitted record)
    (haccept : Accepted record request) : validRecord (latched record request) = true := by
  have hparts := h.valid
  simp only [validRecord, Bool.and_eq_true] at hparts ⊢
  obtain ⟨⟨⟨⟨⟨⟨⟨⟨⟨⟨⟨⟨hschema, hidle⟩, hprepare⟩, hplace⟩, -⟩, hevidence⟩, hpresent⟩, hpreparing⟩, -⟩, hpause⟩, -⟩, hdigest⟩,
    hcompletion⟩ := hparts
  refine ⟨⟨⟨⟨⟨⟨⟨⟨⟨⟨⟨⟨hschema, hidle⟩, hprepare⟩, hplace⟩, rfl⟩, hevidence⟩, hpresent⟩, hpreparing⟩, ?_⟩, hpause⟩, ?_⟩, hdigest⟩,
    hcompletion⟩
  · have hbefore : commitPointReached (latched record request).checkpoint = false := haccept.before
    rw [hbefore, if_neg Bool.false_ne_true]
    exact latched_evidence h haccept
  · simp [latched, h.prepared]

/-- **A commit that is accepted is stored.** -/
theorem latched_storable {record : Record} {request : CommitRequest} (hvalid : validRecord record = true)
    (haccept : classifyCommitRequest record request = .accept) :
    validRecord (latched record request) = true ∧ validRecordUpdate record (latched record request) = true := by
  have haccepted := accepted_of_classify haccept
  have h := uncommitted_of_accept hvalid haccepted
  have hlatched := latched_valid h haccepted
  refine ⟨hlatched, ?_⟩
  have hcontinues : validContinuation record (latched record request) = true := by
    simp [validContinuation, latched, prepareRequestsEqual, preparedEvidenceEqual, h.prepared, h.checkpoint, h.commit,
      canTransition, canAdvanceCheckpoint, validStateCheckpoint, terminalState, commitPointReached, checkpointIndex]
  have hsame : (latched record request).prepare = record.prepare := rfl
  simp only [validRecordUpdate, hvalid, hlatched, hsame, hcontinues, ne_eq, not_true_eq_false, if_false, Bool.and_self]

/-! ### The boundary -/

theorem max_le_iff {a b c : UInt64} : max a b ≤ c ↔ a ≤ c ∧ b ≤ c := by
  rw [show max a b = if a ≤ b then b else a from rfl]
  simp only [UInt64.le_iff_toNat_le]
  split_ifs with h
  all_goals omega

theorem eq_of_guard {value limit boundary : UInt64} (h : (if value > limit then none else some value) = some boundary) :
    value = boundary := by
  split at h
  · cases h
  · exact Option.some.inj h

/-- The sequences of the evidence; the next one is not among them. -/
def evidence (inputs : BoundaryInputs) : List UInt64 :=
  [inputs.expectedBoundary, inputs.serverHighestContiguous, inputs.serverMaximumSeen, inputs.localSequenceFloor,
    inputs.newestStoredSequence, inputs.newestSyncableSequence, inputs.sensorServerAcknowledgement,
    inputs.sensorMaximumSeen, inputs.preparedRemovalFloor]

/-- **The boundary covers the evidence.** -/
theorem boundary_covers {inputs : BoundaryInputs} {boundary : UInt64} (h : highestTrustedBoundary inputs = some boundary) :
    (∀ sequence ∈ evidence inputs, sequence ≤ boundary) ∧ inputs.nextSequence.toNat ≤ boundary.toNat + 1 := by
  unfold highestTrustedBoundary at h
  extract_lets b₁ b₂ b₃ b₄ b₅ b₆ b₇ b₈ b₉ at h
  have hle : b₉ ≤ boundary := UInt64.le_of_eq (eq_of_guard h)
  simp only [b₉, b₈, b₇, b₆, b₅, max_le_iff] at hle
  obtain ⟨⟨⟨⟨⟨hle, h₅⟩, h₆⟩, h₇⟩, h₈⟩, h₉⟩ := hle
  have hthree : b₃ ≤ boundary ∧ (inputs.nextSequence ≠ 0 → inputs.nextSequence - 1 ≤ boundary) := by
    by_cases hnext : inputs.nextSequence = 0
    · rw [show b₄ = b₃ from if_neg (not_not.mpr hnext)] at hle
      exact ⟨hle, fun hne => absurd hnext hne⟩
    · rw [show b₄ = max b₃ (inputs.nextSequence - 1) from if_pos hnext, max_le_iff] at hle
      exact ⟨hle.1, fun _ => hle.2⟩
  obtain ⟨hlow, hbefore⟩ := hthree
  simp only [b₃, b₂, b₁, max_le_iff] at hlow
  obtain ⟨⟨⟨h₁, h₂⟩, h₃⟩, h₄⟩ := hlow
  refine ⟨by simp [evidence, h₁, h₂, h₃, h₄, h₅, h₆, h₇, h₈, h₉], ?_⟩
  by_cases hnext : inputs.nextSequence = 0
  · simp [hnext]
  · have hpos : inputs.nextSequence.toNat ≠ 0 := fun hzero => hnext (UInt64.toNat_inj.mp hzero)
    have hone : (1 : UInt64) ≤ inputs.nextSequence := UInt64.le_iff_toNat_le.mpr (Nat.one_le_iff_ne_zero.mpr hpos)
    have hbefore := UInt64.le_iff_toNat_le.mp (hbefore hnext)
    rw [UInt64.toNat_sub_of_le _ _ hone, UInt64.toNat_one] at hbefore
    omega

/-- **The next sequence that the commit fixes** is a positive signed number, and above all that was found. -/
theorem newNextSequence_above {record : Record} (hvalid : validRecord record = true)
    (hcommit : commitPointReached record.checkpoint = true) :
    record.commit.newNextSequence.toNat = record.commit.approvedBoundary.toNat + 1 ∧
      record.commit.newNextSequence.toNat ≤ 2 ^ 63 - 1 ∧
      (∀ sequence ∈ evidence (boundaryInputs record), sequence < record.commit.newNextSequence) ∧
      record.prepared.nextSequence ≤ record.commit.newNextSequence := by
  have hevidence : validCommitEvidence record = true := by
    simp only [validRecord, Bool.and_eq_true] at hvalid
    obtain ⟨⟨⟨⟨⟨-, h⟩, -⟩, -⟩, -⟩, -⟩ := hvalid
    rwa [if_pos hcommit] at h
  unfold validCommitEvidence at hevidence
  simp only [Bool.and_eq_true, decide_eq_true_eq] at hevidence
  obtain ⟨⟨⟨⟨⟨⟨-, -⟩, hroom⟩, -⟩, hnext⟩, hrequired⟩, -⟩ := hevidence
  split at hrequired
  · cases hrequired
  · next required hboundary =>
    simp only [Bool.and_eq_true, decide_eq_true_eq] at hrequired
    obtain ⟨hcovers, hlast⟩ := boundary_covers hboundary
    have hcovered := UInt64.le_iff_toNat_le.mp hrequired.1
    have hbound : record.commit.approvedBoundary.toNat ≤ 9223372036854775805 := UInt64.le_iff_toNat_le.mp hroom
    have hsucc : record.commit.newNextSequence.toNat = record.commit.approvedBoundary.toNat + 1 := by
      rw [hnext, UInt64.toNat_add]
      simp
      omega
    refine ⟨hsucc, by omega, fun sequence hs => ?_, ?_⟩
    · have hle := UInt64.le_iff_toNat_le.mp (hcovers sequence hs)
      rw [UInt64.lt_iff_toNat_lt]
      omega
    · have hle : record.prepared.nextSequence.toNat ≤ required.toNat + 1 := hlast
      rw [UInt64.le_iff_toNat_le]
      omega

/-! ### Prepares -/

/-- The stored record and the active generation, over any operations. A prepare is asked for the next generation; the
generation of an operation becomes the active one past its commit point, and is so when it completes. -/
inductive Stored (start : UInt64) : Option Record → UInt64 → Prop
  | new : Stored start none start
  | prepare {last : Option Record} {active : UInt64} (h : Stored start last active) {request : PrepareRequest}
      (haccept : classifyPrepareRequest last active request = .accept) (hnext : request.targetGeneration = active + 1)
      (startedUtcMs : UInt64) (hstarted : startedUtcMs ≠ 0) :
      Stored start (some (preparingRecord request startedUtcMs)) active
  | update {record proposed : Record} {active : UInt64} (h : Stored start (some record) active)
      (hupdate : validRecordUpdate record proposed = true)
      (hsame : proposed.prepare.operationId = record.prepare.operationId)
      (hcompleted : proposed.state = .completed → active = record.prepare.targetGeneration) :
      Stored start (some proposed) active
  | advance {record : Record} {active : UInt64} (h : Stored start (some record) active)
      (hcommit : commitPointReached record.checkpoint = true) :
      Stored start (some record) record.prepare.targetGeneration

/-- **What the active generation is to the stored record**: its own once it completes, the one before its own as long
as it is not committed. -/
structure Inv (record : Record) (active : UInt64) : Prop where
  completed : record.state = .completed → active = record.prepare.targetGeneration
  before : commitPointReached record.checkpoint = false → record.prepare.targetGeneration = active + 1

theorem Inv.update {record proposed : Record} {active : UInt64} (h : Inv record active)
    (hupdate : validRecordUpdate record proposed = true)
    (hsame : proposed.prepare.operationId = record.prepare.operationId)
    (hcompleted : proposed.state = .completed → active = record.prepare.targetGeneration) : Inv proposed active := by
  have hcontinues := validContinuation_continues (validContinuation_of_update hupdate hsame)
  refine ⟨fun hc => by rw [hcontinues.prepare]; exact hcompleted hc, fun hbefore => ?_⟩
  rw [hcontinues.prepare]
  refine h.before (Bool.eq_false_iff.mpr fun hc => ?_)
  rw [commitPointReached_mono hcontinues.checkpoint hc] at hbefore
  cases hbefore

theorem Stored.inv {start : UInt64} {stored : Option Record} {active : UInt64} (h : Stored start stored active) :
    ∀ record, stored = some record → Inv record active := by
  induction h with
  | new => exact fun record hr => nomatch hr
  | prepare h haccept hnext startedUtcMs hstarted ih =>
    rintro record hr
    obtain rfl := Option.some.inj hr
    exact ⟨nofun, fun _ => hnext⟩
  | update h hupdate hsame hcompleted ih =>
    rintro record hr
    obtain rfl := Option.some.inj hr
    exact (ih _ rfl).update hupdate hsame hcompleted
  | advance h hcommit ih =>
    rintro record hr
    obtain rfl := Option.some.inj hr
    exact ⟨fun _ => rfl, fun hbefore => absurd (hcommit.symm.trans hbefore) (by decide)⟩

/-- What an accepted prepare is beside a stored record. -/
theorem prepare_of_accept {last : Option Record} {active : UInt64} {request : PrepareRequest}
    (h : classifyPrepareRequest last active request = .accept) :
    validPrepareRequest request = true ∧ ∀ record, last = some record →
      request.operationId ≠ record.prepare.operationId ∧ terminalState record.state = true ∧
      (record.state = .completed → record.prepare.targetGeneration < request.targetGeneration) := by
  unfold classifyPrepareRequest at h
  split at h
  · cases h
  next hvalid =>
  refine ⟨by simpa using hvalid, ?_⟩
  rintro record rfl
  dsimp only at h
  split at h
  · split at h <;> cases h
  next hother =>
  split at h
  · cases h
  next hterminal =>
  split at h
  · cases h
  next hfresh =>
  rw [not_or] at hfresh
  exact ⟨hother, by simpa using hterminal, fun hc => UInt64.not_le.mp fun hle => hfresh.2 ⟨hc, hle⟩⟩

/-- A first record is valid. -/
theorem preparingRecord_valid {request : PrepareRequest} {startedUtcMs : UInt64} (hrequest : validPrepareRequest request = true)
    (hstarted : startedUtcMs ≠ 0) : validRecord (preparingRecord request startedUtcMs) = true := by
  simp [validRecord, preparingRecord, hrequest, hstarted, validStateCheckpoint, safeFailureCode, preparedEvidencePresent,
    noPreparedEvidence, commitPointReached, checkpointIndex, validPreauthorizationEvidence, noCommitEvidence, noProgress,
    validPause, Checkpoint.value]

/-- **A prepare that is accepted is stored**, whatever operations came before. -/
theorem Stored.prepare_storable {start active : UInt64} {record : Record} (h : Stored start (some record) active)
    (hvalid : validRecord record = true) {request : PrepareRequest}
    (haccept : classifyPrepareRequest (some record) active request = .accept)
    (hnext : request.targetGeneration = active + 1) {startedUtcMs : UInt64} (hstarted : startedUtcMs ≠ 0) :
    validRecordUpdate record (preparingRecord request startedUtcMs) = true := by
  obtain ⟨hrequest, hrecord⟩ := prepare_of_accept haccept
  obtain ⟨hother, hterminal, hgreater⟩ := hrecord record rfl
  have hsuccessor : validSuccessor record (preparingRecord request startedUtcMs) = true := by
    by_cases hcompleted : record.state = .completed
    · have hgeneration : request.targetGeneration > record.prepare.targetGeneration := hgreater hcompleted
      simp [validSuccessor, preparingRecord, terminalState, hcompleted, hgeneration]
    · have hcancelled : record.state = .cancelled := by simpa [terminalState, hcompleted] using hterminal
      have hplace : validStateCheckpoint record.state record.checkpoint = true := by
        simp only [validRecord, Bool.and_eq_true] at hvalid
        tauto
      have hnone : record.checkpoint = .none := by simpa [validStateCheckpoint, hcancelled] using hplace
      have hgeneration := (h.inv record rfl).before (by simp [hnone, commitPointReached, checkpointIndex])
      simp [validSuccessor, preparingRecord, terminalState, hcancelled, hnext, hgeneration]
  have hdifferent : record.prepare.operationId ≠ (preparingRecord request startedUtcMs).prepare.operationId := hother.symm
  simp only [validRecordUpdate, hvalid, preparingRecord_valid hrequest hstarted, hsuccessor, hdifferent, ne_eq,
    not_false_eq_true, if_true, Bool.and_self]

/-- **Accepted requests can be stored.** -/
theorem accepted_storable :
    (∀ record request, validRecord record = true → classifyCommitRequest record request = .accept →
      validRecord (latched record request) = true ∧ validRecordUpdate record (latched record request) = true) ∧
    (∀ start active record request startedUtcMs, Stored start (some record) active → validRecord record = true →
      terminalState record.state = true → classifyPrepareRequest (some record) active request = .accept →
      request.targetGeneration = active + 1 → startedUtcMs ≠ 0 →
      validRecordUpdate record (preparingRecord request startedUtcMs) = true) ∧
    ∀ record, validRecord record = true → commitPointReached record.checkpoint = true →
      record.commit.newNextSequence.toNat = record.commit.approvedBoundary.toNat + 1 ∧
        record.commit.newNextSequence.toNat ≤ 2 ^ 63 - 1 ∧
        (∀ sequence ∈ evidence (boundaryInputs record), sequence < record.commit.newNextSequence) ∧
        record.prepared.nextSequence ≤ record.commit.newNextSequence :=
  ⟨fun _ _ hvalid haccept => latched_storable hvalid haccept,
    fun _ _ _ _ _ h hvalid _ haccept hnext hstarted => h.prepare_storable hvalid haccept hnext hstarted,
    fun _ hvalid hcommit => newNextSequence_above hvalid hcommit⟩

/-- The reset that was asked for, prepared: sequences up to 6 are spent. -/
def readied : Record :=
  { asked with
    state := .prepared
    prepared := {
      firmwareVersion := ascii "1.0.0"
      buildHash := List.replicate 64 48
      bootId := ascii "00000000-0000-0000-0000-000000000003"
      newestStoredSequence := 6
      newestSyncableSequence := 6
      nextSequence := 7
      localRecordCount := 6
      cardGeneration := 1
      sdStatus := ascii "verified"
      configurationDigestBefore := List.replicate 64 48
      receipt := ascii "receipt"
      receiptDigest := List.replicate 64 49 } }

def approval : CommitRequest where
  protocol := protocolVersion
  operationId := asked.prepare.operationId
  deviceId := asked.prepare.deviceId
  targetGeneration := 1
  planRevision := 1
  planDigest := List.replicate 64 48
  approvedBoundary := 6
  preparedReceiptDigest := List.replicate 64 49

def authorized : Record :=
  { latched readied approval with
    state := .committing
    checkpoint := .commitAuthorized
    commit := { (latched readied approval).commit with energyBaselineSet := true } }

/-- A prepare that follows the cancelled one, for the same generation. -/
def askedAgain : PrepareRequest := { asked.prepare with operationId := ascii "00000000-0000-0000-0000-000000000004" }

theorem stored_withdrawn : Stored 0 (some withdrawn) 0 := by
  have hasked : Stored 0 (some (preparingRecord asked.prepare 1)) 0 :=
    Stored.new.prepare (by decide +kernel) rfl 1 (by decide)
  exact hasked.update (by decide +kernel) rfl nofun

theorem accepted_storable_withdrawn :
    validRecordUpdate readied (latched readied approval) = true ∧
      validRecordUpdate withdrawn (preparingRecord askedAgain 3) = true ∧
      authorized.prepared.nextSequence ≤ authorized.commit.newNextSequence :=
  ⟨(accepted_storable.1 readied approval (by decide +kernel) (by decide +kernel)).2,
    accepted_storable.2.1 0 0 withdrawn askedAgain 3 stored_withdrawn (by decide +kernel) (by decide) (by decide +kernel)
      rfl (by decide),
    (accepted_storable.2.2 authorized (by decide +kernel) (by decide)).2.2.2⟩

end PowerMonitor.Reset.Requests
