import Mathlib.Data.List.Chain
import Mathlib.Data.Nat.Find
import PowerMonitor.Reset.Policy

/-! # The records of one operation

The records stored one after another form a chain: each one repeats the one before it or is a valid
update of it. Along the consecutive records of one operation, nothing that the reset relies on is ever
taken back (`Continues`), and an operation whose boundary is approved can only end by completing.

* `validRecordUpdate_continues`: a valid update within an operation continues it.
* `continues_of_block`: what is between two records of one operation.
* `completed_between`: before another operation, an approved one completes. -/

namespace PowerMonitor.Reset.Operation

open PowerMonitor.Lib.Binary PowerMonitor.Reset.Policy

/-- The stored sequence: a record repeats the one before it or validly updates it. -/
def Follows (current proposed : Record) : Prop :=
  proposed = current ∨ validRecordUpdate current proposed = true

/-- **What a later record of an operation keeps of an earlier one.** -/
structure Continues (r r' : Record) : Prop where
  checkpoint : checkpointIndex r.checkpoint ≤ checkpointIndex r'.checkpoint
  prepare : r'.prepare = r.prepare
  prepared : preparedEvidencePresent r = true → r'.prepared = r.prepared
  commit : commitPointReached r.checkpoint = true → r'.commit = r.commit
  approved : r.commit.approvedBoundarySet = true → r'.commit.approvedBoundarySet = true ∧
    r'.commit.approvedBoundary = r.commit.approvedBoundary
  readings : r.deleted.readings ≤ r'.deleted.readings
  indexes : r.deleted.indexes ≤ r'.deleted.indexes
  exports : r.deleted.exports ≤ r'.deleted.exports
  backlogEntries : r.deleted.backlogEntries ≤ r'.deleted.backlogEntries

theorem Continues.refl (r : Record) : Continues r r where
  checkpoint := Nat.le_refl _
  prepare := rfl
  prepared := fun _ => rfl
  commit := fun _ => rfl
  approved := fun h => ⟨h, rfl⟩
  readings := UInt64.le_refl _
  indexes := UInt64.le_refl _
  exports := UInt64.le_refl _
  backlogEntries := UInt64.le_refl _

theorem commitPointReached_mono {c c' : Checkpoint} (h : checkpointIndex c ≤ checkpointIndex c')
    (hc : commitPointReached c = true) : commitPointReached c' = true := by
  simp only [commitPointReached, ge_iff_le, decide_eq_true_eq] at hc ⊢
  omega

theorem Continues.trans {r r' r'' : Record} (h : Continues r r') (h' : Continues r' r'') :
    Continues r r'' where
  checkpoint := Nat.le_trans h.checkpoint h'.checkpoint
  prepare := h'.prepare.trans h.prepare
  prepared := fun hp => by
    have hp' : preparedEvidencePresent r' = true := by
      rw [preparedEvidencePresent, h.prepared hp]; exact hp
    exact (h'.prepared hp').trans (h.prepared hp)
  commit := fun hc =>
    (h'.commit (commitPointReached_mono h.checkpoint hc)).trans (h.commit hc)
  approved := fun ha => by
    obtain ⟨hs, hb⟩ := h.approved ha
    obtain ⟨hs', hb'⟩ := h'.approved hs
    exact ⟨hs', hb'.trans hb⟩
  readings := UInt64.le_trans h.readings h'.readings
  indexes := UInt64.le_trans h.indexes h'.indexes
  exports := UInt64.le_trans h.exports h'.exports
  backlogEntries := UInt64.le_trans h.backlogEntries h'.backlogEntries

/-! ### One update -/

theorem validRecord_of_update {r r' : Record} (h : validRecordUpdate r r' = true) :
    validRecord r = true ∧ validRecord r' = true := by
  simp only [validRecordUpdate, Bool.and_eq_true] at h
  exact h.1

theorem validContinuation_of_update {r r' : Record} (h : validRecordUpdate r r' = true)
    (hid : r'.prepare.operationId = r.prepare.operationId) : validContinuation r r' = true := by
  simp only [validRecordUpdate, Bool.and_eq_true] at h
  have h := h.2
  rwa [if_neg (by simp [hid])] at h

theorem validSuccessor_of_update {r r' : Record} (h : validRecordUpdate r r' = true)
    (hid : r'.prepare.operationId ≠ r.prepare.operationId) : validSuccessor r r' = true := by
  simp only [validRecordUpdate, Bool.and_eq_true] at h
  have h := h.2
  rwa [if_pos (Ne.symm hid)] at h

/-- A continuation advances the checkpoint by one step or not at all. -/
theorem validContinuation_checkpoint {r r' : Record} (h : validContinuation r r' = true) :
    checkpointIndex r'.checkpoint = checkpointIndex r.checkpoint ∨
      checkpointIndex r'.checkpoint = checkpointIndex r.checkpoint + 1 := by
  simp only [validContinuation, Bool.and_eq_true] at h
  have hc : canAdvanceCheckpoint r.checkpoint r'.checkpoint = true := by tauto
  simpa [canAdvanceCheckpoint] using hc

theorem validContinuation_continues {r r' : Record} (h : validContinuation r r' = true) :
    Continues r r' := by
  have hcheckpoint := validContinuation_checkpoint h
  simp only [validContinuation, Bool.and_eq_true, Bool.or_eq_true, decide_eq_true_eq,
    Bool.not_eq_true'] at h
  obtain ⟨⟨⟨⟨⟨⟨⟨⟨⟨⟨⟨⟨⟨⟨hprepare, -⟩, -⟩, hprepared⟩, hcommit⟩, happroved⟩, -⟩, hreadings⟩, hindexes⟩,
    hexports⟩, hbacklog⟩, -⟩, -⟩, -⟩, -⟩ := h
  refine ⟨by omega, ?_, fun hp => ?_, fun hc => ?_, fun ha => ?_, hreadings, hindexes, hexports,
    hbacklog⟩
  · simpa [prepareRequestsEqual, eq_comm] using hprepare
  · rw [hp] at hprepared
    simpa [preparedEvidenceEqual, eq_comm] using hprepared
  · rw [hc] at hcommit
    simpa [commitEvidenceEqual, eq_comm] using hcommit
  · rw [ha] at happroved
    simp only [Bool.true_eq_false, false_or] at happroved
    exact ⟨happroved.2, happroved.1.1.1.symm⟩

/-- **A cancelled record has no approved boundary.** -/
theorem not_cancelled_of_approved {r : Record} (hv : validRecord r = true)
    (ha : r.commit.approvedBoundarySet = true) : r.state ≠ .cancelled := by
  intro hstate
  simp only [validRecord, Bool.and_eq_true] at hv
  have hcheckpoint : r.checkpoint = .none := by
    have : validStateCheckpoint r.state r.checkpoint = true := by tauto
    rw [hstate] at this
    simpa [validStateCheckpoint] using this
  have hevidence : (if commitPointReached r.checkpoint = true then validCommitEvidence r
      else validPreauthorizationEvidence r) = true := by tauto
  rw [hcheckpoint, if_neg (by decide)] at hevidence
  simp [validPreauthorizationEvidence, ha, hstate] at hevidence

/-! ### The sequence -/

/-- The records stored one after another from an empty store. -/
structure StoredSequence (rs : List Record) : Prop where
  first : ∀ r, rs.head? = some r → r.state = .preparing ∧ r.checkpoint = .none
  valid : ∀ r ∈ rs, validRecord r = true
  chain : rs.IsChain Follows

/-- The records from place `i` to place `j` are of the operation of `r`. -/
def Block (rs : List Record) (r : Record) (i j : ℕ) : Prop :=
  ∀ k, i ≤ k → k ≤ j → ∃ q, rs[k]? = some q ∧ q.prepare.operationId = r.prepare.operationId

/-- **The law of the operations** of a sequence of records. -/
structure OperationLaw (rs : List Record) : Prop where
  /-- an operation starts before its first checkpoint -/
  start : ∀ (i : ℕ) (r : Record), rs[i]? = some r →
    (∀ q, i ≠ 0 → rs[i - 1]? = some q → q.prepare.operationId ≠ r.prepare.operationId) →
    r.checkpoint = .none
  /-- and takes one checkpoint after the other -/
  step : ∀ (i : ℕ) (r r' : Record), rs[i]? = some r → rs[i + 1]? = some r' →
    r'.prepare.operationId = r.prepare.operationId →
    checkpointIndex r'.checkpoint = checkpointIndex r.checkpoint ∨
      checkpointIndex r'.checkpoint = checkpointIndex r.checkpoint + 1
  /-- nothing it relies on is taken back -/
  continues : ∀ (i j : ℕ) (r r' : Record), i ≤ j → rs[i]? = some r → rs[j]? = some r' →
    Block rs r i j → Continues r r'
  /-- once approved it is not cancelled -/
  notCancelled : ∀ (i j : ℕ) (r r' : Record), i ≤ j → rs[i]? = some r → rs[j]? = some r' →
    Block rs r i j → r.commit.approvedBoundarySet = true → r'.state ≠ .cancelled
  /-- and no other operation is admitted before it completes -/
  completes : ∀ (i j : ℕ) (r r' : Record), i < j → rs[i]? = some r → rs[j]? = some r' →
    r.commit.approvedBoundarySet = true → r'.prepare.operationId ≠ r.prepare.operationId →
    ∃ (k : ℕ) (q : Record), i ≤ k ∧ k < j ∧ rs[k]? = some q ∧ q.prepare.operationId = r.prepare.operationId ∧
      q.state = .completed

namespace StoredSequence

variable {rs : List Record}

theorem follows (h : StoredSequence rs) {i : ℕ} {r r' : Record} (hr : rs[i]? = some r)
    (hr' : rs[i + 1]? = some r') : Follows r r' := by
  obtain ⟨hi, rfl⟩ := List.getElem?_eq_some_iff.mp hr
  obtain ⟨hi', rfl⟩ := List.getElem?_eq_some_iff.mp hr'
  exact List.isChain_iff_getElem.mp h.chain i hi'

theorem continues_succ (h : StoredSequence rs) {i : ℕ} {r r' : Record} (hr : rs[i]? = some r)
    (hr' : rs[i + 1]? = some r') (hid : r'.prepare.operationId = r.prepare.operationId) :
    Continues r r' := by
  rcases h.follows hr hr' with rfl | hu
  · exact Continues.refl _
  · exact validContinuation_continues (validContinuation_of_update hu hid)

theorem continues_of_block (h : StoredSequence rs) {i j : ℕ} {r r' : Record} (hij : i ≤ j)
    (hr : rs[i]? = some r) (hr' : rs[j]? = some r') (hb : Block rs r i j) : Continues r r' := by
  induction j, hij using Nat.le_induction generalizing r' with
  | base => rw [hr] at hr'; cases hr'; exact Continues.refl _
  | succ j hij ih =>
    obtain ⟨q, hq, hqid⟩ := hb j hij (by omega)
    obtain ⟨p, hp, hpid⟩ := hb (j + 1) (by omega) (Nat.le_refl _)
    rw [hr'] at hp
    cases hp
    have hq' := ih hq fun k hk hk' => hb k hk (by omega)
    exact hq'.trans (h.continues_succ hq hr' (hpid.trans hqid.symm))

theorem approved_not_cancelled (h : StoredSequence rs) {i j : ℕ} {r r' : Record} (hij : i ≤ j)
    (hr : rs[i]? = some r) (hr' : rs[j]? = some r') (hb : Block rs r i j)
    (ha : r.commit.approvedBoundarySet = true) : r'.state ≠ .cancelled :=
  not_cancelled_of_approved (h.valid r' (List.mem_of_getElem? hr'))
    ((h.continues_of_block hij hr hr' hb).approved ha).1

/-- Another operation is admitted only after a terminal record. -/
theorem terminal_before (h : StoredSequence rs) {i : ℕ} {r r' : Record} (hr : rs[i]? = some r)
    (hr' : rs[i + 1]? = some r') (hid : r'.prepare.operationId ≠ r.prepare.operationId) :
    (r.state = .completed ∨ r.state = .cancelled) ∧ r'.checkpoint = .none := by
  rcases h.follows hr hr' with rfl | hu
  · exact absurd rfl hid
  · have hs := validSuccessor_of_update hu hid
    simp only [validSuccessor, Bool.and_eq_true, decide_eq_true_eq] at hs
    exact ⟨by simpa [terminalState] using hs.1.1.1, hs.1.2⟩

/-- **Before another operation, an approved one completes.** -/
theorem completed_between (h : StoredSequence rs) {i j : ℕ} {r r' : Record} (hij : i < j)
    (hr : rs[i]? = some r) (hr' : rs[j]? = some r') (ha : r.commit.approvedBoundarySet = true)
    (hid : r'.prepare.operationId ≠ r.prepare.operationId) :
    ∃ (k : ℕ) (q : Record), i ≤ k ∧ k < j ∧ rs[k]? = some q ∧ q.prepare.operationId = r.prepare.operationId ∧
      q.state = .completed := by
  -- the first record of another operation after `i`; the one before it is terminal, not cancelled
  have hex : ∃ m, i ≤ m ∧ ∃ q, rs[m]? = some q ∧ q.prepare.operationId ≠ r.prepare.operationId :=
    ⟨j, by omega, r', hr', hid⟩
  obtain ⟨him, q, hq, hqid⟩ := Nat.find_spec hex
  have hmin : ∀ k, k < Nat.find hex → i ≤ k → ∀ q, rs[k]? = some q →
      q.prepare.operationId = r.prepare.operationId := fun k hk hik q hq => by
    by_contra hne
    exact Nat.find_min hex hk ⟨hik, q, hq, hne⟩
  have hmj : Nat.find hex ≤ j := Nat.find_min' hex ⟨by omega, r', hr', hid⟩
  have hmi : Nat.find hex ≠ i := by
    intro he
    rw [he, hr] at hq
    cases hq
    exact hqid rfl
  obtain ⟨m, hm⟩ : ∃ m, Nat.find hex = m + 1 := ⟨Nat.find hex - 1, by omega⟩
  rw [hm] at hq
  obtain ⟨hlt, -⟩ := List.getElem?_eq_some_iff.mp hq
  obtain ⟨p, hp⟩ : ∃ p, rs[m]? = some p := ⟨_, List.getElem?_eq_getElem (by omega)⟩
  have hpid := hmin m (by omega) (by omega) p hp
  have hblock : Block rs r i m := fun k hik hkm => by
    obtain ⟨x, hx⟩ : ∃ x, rs[k]? = some x := ⟨_, List.getElem?_eq_getElem (by omega)⟩
    exact ⟨x, hx, hmin k (by omega) hik x hx⟩
  obtain ⟨hterm, -⟩ := h.terminal_before hp hq (by rw [hpid]; exact hqid)
  have hnc := h.approved_not_cancelled (by omega) hr hp hblock ha
  exact ⟨m, p, by omega, by omega, hp, hpid, by tauto⟩

/-- **The law of the operations** holds of every stored sequence. -/
theorem operationLaw (h : StoredSequence rs) : OperationLaw rs where
  start := by
    intro i r hr hfirst
    cases i with
    | zero =>
      refine (h.first r ?_).2
      rwa [List.head?_eq_getElem?]
    | succ i =>
      obtain ⟨hlt, -⟩ := List.getElem?_eq_some_iff.mp hr
      obtain ⟨q, hq⟩ : ∃ q, rs[i]? = some q := ⟨_, List.getElem?_eq_getElem (by omega)⟩
      exact (h.terminal_before hq hr (Ne.symm (hfirst q (by omega) hq))).2
  step := by
    intro i r r' hr hr' hid
    rcases h.follows hr hr' with rfl | hu
    · exact Or.inl rfl
    · exact validContinuation_checkpoint (validContinuation_of_update hu hid)
  continues := fun _ _ _ _ hij hr hr' hb => h.continues_of_block hij hr hr' hb
  notCancelled := fun _ _ _ _ hij hr hr' hb ha => h.approved_not_cancelled hij hr hr' hb ha
  completes := fun _ _ _ _ hij hr hr' ha hid => h.completed_between hij hr hr' ha hid

/-- The empty sequence, and a record added at the end. -/
theorem nil : StoredSequence [] := ⟨by simp, by simp, List.IsChain.nil⟩

theorem append (h : StoredSequence rs) {r : Record} (hv : validRecord r = true)
    (hr : (rs = [] ∧ r.state = .preparing ∧ r.checkpoint = .none) ∨
      ∃ current, rs.getLast? = some current ∧ Follows current r) : StoredSequence (rs ++ [r]) where
  first := by
    intro q hq
    rcases hr with ⟨rfl, hr⟩ | ⟨current, hc, -⟩
    · simp only [List.nil_append, List.head?_cons, Option.some.injEq] at hq
      subst hq
      exact hr
    · refine h.first q ?_
      cases rs with
      | nil => cases hc
      | cons x rs => simpa using hq
  valid := by
    intro q hq
    rcases List.mem_append.mp hq with hq | hq
    · exact h.valid q hq
    · rw [List.mem_singleton.mp hq]; exact hv
  chain := by
    rw [List.isChain_append]
    refine ⟨h.chain, by simp, fun x hx y hy => ?_⟩
    rcases hr with ⟨rfl, -⟩ | ⟨current, hc, hf⟩
    · cases hx
    · rw [hc] at hx
      simp only [Option.mem_def, Option.some.injEq, List.head?_cons] at hx hy
      subst hx hy
      exact hf

end StoredSequence

end PowerMonitor.Reset.Operation
