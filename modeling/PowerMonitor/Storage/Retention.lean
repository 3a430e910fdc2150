import Mathlib.Algebra.Order.BigOperators.Group.List
import Mathlib.Algebra.Order.Group.Nat
import Mathlib.Data.List.Sort
import PowerMonitor.Lib.Binary

/-! # Storage under pressure

How full a card is, how much of it a cleanup is to free, and which segments the cleanup takes.

* `percentBytes_eq`: a percentage of the capacity is exact.
* `severity_antitone`: more free space is never a worse state.
* `agree_iff`: under pressure the target is above what is free, except where the free space is the threshold and the
  target at the same time.
* `buildCleanupPlan_oldestFirst`: a cleanup takes the oldest segments, no more than it needs and only what is allowed. -/

namespace PowerMonitor.Storage.Retention

open PowerMonitor.Lib.Binary

/-! ### The policy -/

inductive RetentionMode
  | disabled | strictAge | continuousProtected
  deriving DecidableEq, Repr

/-- The states that the free space alone is classified as. -/
inductive StoragePressureState
  | healthy | notice | warning | critical | emergency | full | failed
  deriving DecidableEq, Repr

structure StoragePolicy where
  mode : RetentionMode := .continuousProtected
  retentionDays : UInt16 := 730
  minimumLocalHistoryDays : UInt16 := 30
  noticePercent : UInt8 := 20
  warningPercent : UInt8 := 10
  criticalPercent : UInt8 := 5
  emergencyPercent : UInt8 := 2
  emergencyReserveBytes : UInt64 := 512 * 1024 * 1024
  cleanupTargetPercent : UInt8 := 10
  cleanupTargetBytes : UInt64 := 1024 * 1024 * 1024
  eventRetentionDays : UInt16 := 730

def percentBytes (capacity : UInt64) (percent : UInt8) : UInt64 :=
  capacity / 100 * percent.toUInt64 + capacity % 100 * percent.toUInt64 / 100

def validateStoragePolicy (policy : StoragePolicy) : Bool × Bytes :=
  if policy.noticePercent > 50 ∨ policy.emergencyPercent < 1 ∨
      ¬ (policy.noticePercent > policy.warningPercent ∧ policy.warningPercent > policy.criticalPercent ∧
        policy.criticalPercent > policy.emergencyPercent) then
    (false, ascii "storage_threshold_order_invalid")
  else if policy.retentionDays < 1 ∨ policy.retentionDays > 3650 ∨ policy.minimumLocalHistoryDays < 1 ∨
      policy.minimumLocalHistoryDays > policy.retentionDays ∨ policy.eventRetentionDays < 1 ∨
      policy.eventRetentionDays > 3650 then
    (false, ascii "storage_retention_window_invalid")
  else if policy.emergencyReserveBytes < 64 * 1024 * 1024 ∨
      policy.cleanupTargetBytes < policy.emergencyReserveBytes ∨ policy.cleanupTargetPercent < policy.warningPercent ∨
      policy.cleanupTargetPercent > policy.noticePercent then
    (false, ascii "storage_reserve_invalid")
  else (true, ascii "ok")

def emergencyThreshold (capacityBytes : UInt64) (policy : StoragePolicy) : UInt64 :=
  max (percentBytes capacityBytes policy.emergencyPercent) (min policy.emergencyReserveBytes (capacityBytes / 2))

def classifyStoragePressure (capacityBytes freeBytes : UInt64) (policy : StoragePolicy) : StoragePressureState :=
  if capacityBytes = 0 then .failed
  else if freeBytes = 0 then .full
  else if freeBytes ≤ emergencyThreshold capacityBytes policy then .emergency
  else if freeBytes ≤ percentBytes capacityBytes policy.criticalPercent then .critical
  else if freeBytes ≤ percentBytes capacityBytes policy.warningPercent then .warning
  else if freeBytes ≤ percentBytes capacityBytes policy.noticePercent then .notice
  else .healthy

/-- The percentage, or the absolute target as far as it is at most half of the card. -/
def cleanupTargetFreeBytes (capacityBytes : UInt64) (policy : StoragePolicy) : UInt64 :=
  max (percentBytes capacityBytes policy.cleanupTargetPercent) (min policy.cleanupTargetBytes (capacityBytes / 2))

/-! ### Percentages -/

/-- A percentage fits in 64 bits with its intermediate results, and is the exact one rounded down. -/
structure Exact (capacity : UInt64) (percent : UInt8) : Prop where
  fits : capacity.toNat / 100 * percent.toNat + capacity.toNat % 100 * percent.toNat < 2 ^ 64
  eq : (percentBytes capacity percent).toNat = capacity.toNat * percent.toNat / 100

variable {capacity free : UInt64} {percent : UInt8} {policy : StoragePolicy}

theorem percentBytes_eq (capacity : UInt64) (h : percent.toNat ≤ 50) : Exact capacity percent := by
  have hlt := capacity.toNat_lt
  have hquotient : capacity.toNat / 100 * percent.toNat ≤ capacity.toNat / 100 * 50 := Nat.mul_le_mul_left _ h
  have hrest : capacity.toNat % 100 * percent.toNat ≤ 99 * 50 :=
    Nat.mul_le_mul (Nat.lt_succ_iff.mp (Nat.mod_lt _ (by decide))) h
  have hfits : capacity.toNat / 100 * percent.toNat + capacity.toNat % 100 * percent.toNat < 2 ^ 64 := by omega
  refine ⟨hfits, ?_⟩
  have hsplit : capacity.toNat * percent.toNat =
      100 * (capacity.toNat / 100 * percent.toNat) + capacity.toNat % 100 * percent.toNat := by
    conv_lhs => rw [← Nat.div_add_mod capacity.toNat 100]
    rw [Nat.add_mul, Nat.mul_assoc]
  simp only [percentBytes, UInt64.toNat_add, UInt64.toNat_mul, UInt64.toNat_div, UInt64.toNat_mod, UInt8.toNat_toUInt64,
    UInt64.reduceToNat]
  rw [hsplit]
  omega

/-- What an accepted policy promises, in numbers. -/
structure Accepted (policy : StoragePolicy) : Prop where
  notice : policy.noticePercent.toNat ≤ 50
  warning : policy.warningPercent.toNat < policy.noticePercent.toNat
  critical : policy.criticalPercent.toNat < policy.warningPercent.toNat
  emergency : policy.emergencyPercent.toNat < policy.criticalPercent.toNat
  reserve : 2 ^ 26 ≤ policy.emergencyReserveBytes.toNat
  target : policy.emergencyReserveBytes.toNat ≤ policy.cleanupTargetBytes.toNat
  atLeast : policy.warningPercent.toNat ≤ policy.cleanupTargetPercent.toNat
  atMost : policy.cleanupTargetPercent.toNat ≤ policy.noticePercent.toNat

theorem accepted_of_valid (h : (validateStoragePolicy policy).1 = true) : Accepted policy := by
  unfold validateStoragePolicy at h
  split_ifs at h with hthresholds hdays hreserve
  simp only [not_or, not_not, gt_iff_lt, UInt8.not_lt, UInt64.not_lt] at hthresholds hreserve
  simp only [UInt8.lt_iff_toNat_lt, UInt8.le_iff_toNat_le, UInt64.le_iff_toNat_le] at hthresholds hreserve
  obtain ⟨hnotice, -, hwarning, hcritical, hemergency⟩ := hthresholds
  obtain ⟨hleast, htarget, hpercent, hmost⟩ := hreserve
  exact ⟨hnotice, hwarning, hcritical, hemergency, hleast, htarget, hpercent, hmost⟩

/-- The percentages of a policy. -/
def StoragePolicy.percents (policy : StoragePolicy) : List UInt8 :=
  [policy.emergencyPercent, policy.criticalPercent, policy.warningPercent, policy.noticePercent,
    policy.cleanupTargetPercent]

theorem Accepted.exact (h : Accepted policy) (capacity : UInt64) : ∀ percent ∈ policy.percents, Exact capacity percent := by
  obtain ⟨h1, h2, h3, h4, -, -, -, h5⟩ := h
  intro percent hmem
  simp only [StoragePolicy.percents, List.mem_cons, List.not_mem_nil, or_false] at hmem
  refine percentBytes_eq capacity ?_
  rcases hmem with rfl | rfl | rfl | rfl | rfl <;> omega

/-! ### Pressure -/

/-- How bad a state is. -/
def severity : StoragePressureState → ℕ
  | .healthy => 0
  | .notice => 1
  | .warning => 2
  | .critical => 3
  | .emergency => 4
  | .full => 5
  | .failed => 6

/-- **More free space is never a worse state**, whatever the policy. -/
theorem severity_antitone {free' : UInt64} (h : free ≤ free') :
    severity (classifyStoragePressure capacity free' policy) ≤ severity (classifyStoragePressure capacity free policy) := by
  simp only [UInt64.le_iff_toNat_le] at h
  simp only [classifyStoragePressure, UInt64.le_iff_toNat_le, ← UInt64.toNat_inj]
  generalize (emergencyThreshold capacity policy).toNat = emergency
  generalize (percentBytes capacity policy.criticalPercent).toNat = critical
  generalize (percentBytes capacity policy.warningPercent).toNat = warning
  generalize (percentBytes capacity policy.noticePercent).toNat = notice
  split_ifs <;> simp only [severity] <;> first | omega | (exfalso; simp_all)

/-- The states that call for a cleanup. -/
def Pressing (state : StoragePressureState) : Prop := state = .critical ∨ state = .emergency ∨ state = .full

@[simp] theorem toNat_max (a b : UInt64) : (max a b).toNat = max a.toNat b.toNat := by
  show (if a ≤ b then b else a).toNat = _
  split_ifs with h <;> rw [UInt64.le_iff_toNat_le] at h <;> omega

@[simp] theorem toNat_min (a b : UInt64) : (min a b).toNat = min a.toNat b.toNat := by
  show (if a ≤ b then a else b).toNat = _
  split_ifs with h <;> rw [UInt64.le_iff_toNat_le] at h <;> omega

/-- The state calls for a cleanup up to the greater of two thresholds. -/
theorem pressing_iff : Pressing (classifyStoragePressure capacity free policy) ↔ capacity ≠ 0 ∧
    free.toNat ≤ max (emergencyThreshold capacity policy).toNat (percentBytes capacity policy.criticalPercent).toNat := by
  simp only [classifyStoragePressure, Pressing, UInt64.le_iff_toNat_le, ← UInt64.toNat_inj, ne_eq, UInt64.toNat_zero]
  generalize (emergencyThreshold capacity policy).toNat = emergency
  generalize (percentBytes capacity policy.criticalPercent).toNat = critical
  split_ifs <;> simp only [or_true, or_false, true_iff, false_iff] <;> omega

/-! ### The target -/

/-- **The free space is the target, and no more than a threshold**: half of a card whose half is within the reserve, or a
reserve that is also the target. -/
def AtTarget (capacity free : UInt64) (policy : StoragePolicy) : Prop :=
  capacity ≠ 0 ∧ ((capacity / 2 ≤ policy.emergencyReserveBytes ∧ free = capacity / 2) ∨
    (policy.emergencyReserveBytes < capacity / 2 ∧ free = policy.emergencyReserveBytes ∧
      policy.cleanupTargetBytes = policy.emergencyReserveBytes ∧
      capacity.toNat * policy.cleanupTargetPercent.toNat / 100 ≤ policy.emergencyReserveBytes.toNat))

/-- **Under pressure the target is above what is free**, unless that is at the target. -/
theorem target_iff (h : Accepted policy) :
    (Pressing (classifyStoragePressure capacity free policy) → free < cleanupTargetFreeBytes capacity policy) ↔
      ¬ AtTarget capacity free policy := by
  have hexact := h.exact capacity
  have hemergency := (hexact policy.emergencyPercent (by simp [StoragePolicy.percents])).eq
  have hcritical := (hexact policy.criticalPercent (by simp [StoragePolicy.percents])).eq
  have htarget := (hexact policy.cleanupTargetPercent (by simp [StoragePolicy.percents])).eq
  obtain ⟨h1, h2, h3, h4, hreserve, hover, h5, h6⟩ := h
  -- the three percentages: in order, at most half, and a percent apart on a card of a hundred bytes
  have hlow : capacity.toNat * policy.emergencyPercent.toNat / 100 ≤ capacity.toNat * policy.criticalPercent.toNat / 100 :=
    Nat.div_le_div_right (Nat.mul_le_mul_left _ (by omega))
  have hhalf : capacity.toNat * policy.cleanupTargetPercent.toNat / 100 ≤ capacity.toNat / 2 := by
    have := Nat.mul_le_mul_left capacity.toNat (show policy.cleanupTargetPercent.toNat ≤ 50 by omega)
    omega
  have hapart : capacity.toNat * policy.criticalPercent.toNat + capacity.toNat ≤
      capacity.toNat * policy.cleanupTargetPercent.toNat := by
    rw [← Nat.mul_succ]
    exact Nat.mul_le_mul_left _ (by omega)
  simp only [pressing_iff, AtTarget, UInt64.lt_iff_toNat_lt, UInt64.le_iff_toNat_le, ← UInt64.toNat_inj, ne_eq,
    emergencyThreshold, cleanupTargetFreeBytes, toNat_max, toNat_min, UInt64.toNat_div, UInt64.toNat_zero,
    UInt64.reduceToNat, hemergency, hcritical, htarget]
  omega

/-- **Pressure and target agree** on a card: its percentages are exact, its state gets no worse with more free space,
and a state that calls for a cleanup has something to free. -/
structure Agree (capacity free : UInt64) (policy : StoragePolicy) : Prop where
  exact : ∀ percent ∈ policy.percents, Exact capacity percent
  antitone : ∀ free', free ≤ free' → free' ≤ capacity →
    severity (classifyStoragePressure capacity free' policy) ≤ severity (classifyStoragePressure capacity free policy)
  target : Pressing (classifyStoragePressure capacity free policy) → free < cleanupTargetFreeBytes capacity policy

theorem agree_iff (hvalid : (validateStoragePolicy policy).1 = true) :
    Agree capacity free policy ↔ ¬ AtTarget capacity free policy := by
  have haccepted := accepted_of_valid hvalid
  constructor
  · exact fun h => (target_iff haccepted).mp h.target
  · exact fun h => ⟨haccepted.exact capacity, fun _ hmore _ => severity_antitone hmore, (target_iff haccepted).mpr h⟩

/-- A card of 64 GiB with 6 GiB free. -/
theorem agree_large : Agree (64 * 1024 * 1024 * 1024) (6 * 1024 * 1024 * 1024) {} :=
  (agree_iff (by decide)).mpr (by unfold AtTarget; decide)

/-- **On a card of 1 GiB with half of it free** there is an emergency, and nothing is to be freed. -/
theorem disagree_small : ¬ ∀ capacity free policy, (validateStoragePolicy policy).1 = true → free ≤ capacity →
    Agree capacity free policy := by
  intro h
  have htarget := (h (1024 * 1024 * 1024) (512 * 1024 * 1024) {} (by decide) (by decide)).target (.inr (.inl (by decide)))
  exact absurd htarget (by decide)

/-! ### Segments -/

/-- What a segment is judged by. -/
structure SegmentMetadata where
  recordPath : Bytes := []
  firstSequence : UInt64 := 0
  lastSequence : UInt64 := 0
  lastUtcMs : UInt64 := 0
  payloadBytes : UInt64 := 0
  indexBytes : UInt64 := 0
  allTimesTrusted : Bool := false
  complete : Bool := false
  indexValid : Bool := false
  closed : Bool := false
  active : Bool := false
  cleanupActive : Bool := false
  minimumWindowProtected : Bool := false

inductive SegmentEligibility
  | eligibleAge | eligibleEmergency | active | incomplete | corruptOrMissingIndex | sequenceUnknown | unacknowledged
  | tooRecent | timeUntrusted | cleanupActive | minimumWindow
  deriving DecidableEq, Repr

structure RetentionContext where
  mode : RetentionMode := .disabled
  emergencyPressure : Bool := false
  acknowledgementVerified : Bool := false
  serverAckSequence : UInt64 := 0
  retentionCutoffUtcMs : UInt64 := 0
  minimumHistoryCutoffUtcMs : UInt64 := 0

structure CleanupPlan where
  candidateIndexes : List ℕ := []
  eligibleBytes : UInt64 := 0
  protectedUnacknowledgedBytes : UInt64 := 0
  protectedUntrustedBytes : UInt64 := 0
  expectedReclaimedBytes : UInt64 := 0

def segmentBytes (segment : SegmentMetadata) : UInt64 := segment.payloadBytes + segment.indexBytes

def segmentEligibility (segment : SegmentMetadata) (context : RetentionContext) : SegmentEligibility :=
  if segment.active || !segment.closed then .active
  else if segment.cleanupActive then .cleanupActive
  else if segment.minimumWindowProtected then .minimumWindow
  else if !segment.complete then .incomplete
  else if !segment.indexValid then .corruptOrMissingIndex
  else if segment.firstSequence = 0 ∨ segment.lastSequence < segment.firstSequence then .sequenceUnknown
  else if !context.acknowledgementVerified ∨ segment.lastSequence > context.serverAckSequence then .unacknowledged
  else if segment.allTimesTrusted ∧ segment.lastUtcMs ≠ 0 ∧ context.retentionCutoffUtcMs ≠ 0 ∧
      segment.lastUtcMs < context.retentionCutoffUtcMs then .eligibleAge
  else if context.mode ≠ .continuousProtected ∨ !context.emergencyPressure then
    if segment.allTimesTrusted then .tooRecent else .timeUntrusted
  else if segment.allTimesTrusted then
    if segment.lastUtcMs ≠ 0 ∧ context.minimumHistoryCutoffUtcMs ≠ 0 ∧
        segment.lastUtcMs < context.minimumHistoryCutoffUtcMs then .eligibleEmergency
    else .tooRecent
  else .eligibleEmergency

/-- The segment may be deleted, for its age or in an emergency. -/
def eligible (segment : SegmentMetadata) (context : RetentionContext) : Bool :=
  segmentEligibility segment context = .eligibleAge || segmentEligibility segment context = .eligibleEmergency

section

variable (segments : List SegmentMetadata) (context : RetentionContext)

def segmentAt (index : ℕ) : SegmentMetadata := segments.getD index {}

/-- One segment is counted. -/
def countSegment (state : CleanupPlan × List ℕ) (index : ℕ) : CleanupPlan × List ℕ :=
  let segment := segmentAt segments index
  let bytes := segmentBytes segment
  match segmentEligibility segment context with
  | .eligibleAge | .eligibleEmergency =>
    ({ state.1 with eligibleBytes := state.1.eligibleBytes + bytes }, state.2 ++ [index])
  | .unacknowledged =>
    ({ state.1 with protectedUnacknowledgedBytes := state.1.protectedUnacknowledgedBytes + bytes }, state.2)
  | .timeUntrusted => ({ state.1 with protectedUntrustedBytes := state.1.protectedUntrustedBytes + bytes }, state.2)
  | _ => state

/-- The order of two segments: the older one first. -/
def older (left right : ℕ) : Bool :=
  let a := segmentAt segments left
  let b := segmentAt segments right
  if a.firstSequence ≠ b.firstSequence then a.firstSequence < b.firstSequence else a.recordPath < b.recordPath

/-- Candidates are taken in order until enough is reclaimed; all of them if nothing is needed. -/
def takeCandidates (needed : UInt64) : List ℕ → CleanupPlan → CleanupPlan
  | [], plan => plan
  | index :: rest, plan =>
    if needed ≠ 0 ∧ plan.expectedReclaimedBytes ≥ needed then plan
    else takeCandidates needed rest { plan with
      candidateIndexes := plan.candidateIndexes ++ [index]
      expectedReclaimedBytes := plan.expectedReclaimedBytes + segmentBytes (segmentAt segments index) }

/-- The plan, with the library's sort. -/
def buildCleanupPlan (sort : (ℕ → ℕ → Bool) → List ℕ → List ℕ) (freeBytes targetFreeBytes : UInt64) : CleanupPlan :=
  let counted := (List.range segments.length).foldl (countSegment segments context) ({}, [])
  let ordered := sort (older segments) counted.2
  let needed := if targetFreeBytes > freeBytes then targetFreeBytes - freeBytes else 0
  if targetFreeBytes ≠ 0 ∧ needed = 0 then counted.1 else takeCandidates segments needed ordered counted.1

end

/-! ### The candidates -/

/-- A strict weak order. -/
structure StrictWeak {α : Type} (lt : α → α → Bool) : Prop where
  asymm : ∀ a b, lt a b = true → lt b a = false
  negTrans : ∀ a b c, lt a b = false → lt b c = false → lt a c = false

/-- **A sort**: nothing is lost, and nothing stands before what comes before it. -/
structure Sorts {α : Type} (sort : (α → α → Bool) → List α → List α) : Prop where
  perm : ∀ lt l, (sort lt l).Perm l
  ordered : ∀ lt l, StrictWeak lt → (sort lt l).Pairwise fun a b => lt b a = false

/-- The first of `order` whose sizes together reach what is needed, and no more of them; all of them if they do not. -/
structure Shortest {α : Type} (size : α → ℕ) (needed : ℕ) (order cs : List α) : Prop where
  initial : cs <+: order
  reaches : cs = order ∨ needed ≤ (cs.map size).sum
  shortest : ∀ ds, ds <+: cs → ds ≠ cs → (ds.map size).sum < needed

/-- What of a segment makes it safe to delete. -/
structure Deletable (segment : SegmentMetadata) (context : RetentionContext) : Prop where
  closed : segment.closed = true
  inactive : segment.active = false
  outside : segment.minimumWindowProtected = false
  complete : segment.complete = true
  indexValid : segment.indexValid = true
  verified : context.acknowledgementVerified = true
  acknowledged : segment.lastSequence ≤ context.serverAckSequence

variable {segments : List SegmentMetadata} {context : RetentionContext}

/-- **Only what may be deleted is eligible.** -/
theorem deletable_of_eligible {segment : SegmentMetadata} (h : eligible segment context = true) :
    Deletable segment context := by
  unfold eligible segmentEligibility at h
  by_cases h1 : (segment.active || !segment.closed) = true
  · simp [h1] at h
  by_cases h2 : segment.cleanupActive = true
  · simp [h1, h2] at h
  by_cases h3 : segment.minimumWindowProtected = true
  · simp [h1, h2, h3] at h
  by_cases h4 : segment.complete = true
  swap
  · simp [h1, h2, h3, h4] at h
  by_cases h5 : segment.indexValid = true
  swap
  · simp [h1, h2, h3, h4, h5] at h
  by_cases h6 : segment.firstSequence = 0 ∨ segment.lastSequence < segment.firstSequence
  · simp [h1, h2, h3, h4, h5, h6] at h
  by_cases h7 : context.acknowledgementVerified = false ∨ context.serverAckSequence < segment.lastSequence
  · simp [h1, h2, h3, h4, h5, h6, h7] at h
  simp only [Bool.or_eq_true, Bool.not_eq_true', not_or, Bool.not_eq_true, Bool.not_eq_false] at h1 h7
  exact ⟨h1.2, h1.1, Bool.eq_false_iff.mpr h3, h4, h5, h7.1, UInt64.not_lt.mp h7.2⟩

/-- The size of a segment on the card. -/
def size (segment : SegmentMetadata) : ℕ := segment.payloadBytes.toNat + segment.indexBytes.toNat

/-- The segments that may be deleted. -/
def eligibleIndexes (segments : List SegmentMetadata) (context : RetentionContext) : List ℕ :=
  (List.range segments.length).filter fun index => eligible (segmentAt segments index) context

theorem strictWeak_older (segments : List SegmentMetadata) : StrictWeak (older segments) where
  asymm := by
    intro a b h
    simp only [older] at h ⊢
    split_ifs at h ⊢ with h1 h2 h2
    · simp only [decide_eq_true_eq, decide_eq_false_iff_not, UInt64.not_lt] at h ⊢
      exact UInt64.le_of_lt h
    · exact absurd h1.symm h2
    · exact absurd h2.symm h1
    · simp only [decide_eq_true_eq, decide_eq_false_iff_not] at h ⊢
      exact List.lt_asymm h
  negTrans := by
    intro a b c hab hbc
    simp only [older, UInt64.lt_iff_toNat_lt, ← UInt64.toNat_inj, ne_eq] at hab hbc ⊢
    split_ifs at hab hbc ⊢
    all_goals simp only [decide_eq_false_iff_not, List.not_lt] at hab hbc ⊢
    -- two equal sequences and a third one are out of order only if the paths are
    all_goals first
      | omega
      | exact List.le_trans hbc hab

/-- One segment is counted: it is gathered if it is eligible. -/
theorem countSegment_step (state : CleanupPlan × List ℕ) (index : ℕ) :
    (countSegment segments context state index).2 =
        state.2 ++ (if eligible (segmentAt segments index) context then [index] else []) ∧
      (countSegment segments context state index).1.candidateIndexes = state.1.candidateIndexes ∧
      (countSegment segments context state index).1.expectedReclaimedBytes = state.1.expectedReclaimedBytes := by
  unfold countSegment eligible
  dsimp only
  split <;> simp_all

/-- **Counting** gathers what is eligible, and takes no candidates. -/
theorem countSegment_foldl (indexes : List ℕ) (state : CleanupPlan × List ℕ) :
    (indexes.foldl (countSegment segments context) state).2 =
        state.2 ++ indexes.filter (fun index => eligible (segmentAt segments index) context) ∧
      (indexes.foldl (countSegment segments context) state).1.candidateIndexes = state.1.candidateIndexes ∧
      (indexes.foldl (countSegment segments context) state).1.expectedReclaimedBytes = state.1.expectedReclaimedBytes := by
  induction indexes generalizing state with
  | nil => simp
  | cons index indexes ih =>
    obtain ⟨hindexes, hcandidates, hreclaimed⟩ := ih (countSegment segments context state index)
    obtain ⟨hgathered, hsame, hsum⟩ := @countSegment_step segments context state index
    rw [List.foldl_cons, hindexes, hcandidates, hreclaimed, hgathered, List.filter_cons]
    refine ⟨?_, hsame, hsum⟩
    split <;> simp

theorem sum_eligible_le : ((eligibleIndexes segments context).map fun i => size (segmentAt segments i)).sum ≤
    (segments.map size).sum := by
  have hall : (List.range segments.length).map (fun i => size (segmentAt segments i)) = segments.map size := by
    refine List.ext_getElem (by simp) fun i hi hi' => ?_
    simp only [List.length_map, List.length_range] at hi
    simp [segmentAt, hi]
  rw [← hall]
  exact (List.filter_sublist.map _).sum_le_sum fun _ _ => Nat.zero_le _

theorem toNat_segmentBytes {segment : SegmentMetadata} (h : size segment < 2 ^ 64) :
    (segmentBytes segment).toNat = size segment := by
  rw [segmentBytes, UInt64.toNat_add]
  exact Nat.mod_eq_of_lt h

/-- **The candidates that are taken** are the shortest initial part of what is left that reaches what is needed. -/
theorem takeCandidates_spec {needed : UInt64} (order : List ℕ) : ∀ {plan : CleanupPlan},
    plan.expectedReclaimedBytes.toNat + (order.map fun i => size (segmentAt segments i)).sum < 2 ^ 64 →
    ∃ cs, (takeCandidates segments needed order plan).candidateIndexes = plan.candidateIndexes ++ cs ∧
      (takeCandidates segments needed order plan).expectedReclaimedBytes.toNat =
        plan.expectedReclaimedBytes.toNat + (cs.map fun i => size (segmentAt segments i)).sum ∧
      (needed = 0 → cs = order) ∧
      (needed ≠ 0 → Shortest (fun i => size (segmentAt segments i))
        (needed.toNat - plan.expectedReclaimedBytes.toNat) order cs) := by
  induction order with
  | nil =>
    intro plan _
    refine ⟨[], by simp [takeCandidates], by simp [takeCandidates], fun _ => rfl, fun _ => ⟨List.prefix_rfl, .inl rfl, ?_⟩⟩
    exact fun ds hds hne => absurd (List.prefix_nil.mp hds) hne
  | cons index order ih =>
    intro plan hsum
    rw [List.map_cons, List.sum_cons] at hsum
    have hsize := @toNat_segmentBytes (segmentAt segments index) (by omega)
    unfold takeCandidates
    split_ifs with henough
    · obtain ⟨hneeded, henough⟩ := henough
      rw [ge_iff_le, UInt64.le_iff_toNat_le] at henough
      refine ⟨[], by simp, by simp, fun h => absurd h hneeded, fun _ => ⟨List.nil_prefix, .inr (by simp; omega), ?_⟩⟩
      exact fun ds hds hne => absurd (List.prefix_nil.mp hds) hne
    · have hnext : (plan.expectedReclaimedBytes + segmentBytes (segmentAt segments index)).toNat =
          plan.expectedReclaimedBytes.toNat + size (segmentAt segments index) := by
        rw [UInt64.toNat_add, hsize]
        exact Nat.mod_eq_of_lt (by omega)
      obtain ⟨cs, hcandidates, hreclaimed, hall, hshortest⟩ := @ih { plan with
        candidateIndexes := plan.candidateIndexes ++ [index]
        expectedReclaimedBytes := plan.expectedReclaimedBytes + segmentBytes (segmentAt segments index) }
        (by simp only [hnext]; omega)
      simp only [hnext] at hreclaimed hshortest
      refine ⟨index :: cs, by simp [hcandidates], by simp [hreclaimed]; omega, fun h => by rw [hall h], fun h => ?_⟩
      have hless : plan.expectedReclaimedBytes.toNat < needed.toNat := by
        by_contra hmore
        exact henough ⟨h, UInt64.le_iff_toNat_le.mpr (Nat.not_lt.mp hmore)⟩
      obtain ⟨hinitial, hreaches, hminimal⟩ := hshortest h
      refine ⟨List.cons_prefix_cons.mpr ⟨rfl, hinitial⟩, hreaches.imp (by rintro rfl; rfl) fun hr => ?_, fun ds hds hne => ?_⟩
      · simp only [List.map_cons, List.sum_cons]
        omega
      · cases ds with
        | nil => simp only [List.map_nil, List.sum_nil]; omega
        | cons d ds =>
          obtain ⟨rfl, hrest⟩ := List.cons_prefix_cons.mp hds
          have hpart := hminimal ds hrest fun heq => hne (by rw [heq])
          simp only [List.map_cons, List.sum_cons]
          omega

/-- **A plan deletes the oldest first, no more than is needed and only what is allowed.** -/
structure OldestFirst (segments : List SegmentMetadata) (context : RetentionContext) (free target : UInt64)
    (plan : CleanupPlan) : Prop where
  distinct : plan.candidateIndexes.Nodup
  shortest : ∃ order, order.Perm (eligibleIndexes segments context) ∧
    (order.Pairwise fun a b => older segments b a = false) ∧
    (target = 0 → plan.candidateIndexes = order) ∧
    (target ≠ 0 → Shortest (fun i => size (segmentAt segments i)) (target.toNat - free.toNat) order plan.candidateIndexes)
  reclaimed : plan.expectedReclaimedBytes.toNat = (plan.candidateIndexes.map fun i => size (segmentAt segments i)).sum
  allowed : ∀ i ∈ plan.candidateIndexes, ∃ segment ∈ segments[i]?, eligible segment context = true ∧
    Deletable segment context

theorem allowed_of_mem {i : ℕ} (h : i ∈ eligibleIndexes segments context) :
    ∃ segment ∈ segments[i]?, eligible segment context = true ∧ Deletable segment context := by
  obtain ⟨hlt, heligible⟩ := List.mem_filter.mp h
  rw [List.mem_range] at hlt
  have hsome : segments[i]? = some (segmentAt segments i) := by simp [segmentAt, hlt]
  exact ⟨_, hsome, heligible, deletable_of_eligible heligible⟩

theorem buildCleanupPlan_oldestFirst {sort : (ℕ → ℕ → Bool) → List ℕ → List ℕ} (hsort : Sorts sort)
    (free target : UInt64) (hsum : (segments.map size).sum < 2 ^ 64) :
    OldestFirst segments context free target (buildCleanupPlan segments context sort free target) := by
  obtain ⟨hindexes, hcandidates, hreclaimed⟩ := @countSegment_foldl segments context
    (List.range segments.length) ({}, [])
  rw [List.nil_append, ← eligibleIndexes] at hindexes
  unfold buildCleanupPlan
  dsimp only
  generalize (List.range segments.length).foldl (countSegment segments context) ({}, []) = counted at *
  rw [hindexes]
  have hperm := hsort.perm (older segments) (eligibleIndexes segments context)
  have hordered := hsort.ordered _ (eligibleIndexes segments context) (strictWeak_older segments)
  generalize sort (older segments) (eligibleIndexes segments context) = order at hperm hordered
  have hnodup : order.Nodup := hperm.nodup_iff.mpr (List.nodup_range.filter _)
  have hneeded : (if target > free then target - free else 0).toNat = target.toNat - free.toNat := by
    split_ifs with hmore
    · exact UInt64.toNat_sub_of_le _ _ (UInt64.le_of_lt hmore)
    · rw [gt_iff_lt, UInt64.lt_iff_toNat_lt] at hmore
      rw [UInt64.toNat_zero]
      omega
  generalize (if target > free then target - free else 0) = needed at hneeded
  split_ifs with hnothing
  · obtain ⟨htarget, hzero⟩ := hnothing
    rw [hzero] at hneeded
    refine ⟨?_, ⟨order, hperm, hordered, fun h => absurd h htarget, fun _ => ?_⟩, ?_, ?_⟩
    · simp [hcandidates]
    · rw [hcandidates, ← hneeded]
      exact ⟨List.nil_prefix, .inr (Nat.zero_le _), fun ds hds hne => absurd (List.prefix_nil.mp hds) hne⟩
    · simp [hcandidates, hreclaimed]
    · simp [hcandidates]
  · have hbound : counted.1.expectedReclaimedBytes.toNat + (order.map fun i => size (segmentAt segments i)).sum < 2 ^ 64 := by
      rw [hreclaimed, (hperm.map _).sum_eq]
      exact Nat.lt_of_le_of_lt (by simpa using sum_eligible_le) hsum
    obtain ⟨cs, hcs, hexpected, hall, hshortest⟩ := @takeCandidates_spec segments needed order _ hbound
    rw [hcandidates, List.nil_append] at hcs
    rw [hreclaimed] at hexpected hshortest
    have hinitial : cs <+: order := by
      by_cases hzero : needed = 0
      · exact hall hzero ▸ List.prefix_rfl
      · exact (hshortest hzero).initial
    refine ⟨?_, ⟨order, hperm, hordered, fun h => ?_, fun h => ?_⟩, ?_, ?_⟩
    · rw [hcs]
      exact hnodup.sublist hinitial.sublist
    · rw [hcs]
      refine hall (UInt64.toNat_inj.mp ?_)
      rw [hneeded, h]
      simp
    · rw [hcs, ← hneeded]
      exact hshortest fun hzero => hnothing ⟨h, hzero⟩
    · rw [hcs, hexpected]
      simp
    · rw [hcs]
      exact fun i hi => allowed_of_mem (hperm.subset (hinitial.subset hi))

/-! ### A plan -/

/-- A segment that is synced and whole. -/
def synced (path : String) (firstSequence lastSequence lastUtcMs : UInt64) : SegmentMetadata where
  recordPath := ascii path
  firstSequence := firstSequence
  lastSequence := lastSequence
  lastUtcMs := lastUtcMs
  payloadBytes := 1000
  indexBytes := 100
  allTimesTrusted := true
  complete := true
  indexValid := true
  closed := true

/-- The library's sort, by insertion. -/
def insertionSort {α : Type} (lt : α → α → Bool) (l : List α) : List α := l.insertionSort fun a b => lt b a = false

theorem sorts_insertionSort {α : Type} : Sorts (insertionSort (α := α)) where
  perm := fun lt l => List.perm_insertionSort _ l
  ordered := by
    intro lt l h
    have htotal : Std.Total fun a b : α => lt b a = false := ⟨fun a b => by
      cases hba : lt b a with
      | false => exact .inl rfl
      | true => exact .inr (h.asymm b a hba)⟩
    have htrans : IsTrans α fun a b => lt b a = false := ⟨fun a b c hab hbc => h.negTrans c b a hbc hab⟩
    exact List.pairwise_insertionSort _ l

def acknowledged : RetentionContext where
  mode := .continuousProtected
  emergencyPressure := true
  acknowledgementVerified := true
  serverAckSequence := 20
  retentionCutoffUtcMs := 500
  minimumHistoryCutoffUtcMs := 900

/-- Of three segments, the two older ones go; the third is not acknowledged. -/
theorem buildCleanupPlan_oldestFirst_of_three :
    let segments := [synced "b" 11 20 600, synced "c" 21 30 700, synced "a" 1 10 400]
    OldestFirst segments acknowledged 0 2000 (buildCleanupPlan segments acknowledged insertionSort 0 2000) ∧
      (buildCleanupPlan segments acknowledged insertionSort 0 2000).candidateIndexes = [2, 0] :=
  ⟨buildCleanupPlan_oldestFirst sorts_insertionSort 0 2000 (by decide), by decide +kernel⟩

end PowerMonitor.Storage.Retention
