import Mathlib.Data.List.Induction
import Mathlib.Data.UInt
import Mathlib.Tactic.Common
import Mathlib.Tactic.SplitIfs

/-! # The policy for low memory

One sample a second of the free internal memory moves the policy between five states. The states of pressure are
left after three safe samples; the counter of the safe samples outlives a hard fault and an emergency, which lead to
a worse state, and a minimum of `0` bytes counts as no minimum.

* `step_next`: what a sample does to the state and to the counter of safe samples, class by class.
* `pressure_recovery`: while no fault and no emergency meets a running count, and no other reading follows one of `0` bytes,
  pressure is left after three safe samples in a row, and the reported minimum is the least reading. -/

namespace PowerMonitor.Core.MemoryPressurePolicy

inductive MemoryOperationContext
  | idle
  | tlsPreparing
  | tlsActive
  | otaActive
  | heavyLocalUi
  | diagnosticsActive
  | storageMaintenance
  deriving DecidableEq, Repr

def isExpectedHighMemoryContext (context : MemoryOperationContext) : Bool :=
  context = .tlsPreparing || context = .tlsActive || context = .otaActive

inductive MemoryPressureState
  | normal
  | pressureWarning
  | fragmented
  | lowTotalMemory
  | recovering
  deriving DecidableEq, Repr

def kMemoryNormalFreeInternalBytes : UInt32 := 68 * 1024
def kMemoryNormalLargestInternalBlockBytes : UInt32 := 32 * 1024
def kMemoryFragmentationFreeInternalBytes : UInt32 := 64 * 1024
def kMemoryLowTotalBytes : UInt32 := 56 * 1024
def kMemoryEmergencyFreeInternalBytes : UInt32 := 32 * 1024
def kTlsMinimumFreeInternalBytes : UInt32 := 64 * 1024
def kTlsMinimumLargestInternalBlockBytes : UInt32 := 32 * 1024
def kMemoryPostOperationGraceMs : UInt64 := 3000
def kMemoryLowSamplesRequired : UInt8 := 3
def kMemorySafeSamplesRequired : UInt8 := 3

def memoryTlsReady (freeInternal largestInternal : UInt32) (integrityOk : Bool) : Bool :=
  integrityOk && decide (kTlsMinimumFreeInternalBytes ≤ freeInternal) &&
    decide (kTlsMinimumLargestInternalBlockBytes ≤ largestInternal)

/-- The arguments of a call of `update`. -/
structure Call where
  freeInternal : UInt32
  largestInternal : UInt32
  nowMs : UInt64
  context : MemoryOperationContext := .idle
  integrityOk : Bool := true
  lastOperationCompletedMs : UInt64 := 0
  criticalAllocationFailed : Bool := false
  deriving DecidableEq, Repr

structure MemoryPressureUpdate where
  previous : MemoryPressureState
  current : MemoryPressureState
  changed : Bool
  deriving DecidableEq, Repr

/-- What the policy remembers. -/
structure Policy where
  state : MemoryPressureState := .normal
  operationContext : MemoryOperationContext := .idle
  stateSinceMs : UInt64 := 0
  transitions : UInt32 := 0
  entryCount : UInt32 := 0
  recoveryCount : UInt32 := 0
  pressureEpisodeStartedMs : UInt64 := 0
  cumulativePressureMs : UInt64 := 0
  longestPressureEpisodeMs : UInt64 := 0
  lowestFreeInternalBytes : UInt32 := 0
  lowestLargestInternalBlockBytes : UInt32 := 0
  fragmentationEntryCount : UInt32 := 0
  fragmentationRecoveryCount : UInt32 := 0
  fragmentationEpisodeStartedMs : UInt64 := 0
  longestFragmentationEpisodeMs : UInt64 := 0
  freeInternalAtFragmentationEntryBytes : UInt32 := 0
  tlsTransientMinimumFreeInternalBytes : UInt32 := 0
  otaTransientMinimumFreeInternalBytes : UInt32 := 0
  lowSamples : UInt8 := 0
  safeSamples : UInt8 := 0
  tlsReady : Bool := false
  heapIntegrityOk : Bool := true
  deriving DecidableEq, Repr

def increment (value : UInt8) : UInt8 := if value = 255 then value else value + 1

def recordMinimum (minimum value : UInt32) : UInt32 := if minimum = 0 ∨ value < minimum then value else minimum

/-- A time that marks a start, where `0` marks none. -/
def startMark (nowMs : UInt64) : UInt64 := if nowMs = 0 then 1 else nowMs

namespace Policy

def updateFragmentationEpisode (p : Policy) (fragmented : Bool) (freeInternal : UInt32) (nowMs : UInt64) : Policy :=
  if fragmented ∧ p.fragmentationEpisodeStartedMs = 0 then
    { p with
      fragmentationEpisodeStartedMs := startMark nowMs
      freeInternalAtFragmentationEntryBytes := freeInternal
      fragmentationEntryCount := p.fragmentationEntryCount + 1 }
  else if !fragmented ∧ p.fragmentationEpisodeStartedMs ≠ 0 then
    let duration :=
      if p.fragmentationEpisodeStartedMs ≤ nowMs then nowMs - p.fragmentationEpisodeStartedMs else 0
    { p with
      longestFragmentationEpisodeMs :=
        if p.longestFragmentationEpisodeMs < duration then duration else p.longestFragmentationEpisodeMs
      fragmentationEpisodeStartedMs := 0
      fragmentationRecoveryCount := p.fragmentationRecoveryCount + 1 }
  else p

/-- The end of an episode of pressure. -/
def endEpisode (p : Policy) (nowMs : UInt64) : Policy :=
  let duration := nowMs - p.pressureEpisodeStartedMs
  if p.pressureEpisodeStartedMs ≠ 0 ∧ p.pressureEpisodeStartedMs ≤ nowMs then
    { p with
      cumulativePressureMs := p.cumulativePressureMs + duration
      longestPressureEpisodeMs :=
        if p.longestPressureEpisodeMs < duration then duration else p.longestPressureEpisodeMs
      pressureEpisodeStartedMs := 0
      recoveryCount := p.recoveryCount + 1 }
  else { p with pressureEpisodeStartedMs := 0, recoveryCount := p.recoveryCount + 1 }

def transition (p : Policy) (next : MemoryPressureState) (nowMs : UInt64) : Policy :=
  if next = p.state then p
  else
    let started :=
      if p.state = .normal ∧ next ≠ .normal then { p with pressureEpisodeStartedMs := startMark nowMs } else p
    let entered :=
      if next = .lowTotalMemory ∧ p.state ≠ .lowTotalMemory then
        { started with entryCount := started.entryCount + 1 }
      else started
    let ended := if next = .normal ∧ p.state ≠ .normal then entered.endEpisode nowMs else entered
    { ended with
      state := next
      stateSinceMs := nowMs
      transitions := ended.transitions + 1
      lowSamples := if next = .lowTotalMemory then 0 else ended.lowSamples
      safeSamples := if next = .recovering ∨ next = .normal then 0 else ended.safeSamples }

/-- What every call notes of its arguments. -/
def observe (p : Policy) (c : Call) : Policy :=
  { p with
    operationContext := c.context
    heapIntegrityOk := c.integrityOk
    tlsReady := memoryTlsReady c.freeInternal c.largestInternal c.integrityOk
    lowestFreeInternalBytes := recordMinimum p.lowestFreeInternalBytes c.freeInternal
    lowestLargestInternalBlockBytes := recordMinimum p.lowestLargestInternalBlockBytes c.largestInternal }

/-- The transient minimum of the operation that is running. -/
def recordTransient (p : Policy) (c : Call) : Policy :=
  if c.context = .otaActive then
    { p with
      otaTransientMinimumFreeInternalBytes := recordMinimum p.otaTransientMinimumFreeInternalBytes c.freeInternal }
  else
    { p with
      tlsTransientMinimumFreeInternalBytes := recordMinimum p.tlsTransientMinimumFreeInternalBytes c.freeInternal }

def withdrawCounts (p : Policy) : Policy := { p with lowSamples := 0, safeSamples := 0 }

/-- A hard fault, and an emergency. -/
def enterLowTotal (p : Policy) (c : Call) : Policy :=
  (p.updateFragmentationEpisode false c.freeInternal c.nowMs).transition .lowTotalMemory c.nowMs

end Policy

def Call.hardFault (c : Call) : Bool := !c.integrityOk || c.criticalAllocationFailed

def Call.inPostOperationGrace (c : Call) : Bool :=
  c.lastOperationCompletedMs ≠ 0 && decide (c.lastOperationCompletedMs ≤ c.nowMs) &&
    decide (c.nowMs - c.lastOperationCompletedMs < kMemoryPostOperationGraceMs)

def Call.emergency (c : Call) : Bool := decide (c.freeInternal < kMemoryEmergencyFreeInternalBytes)

def Call.fragmented (c : Call) : Bool :=
  decide (kMemoryFragmentationFreeInternalBytes ≤ c.freeInternal) &&
    decide (c.largestInternal < kMemoryNormalLargestInternalBlockBytes)

def Call.lowTotal (c : Call) : Bool := decide (c.freeInternal < kMemoryLowTotalBytes)

def Call.safe (c : Call) : Bool :=
  decide (kMemoryNormalFreeInternalBytes ≤ c.freeInternal) &&
    decide (kMemoryNormalLargestInternalBlockBytes ≤ c.largestInternal)

namespace Policy

/-- The fragmentation episode and the two counters after a sample that is classified. -/
def count (p : Policy) (c : Call) : Policy :=
  let episode := p.updateFragmentationEpisode c.fragmented c.freeInternal c.nowMs
  { episode with
    lowSamples := if c.lowTotal then increment episode.lowSamples else 0
    safeSamples := if c.safe then increment episode.safeSamples else 0 }

/-- The state after a sample that is classified. -/
def classify (p : Policy) (c : Call) : Policy :=
  if c.lowTotal then
    if p.state = .lowTotalMemory ∨ kMemoryLowSamplesRequired ≤ p.lowSamples then p.transition .lowTotalMemory c.nowMs
    else p.transition .pressureWarning c.nowMs
  else if c.fragmented then p.transition .fragmented c.nowMs
  else if c.safe then
    match p.state with
    | .normal => p
    | .pressureWarning | .recovering =>
      if kMemorySafeSamplesRequired ≤ p.safeSamples then p.transition .normal c.nowMs else p
    | .fragmented | .lowTotalMemory =>
      if kMemorySafeSamplesRequired ≤ p.safeSamples then p.transition .recovering c.nowMs else p
  else p.transition (if p.state = .lowTotalMemory then .recovering else .pressureWarning) c.nowMs

/-- The policy after a call. -/
def next (p : Policy) (c : Call) : Policy :=
  let seen := p.observe c
  if c.hardFault then seen.enterLowTotal c
  else if isExpectedHighMemoryContext c.context then (seen.recordTransient c).withdrawCounts
  else if c.inPostOperationGrace then seen.withdrawCounts
  else if c.emergency then seen.enterLowTotal c
  else (seen.count c).classify c

def update (p : Policy) (c : Call) : Policy × MemoryPressureUpdate :=
  (p.next c, { previous := p.state, current := (p.next c).state, changed := decide (p.state ≠ (p.next c).state) })

end Policy

/-! ### What is reported -/

structure MemoryPressureMetrics where
  state : MemoryPressureState
  operationContext : MemoryOperationContext
  stateSinceMs : UInt64
  cumulativePressureMs : UInt64
  longestPressureEpisodeMs : UInt64
  entryCount : UInt32
  recoveryCount : UInt32
  transitionCount : UInt32
  lowestFreeInternalBytes : UInt32
  lowestLargestInternalBlockBytes : UInt32
  fragmentationEntryCount : UInt32
  fragmentationRecoveryCount : UInt32
  currentFragmentationEpisodeMs : UInt64
  longestFragmentationEpisodeMs : UInt64
  freeInternalAtFragmentationEntryBytes : UInt32
  tlsTransientMinimumFreeInternalBytes : UInt32
  otaTransientMinimumFreeInternalBytes : UInt32
  tlsReady : Bool
  heapIntegrityOk : Bool
  deriving DecidableEq, Repr

/-- The figures of the policy, with the episodes that are running. -/
def Policy.metrics (p : Policy) (nowMs : UInt64) : MemoryPressureMetrics :=
  let active :=
    if p.pressureEpisodeStartedMs ≠ 0 ∧ p.pressureEpisodeStartedMs ≤ nowMs then nowMs - p.pressureEpisodeStartedMs
    else 0
  let currentFragmentation :=
    if p.fragmentationEpisodeStartedMs ≠ 0 ∧ p.fragmentationEpisodeStartedMs ≤ nowMs then
      nowMs - p.fragmentationEpisodeStartedMs
    else 0
  { state := p.state
    operationContext := p.operationContext
    stateSinceMs := p.stateSinceMs
    cumulativePressureMs := p.cumulativePressureMs + active
    longestPressureEpisodeMs :=
      if p.longestPressureEpisodeMs < active then active else p.longestPressureEpisodeMs
    entryCount := p.entryCount
    recoveryCount := p.recoveryCount
    transitionCount := p.transitions
    lowestFreeInternalBytes := p.lowestFreeInternalBytes
    lowestLargestInternalBlockBytes := p.lowestLargestInternalBlockBytes
    fragmentationEntryCount := p.fragmentationEntryCount
    fragmentationRecoveryCount := p.fragmentationRecoveryCount
    currentFragmentationEpisodeMs := currentFragmentation
    longestFragmentationEpisodeMs :=
      if p.longestFragmentationEpisodeMs < currentFragmentation then currentFragmentation
      else p.longestFragmentationEpisodeMs
    freeInternalAtFragmentationEntryBytes := p.freeInternalAtFragmentationEntryBytes
    tlsTransientMinimumFreeInternalBytes := p.tlsTransientMinimumFreeInternalBytes
    otaTransientMinimumFreeInternalBytes := p.otaTransientMinimumFreeInternalBytes
    tlsReady := p.tlsReady
    heapIntegrityOk := p.heapIntegrityOk }

variable {p : Policy} {c : Call} {calls : List Call} {s : MemoryPressureState} {t : UInt64}

/-! ### What the parts of a call leave -/

namespace Policy

@[simp] theorem updateFragmentationEpisode_state (b : Bool) (f : UInt32) :
    (p.updateFragmentationEpisode b f t).state = p.state := by
  unfold updateFragmentationEpisode
  split_ifs <;> rfl

@[simp] theorem updateFragmentationEpisode_safeSamples (b : Bool) (f : UInt32) :
    (p.updateFragmentationEpisode b f t).safeSamples = p.safeSamples := by
  unfold updateFragmentationEpisode
  split_ifs <;> rfl

@[simp] theorem updateFragmentationEpisode_lowest (b : Bool) (f : UInt32) :
    (p.updateFragmentationEpisode b f t).lowestFreeInternalBytes = p.lowestFreeInternalBytes := by
  unfold updateFragmentationEpisode
  split_ifs <;> rfl

@[simp] theorem endEpisode_safeSamples : (p.endEpisode t).safeSamples = p.safeSamples := by
  unfold endEpisode
  simp only
  split_ifs <;> rfl

@[simp] theorem endEpisode_lowest : (p.endEpisode t).lowestFreeInternalBytes = p.lowestFreeInternalBytes := by
  unfold endEpisode
  simp only
  split_ifs <;> rfl

@[simp] theorem transition_state : (p.transition s t).state = s := by
  unfold transition
  split_ifs with h
  · exact h.symm
  all_goals rfl

@[simp] theorem transition_lowest : (p.transition s t).lowestFreeInternalBytes = p.lowestFreeInternalBytes := by
  unfold transition
  simp only
  split_ifs <;> simp

/-- A change withdraws the safe samples if it leads out of pressure. -/
theorem transition_safeSamples :
    (p.transition s t).safeSamples = if s ≠ p.state ∧ (s = .recovering ∨ s = .normal) then 0 else p.safeSamples := by
  unfold transition
  by_cases hs : s = p.state
  · simp [hs]
  · simp only [hs, if_false, ne_eq, not_false_eq_true, true_and]
    split_ifs <;> simp

@[simp] theorem enterLowTotal_state : (p.enterLowTotal c).state = .lowTotalMemory := transition_state

@[simp] theorem enterLowTotal_safeSamples : (p.enterLowTotal c).safeSamples = p.safeSamples := by
  simp [enterLowTotal, transition_safeSamples]

@[simp] theorem recordTransient_state : (p.recordTransient c).state = p.state := by
  unfold recordTransient
  split_ifs <;> rfl

@[simp] theorem recordTransient_lowest :
    (p.recordTransient c).lowestFreeInternalBytes = p.lowestFreeInternalBytes := by
  unfold recordTransient
  split_ifs <;> rfl

@[simp] theorem count_state : (p.count c).state = p.state := updateFragmentationEpisode_state _ _

@[simp] theorem count_safeSamples :
    (p.count c).safeSamples = if c.safe then increment p.safeSamples else 0 := by
  simp [count]

@[simp] theorem count_lowest : (p.count c).lowestFreeInternalBytes = p.lowestFreeInternalBytes :=
  updateFragmentationEpisode_lowest _ _

@[simp] theorem classify_lowest : (p.classify c).lowestFreeInternalBytes = p.lowestFreeInternalBytes := by
  unfold classify
  split_ifs <;> try simp
  all_goals cases p.state <;> simp

/-- **Every call notes its reading.** -/
theorem next_lowest (p : Policy) (c : Call) :
    (p.next c).lowestFreeInternalBytes = recordMinimum p.lowestFreeInternalBytes c.freeInternal := by
  unfold next
  simp only
  split_ifs <;> simp [enterLowTotal, withdrawCounts, observe]

end Policy

/-! ### The classes of samples -/

inductive Class
  | hardFault
  | highMemory
  | grace
  | emergency
  | lowTotal
  | fragmented
  | safe
  | between
  deriving DecidableEq, Repr

/-- The class of a sample; the first that applies. -/
def Call.kind (c : Call) : Class :=
  if c.hardFault then .hardFault
  else if isExpectedHighMemoryContext c.context then .highMemory
  else if c.inPostOperationGrace then .grace
  else if c.emergency then .emergency
  else if c.lowTotal then .lowTotal
  else if c.fragmented then .fragmented
  else if c.safe then .safe
  else .between

/-- Safe readings are neither low nor fragmented. -/
theorem Call.not_low_of_safe (h : c.safe = true) : c.lowTotal = false ∧ c.fragmented = false := by
  simp only [Call.safe, Call.lowTotal, Call.fragmented, Bool.and_eq_true, decide_eq_true_eq, decide_eq_false_iff_not,
    Bool.and_eq_false_iff, kMemoryNormalFreeInternalBytes, kMemoryNormalLargestInternalBlockBytes,
    kMemoryLowTotalBytes, UInt32.le_iff_toNat_le, UInt32.lt_iff_toNat_lt] at h ⊢
  constructor
  · have h68 : (68 * 1024 : UInt32).toNat = 69632 := rfl
    have h56 : (56 * 1024 : UInt32).toNat = 57344 := rfl
    omega
  · exact Or.inr (by omega)

theorem Call.settled_of_safe (h : c.safe = true) :
    ¬ (c.kind = .lowTotal ∨ c.kind = .fragmented ∨ c.kind = .between) := by
  obtain ⟨hlow, hfragmented⟩ := Call.not_low_of_safe h
  unfold Call.kind
  simp only [hlow, hfragmented, h, Bool.false_eq_true, if_false, if_true]
  split_ifs <;> simp

/-- **What a sample does to the state and to the counter of safe samples.** -/
inductive Step (p q : Policy) : Class → Prop
  | fault {k} : k = .hardFault ∨ k = .emergency → q.state = .lowTotalMemory → q.safeSamples = p.safeSamples → Step p q k
  | exempt {k} : k = .highMemory ∨ k = .grace → q.state = p.state → q.safeSamples = 0 → Step p q k
  | unsettled {k} : k = .lowTotal ∨ k = .fragmented ∨ k = .between → q.safeSamples = 0 → Step p q k
  | normal : p.state = .normal → q.state = .normal → Step p q .safe
  | counted : p.state ≠ .normal → q.state = p.state → q.safeSamples = increment p.safeSamples → Step p q .safe
  | leaves : p.state ≠ .normal → q.state ≠ p.state → kMemorySafeSamplesRequired ≤ increment p.safeSamples →
      q.safeSamples = 0 → Step p q .safe

theorem step_next (p : Policy) (c : Call) : Step p (p.next c) c.kind := by
  unfold Policy.next Call.kind
  simp only
  split_ifs with hfault hmemory hgrace hemergency hlow hfragmented hsafe
  · exact .fault (Or.inl rfl) Policy.enterLowTotal_state Policy.enterLowTotal_safeSamples
  · exact .exempt (Or.inl rfl) Policy.recordTransient_state rfl
  · exact .exempt (Or.inr rfl) rfl rfl
  · exact .fault (Or.inr rfl) Policy.enterLowTotal_state Policy.enterLowTotal_safeSamples
  all_goals generalize hq : p.observe c = q
  all_goals
    have hstate : p.state = q.state := by rw [← hq]; rfl
    have hcount : p.safeSamples = q.safeSamples := by rw [← hq]; rfl
  · have hunsafe : c.safe = false := by
      by_contra h
      exact absurd hlow (by simp [Call.not_low_of_safe (Bool.of_not_eq_false h)])
    refine .unsettled (Or.inl rfl) ?_
    unfold Policy.classify
    rw [if_pos hlow]
    split_ifs <;> simp [Policy.transition_safeSamples, hunsafe]
  · have hunsafe : c.safe = false := by
      by_contra h
      exact absurd hfragmented (by simp [Call.not_low_of_safe (Bool.of_not_eq_false h)])
    refine .unsettled (Or.inr (Or.inl rfl)) ?_
    unfold Policy.classify
    rw [if_neg hlow, if_pos hfragmented]
    simp [Policy.transition_safeSamples, hunsafe]
  · unfold Policy.classify
    rw [if_neg hlow, if_neg hfragmented, if_pos hsafe]
    simp only [Policy.count_state, Policy.count_safeSamples, hsafe, if_true, ← hcount]
    cases hs : q.state with
    | normal => exact .normal (hstate.trans hs) (by simpa using hs)
    | pressureWarning | recovering =>
      simp only
      split_ifs with hthree
      · refine .leaves ?_ ?_ hthree ?_ <;> simp [hstate, hs, Policy.transition_safeSamples]
      · refine .counted ?_ ?_ ?_ <;> simp [hstate, hs, hsafe, hcount]
    | fragmented | lowTotalMemory =>
      simp only
      split_ifs with hthree
      · refine .leaves ?_ ?_ hthree ?_ <;> simp [hstate, hs, Policy.transition_safeSamples]
      · refine .counted ?_ ?_ ?_ <;> simp [hstate, hs, hsafe, hcount]
  · refine .unsettled (Or.inr (Or.inr rfl)) ?_
    unfold Policy.classify
    rw [if_neg hlow, if_neg hfragmented, if_neg hsafe]
    simp [Policy.transition_safeSamples, hsafe]

/-! ### Runs -/

/-- The policy after some calls. -/
def run (calls : List Call) : Policy := calls.foldl (fun p c => (p.update c).1) {}

theorem run_snoc (calls : List Call) (c : Call) : run (calls ++ [c]) = (run calls).next c := by
  simp [run, Policy.update]

/-- `P` holds of every call, with the calls before it. -/
def EveryCall (P : List Call → Call → Prop) (calls : List Call) : Prop :=
  ∀ n, ∀ h : n < calls.length, P (calls.take n) calls[n]

theorem everyCall_snoc {P : List Call → Call → Prop} : EveryCall P (calls ++ [c]) ↔ EveryCall P calls ∧ P calls c := by
  constructor
  · refine fun h => ⟨fun n hn => ?_, ?_⟩
    · have hcall := h n (by rw [List.length_append]; omega)
      rwa [List.take_append_of_le_length (by omega), List.getElem_append_left hn] at hcall
    · have hcall := h calls.length (by simp)
      rwa [List.take_left, List.getElem_concat_length rfl] at hcall
  · rintro ⟨hcalls, hlast⟩ n hn
    rw [List.length_append, List.length_singleton] at hn
    by_cases hlt : n < calls.length
    · rw [List.take_append_of_le_length (by omega), List.getElem_append_left hlt]
      exact hcalls n hlt
    · obtain rfl : n = calls.length := by omega
      rwa [List.take_left, List.getElem_concat_length rfl]

theorem EveryCall.imp {P Q : List Call → Call → Prop} (h : EveryCall P calls)
    (himp : ∀ earlier c, EveryCall P (earlier ++ [c]) → Q earlier c) : EveryCall Q calls := by
  induction calls using List.reverseRecOn with
  | nil => exact fun n hn => absurd hn (by simp)
  | append_singleton calls c ih => exact everyCall_snoc.mpr ⟨ih (everyCall_snoc.mp h).1, himp calls c h⟩

instance (P : List Call → Call → Prop) [∀ earlier c, Decidable (P earlier c)] (calls : List Call) :
    Decidable (EveryCall P calls) :=
  inferInstanceAs (Decidable (∀ n, ∀ h : n < calls.length, P (calls.take n) calls[n]))

/-- The times of the calls do not decrease. -/
def Timed (calls : List Call) : Prop := calls.Pairwise fun a b => a.nowMs ≤ b.nowMs

instance (calls : List Call) : Decidable (Timed calls) :=
  inferInstanceAs (Decidable (calls.Pairwise fun a b => a.nowMs ≤ b.nowMs))

/-- Readings that are safe move the policy out of a state of pressure, to `recovering` or `normal`. -/
def LeavesPressure (earlier : List Call) (c : Call) : Prop :=
  c.safe = true ∧ ((run earlier).update c).2.previous ≠ .normal ∧ ((run earlier).update c).2.changed = true ∧
    (((run earlier).update c).2.current = .recovering ∨ ((run earlier).update c).2.current = .normal)

/-- The call and the two before it are safe samples, and none of them was taken in the normal state. -/
def ThreeSafe (calls : List Call) (c : Call) : Prop :=
  ∃ earlier a b, calls = earlier ++ [a, b] ∧ a.kind = .safe ∧ b.kind = .safe ∧ c.kind = .safe ∧
    (run earlier).state ≠ .normal ∧ (run (earlier ++ [a])).state ≠ .normal ∧ (run calls).state ≠ .normal

/-- The reported minimum after the call is the least of all readings. -/
def ReportsLeast (earlier : List Call) (c : Call) : Prop :=
  ∀ nowMs, ((run (earlier ++ [c])).metrics nowMs).lowestFreeInternalBytes ∈ (earlier ++ [c]).map (·.freeInternal) ∧
    ∀ a ∈ earlier ++ [c], ((run (earlier ++ [c])).metrics nowMs).lowestFreeInternalBytes ≤ a.freeInternal

/-! ### Three safe samples in a row -/

/-- The last `n` samples are safe, and none of them was taken in the normal state. -/
inductive Streak : List Call → ℕ → Prop
  | zero (calls : List Call) : Streak calls 0
  | succ {calls : List Call} {n : ℕ} {c : Call} : Streak calls n → c.kind = .safe → (run calls).state ≠ .normal →
      Streak (calls ++ [c]) (n + 1)

theorem Streak.mono {n : ℕ} (h : Streak calls n) : ∀ {m : ℕ}, m ≤ n → Streak calls m := by
  induction h with
  | zero calls =>
    intro m hm
    obtain rfl : m = 0 := by omega
    exact .zero _
  | succ hstreak hsafe hstate ih =>
    intro m hm
    cases m with
    | zero => exact .zero _
    | succ m => exact .succ (ih (by omega)) hsafe hstate

theorem Streak.of_snoc {n : ℕ} (h : Streak (calls ++ [c]) (n + 1)) :
    Streak calls n ∧ c.kind = .safe ∧ (run calls).state ≠ .normal := by
  generalize hall : calls ++ [c] = all at h
  cases h with
  | succ hstreak hsafe hstate =>
    obtain ⟨rfl, hc⟩ := List.append_inj' hall rfl
    obtain rfl : c = _ := List.singleton_inj.mp hc
    exact ⟨hstreak, hsafe, hstate⟩

theorem Streak.exists_snoc {n : ℕ} (h : Streak calls (n + 1)) : ∃ earlier a, calls = earlier ++ [a] := by
  cases h with
  | succ => exact ⟨_, _, rfl⟩

theorem threeSafe_of_streak (h : Streak (calls ++ [c]) 3) : ThreeSafe calls c := by
  obtain ⟨htwo, hc, hstate⟩ := h.of_snoc
  obtain ⟨before, b, rfl⟩ := htwo.exists_snoc
  obtain ⟨hone, hb, hbefore⟩ := htwo.of_snoc
  obtain ⟨earlier, a, rfl⟩ := hone.exists_snoc
  obtain ⟨-, ha, hearlier⟩ := hone.of_snoc
  exact ⟨earlier, a, b, by simp, ha, hb, hc, hearlier, hbefore, hstate⟩

theorem increment_toNat (n : UInt8) : (increment n).toNat ≤ n.toNat + 1 := by
  unfold increment
  split_ifs with h
  · omega
  · rw [UInt8.toNat_add]
    exact Nat.mod_le _ _

/-! ### The condition -/

/-- No hard fault and no emergency meets a running count of safe samples, and after a reading of `0` bytes there is
no other. -/
def Meets (earlier : List Call) (c : Call) : Prop :=
  (c.kind = .hardFault ∨ c.kind = .emergency → (run earlier).safeSamples = 0) ∧
    (0 ∈ earlier.map (·.freeInternal) → c.freeInternal = 0)

instance (earlier : List Call) (c : Call) : Decidable (Meets earlier c) :=
  inferInstanceAs (Decidable ((c.kind = .hardFault ∨ c.kind = .emergency → (run earlier).safeSamples = 0) ∧
    (0 ∈ earlier.map (·.freeInternal) → c.freeInternal = 0)))

/-- **The counter of safe samples counts a streak.** -/
theorem streak_safeSamples (h : EveryCall Meets calls) (hstate : (run calls).state ≠ .normal) :
    Streak calls (run calls).safeSamples.toNat := by
  induction calls using List.reverseRecOn with
  | nil => exact absurd rfl hstate
  | append_singleton calls c ih =>
    obtain ⟨hcalls, hmeets, -⟩ := everyCall_snoc.mp h
    rw [run_snoc] at hstate ⊢
    have hstep := step_next (run calls) c
    generalize hk : c.kind = k at hstep
    cases hstep with
    | fault hkind _ hsame =>
      rw [hsame, hmeets (hk ▸ hkind)]
      exact .zero _
    | exempt _ _ hzero | unsettled _ hzero | leaves _ _ _ hzero =>
      rw [hzero]
      exact .zero _
    | normal _ hnormal => exact absurd hnormal hstate
    | counted hpressure _ hnext =>
      rw [hnext]
      exact (Streak.succ (ih hcalls hpressure) hk hpressure).mono (increment_toNat _)

/-- **Pressure is left after three safe samples.** -/
theorem threeSafe_of_meets (h : EveryCall Meets calls) (hleaves : LeavesPressure calls c) :
    ThreeSafe calls c := by
  obtain ⟨hsafe, hpressure, hchanged, htarget⟩ := hleaves
  have hmoved : ((run calls).next c).state ≠ (run calls).state := (of_decide_eq_true hchanged).symm
  have hstep := step_next (run calls) c
  generalize hk : c.kind = k at hstep
  cases hstep with
  | fault _ hlow _ =>
    rcases htarget with htarget | htarget <;> exact absurd (hlow.symm.trans htarget) (by decide)
  | exempt _ hsame _ => exact absurd hsame hmoved
  | unsettled hkind _ => exact absurd (hk ▸ hkind) (Call.settled_of_safe hsafe)
  | normal hnormal _ => exact absurd hnormal hpressure
  | counted _ hsame _ => exact absurd hsame hmoved
  | leaves _ _ hthree _ =>
    have hstreak : Streak (calls ++ [c]) ((run calls).safeSamples.toNat + 1) :=
      .succ (streak_safeSamples h hpressure) hk hpressure
    refine threeSafe_of_streak (hstreak.mono ?_)
    have hcount : 3 ≤ (increment (run calls).safeSamples).toNat := UInt8.le_iff_toNat_le.mp hthree
    exact hcount.trans (increment_toNat _)

/-! ### The least reading -/

theorem lowest_of_meets (h : EveryCall Meets calls) (hne : calls ≠ []) :
    (run calls).lowestFreeInternalBytes ∈ calls.map (·.freeInternal) ∧
      ∀ a ∈ calls, (run calls).lowestFreeInternalBytes ≤ a.freeInternal := by
  induction calls using List.reverseRecOn with
  | nil => exact absurd rfl hne
  | append_singleton calls c ih =>
    obtain ⟨hcalls, -, hzero⟩ := everyCall_snoc.mp h
    rw [run_snoc, Policy.next_lowest]
    rcases eq_or_ne calls [] with rfl | hsome
    · have hfirst : recordMinimum (run []).lowestFreeInternalBytes c.freeInternal = c.freeInternal := if_pos (Or.inl rfl)
      rw [hfirst]
      simp
    obtain ⟨hmem, hle⟩ := ih hcalls hsome
    generalize (run calls).lowestFreeInternalBytes = least at hmem hle
    simp only [List.map_append, List.map_cons, List.map_nil, List.mem_append, List.mem_singleton,
      UInt32.le_iff_toNat_le] at hle ⊢
    unfold recordMinimum
    split_ifs with hlower
    · refine ⟨Or.inr rfl, ?_⟩
      rintro a (ha | rfl)
      · rcases hlower with rfl | hlt
        · rw [hzero hmem]
          exact Nat.zero_le _
        · exact (UInt32.lt_iff_toNat_lt.mp hlt).le.trans (hle a ha)
      · exact le_rfl
    · refine ⟨Or.inl hmem, ?_⟩
      rintro a (ha | rfl)
      · exact hle a ha
      · exact Nat.le_of_not_lt fun hlt => hlower (Or.inr (UInt32.lt_iff_toNat_lt.mpr hlt))

/-- **Recovery.** In a run whose calls all meet the condition, readings that are safe lead out of pressure after three
safe samples in a row, all taken under pressure, and the reported minimum is the least reading. -/
theorem pressure_recovery (calls : List Call) (h : EveryCall Meets calls) :
    EveryCall (fun earlier c => LeavesPressure earlier c → ThreeSafe earlier c) calls ∧ EveryCall ReportsLeast calls := by
  constructor
  · refine h.imp fun earlier c hall => ?_
    exact threeSafe_of_meets (everyCall_snoc.mp hall).1
  · exact h.imp fun earlier c hall _ => lowest_of_meets hall (by simp)

/-- A sample of the idle device. -/
def sample (freeInternal : UInt32) (nowMs : UInt64) : Call :=
  { freeInternal := freeInternal, largestInternal := 40000, nowMs := nowMs }

/-- An emergency and three safe samples. -/
def emergencyCalls : List Call := [sample 20000 1000, sample 80000 2000, sample 80000 3000, sample 80000 4000]

theorem pressure_recovery_emergency : LeavesPressure (emergencyCalls.take 3) (sample 80000 4000) ∧
    EveryCall (fun earlier c => LeavesPressure earlier c → ThreeSafe earlier c) emergencyCalls ∧
      EveryCall ReportsLeast emergencyCalls :=
  ⟨⟨by decide, by decide, by decide, by decide⟩, pressure_recovery emergencyCalls (by decide)⟩

/-- Two safe samples in the normal state, an allocation that fails, and one safe sample. -/
def faultCalls : List Call :=
  [sample 80000 1000, sample 80000 2000, { sample 80000 3000 with criticalAllocationFailed := true }, sample 80000 4000]

/-- **The count outlives a fault, and a reading of `0` bytes is forgotten.** -/
theorem count_outlives_fault :
    ¬ (∀ calls, Timed calls → EveryCall (fun earlier c => LeavesPressure earlier c → ThreeSafe earlier c) calls) ∧
      ¬ ∀ calls, Timed calls → EveryCall ReportsLeast calls := by
  constructor
  · intro h
    have hleaves : LeavesPressure (faultCalls.take 3) (sample 80000 4000) := ⟨by decide, by decide, by decide, by decide⟩
    obtain ⟨earlier, a, b, hcalls, -, hb, -⟩ := h faultCalls (by decide) 3 (by decide) hleaves
    have hlast : (faultCalls.take 3).getLast? = some b := by
      rw [hcalls]
      simp
    obtain rfl := Option.some.inj hlast
    exact absurd hb (by decide)
  · intro h
    have hleast := (h [sample 0 1000, sample 5 2000] (by decide) 1 (by decide) 2000).2 (sample 0 1000) (by decide)
    exact absurd hleast (by decide)

end PowerMonitor.Core.MemoryPressurePolicy
