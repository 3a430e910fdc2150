import Mathlib.Algebra.GroupWithZero.Nat
import Mathlib.Data.List.Chain
import Mathlib.Tactic.Common
import Mathlib.Tactic.SplitIfs

/-! # The clock that is trusted

SNTP sets the system time and then a completion flag. `ClockService::update` reads the system time and then takes
the flag; a time read with the flag is a candidate, and one far from the last trusted time has to be confirmed by
others that agree with the monotonic clock. Once a candidate is accepted, every update trusts what it reads.

The two steps of SNTP and those of an update interleave freely, while time passes (`World.step`).

* `Invariant.step`: what every step keeps; the pending candidates are the last ones observed, and as long as the
  time is not set, what is trusted advances with the monotonic clock.
* `large_step_confirmed`: a large step is trusted after three candidates, unless the time was set under an update
  that does not see the flag yet.
-/

namespace PowerMonitor.Network.ClockService

/-! ### The policy -/

inductive CandidateDisposition
  | accept
  | requireConfirmation
  /-- `RejectImplausible` -/
  | reject
  deriving DecidableEq, Repr

/-- 2024-01-01. -/
def minimumUtcMs : ℕ := 1704067200000

/-- 2100-01-01. -/
def maximumUtcMs : ℕ := 4102444800000

def rollbackToleranceMs : ℕ := 300000

def maximumAnchoredForwardStepMs : ℕ := 45 * 24 * 60 * 60 * 1000

def maximumInitialBuildAdvanceMs : ℕ := 400 * 24 * 60 * 60 * 1000

def maximumInitialBuildRollbackMs : ℕ := 30 * 24 * 60 * 60 * 1000

def candidateConsistencyToleranceMs : ℕ := 300000

def requiredConsistentSamples : ℕ := 3

def exceeds (newer older allowance : ℕ) : Bool := newer > older && newer - older > allowance

def classifyCandidate (candidateUtcMs previousTrustedUtcMs buildUtcMs : ℕ) : CandidateDisposition :=
  if candidateUtcMs < minimumUtcMs || candidateUtcMs > maximumUtcMs then .reject
  else if previousTrustedUtcMs ≠ 0 then
    if exceeds previousTrustedUtcMs candidateUtcMs rollbackToleranceMs ||
        exceeds candidateUtcMs previousTrustedUtcMs maximumAnchoredForwardStepMs then .requireConfirmation
    else .accept
  else if buildUtcMs ≠ 0 && (exceeds buildUtcMs candidateUtcMs maximumInitialBuildRollbackMs ||
      exceeds candidateUtcMs buildUtcMs maximumInitialBuildAdvanceMs) then .requireConfirmation
  else .accept

def candidatesConsistent (previousUtcMs previousMonotonicMs candidateUtcMs candidateMonotonicMs : ℕ) : Bool :=
  if previousUtcMs = 0 || candidateMonotonicMs < previousMonotonicMs || candidateUtcMs < previousUtcMs then false
  else
    let utcElapsed := candidateUtcMs - previousUtcMs
    let monotonicElapsed := candidateMonotonicMs - previousMonotonicMs
    let difference :=
      if utcElapsed > monotonicElapsed then utcElapsed - monotonicElapsed else monotonicElapsed - utcElapsed
    difference ≤ candidateConsistencyToleranceMs

/-! ### The service -/

structure Clock where
  synchronized : Bool := false
  sntpConfirmed : Bool := false
  lastTrustedUtcMs : ℕ := 0
  persistedTrustedUtcMs : ℕ := 0
  lastSyncMonotonicMs : ℕ := 0
  lastPersistMonotonicMs : ℕ := 0
  pendingCandidateUtcMs : ℕ := 0
  pendingCandidateMonotonicMs : ℕ := 0
  syncCount : ℕ := 0
  pendingCandidateCount : ℕ := 0
  deriving DecidableEq, Repr

/-- `begin`, with the value that is persisted (0 where there is none). -/
def Clock.begin (persistedUtcMs : ℕ) : Clock :=
  { persistedTrustedUtcMs := persistedUtcMs, lastTrustedUtcMs := persistedUtcMs }

/-- `plausible`: `now`, in seconds, is at least 2024-01-01. -/
def recent (now : ℕ) : Bool := now ≥ 1704067200

def candidateUtcMs (now : ℕ) : ℕ := if recent now then now * 1000 else 0

/-- What `update` does with an accepted candidate. -/
def Clock.accept (c : Clock) (monotonicMs : ℕ) : Clock :=
  { c with
    sntpConfirmed := true
    lastSyncMonotonicMs := monotonicMs
    syncCount := (c.syncCount + 1) % 2 ^ 32
    pendingCandidateUtcMs := 0
    pendingCandidateMonotonicMs := 0
    pendingCandidateCount := 0 }

/-- The count with another candidate. -/
def Clock.pendingCount (c : Clock) (utcMs monotonicMs : ℕ) : ℕ :=
  if candidatesConsistent c.pendingCandidateUtcMs c.pendingCandidateMonotonicMs utcMs monotonicMs then
    (c.pendingCandidateCount + 1) % 2 ^ 8
  else 1

/-- The first half of `update`: the candidate, if the flag was set. -/
def Clock.examine (c : Clock) (buildUtcMs previousTrustedUtcMs now : ℕ) (completed : Bool) (monotonicMs : ℕ) :
    Clock :=
  if !completed then c
  else match classifyCandidate (candidateUtcMs now) previousTrustedUtcMs buildUtcMs with
    | .reject => { c with sntpConfirmed := false }
    | .requireConfirmation =>
      let count := c.pendingCount (candidateUtcMs now) monotonicMs
      let pending := { c with
        pendingCandidateCount := count
        pendingCandidateUtcMs := candidateUtcMs now
        pendingCandidateMonotonicMs := monotonicMs }
      if count ≥ requiredConsistentSamples then pending.accept monotonicMs
      else { pending with sntpConfirmed := false }
    | .accept => if recent now then c.accept monotonicMs else c

/-- The second half of `update`; `persisted` tells whether the value could be stored. -/
def Clock.trust (c : Clock) (now monotonicMs : ℕ) (persisted : Bool) : Clock :=
  let synchronized := recent now && c.sntpConfirmed
  if synchronized then
    if c.lastPersistMonotonicMs = 0 || monotonicMs ≥ c.lastPersistMonotonicMs + 3600000 then
      { c with
        synchronized := true
        lastTrustedUtcMs := now * 1000
        persistedTrustedUtcMs := if persisted then now * 1000 else c.persistedTrustedUtcMs
        lastPersistMonotonicMs := monotonicMs }
    else { c with synchronized := true, lastTrustedUtcMs := now * 1000 }
  else { c with synchronized := false }

/-! ### Steps -/

/-- A completed candidate: its time, and the monotonic time at which it was examined. -/
structure Candidate where
  utcMs : ℕ
  monotonicMs : ℕ
  deriving DecidableEq, Repr

/-- It is consistent with one before. -/
def Candidate.follows (later earlier : Candidate) : Bool :=
  candidatesConsistent earlier.utcMs earlier.monotonicMs later.utcMs later.monotonicMs

/-- It is within 2024 through 2100. -/
def Candidate.inRange (c : Candidate) : Bool := minimumUtcMs ≤ c.utcMs && c.utcMs ≤ maximumUtcMs

/-- What an update read first: the system time and the last trusted time; and, of the world, the monotonic time and
how often the system time had been set. -/
structure Reading where
  systemMs : ℕ
  previousTrustedUtcMs : ℕ
  monotonicMs : ℕ
  settings : ℕ
  deriving DecidableEq, Repr

/-- `std::time`. -/
def Reading.now (r : Reading) : ℕ := r.systemMs / 1000

/-- How far `update` is. -/
inductive Update
  | idle
  | exchange (r : Reading)
  | conclude (r : Reading) (completed : Bool)
  deriving DecidableEq, Repr

/-- The system time, the monotonic clock, the completion flag, whether SNTP has set the time and not yet the flag,
and the service; and what has happened so far. -/
structure World where
  systemMs : ℕ
  monotonicMs : ℕ
  sntpCompletionObserved : Bool := false
  notifying : Bool := false
  clock : Clock
  update : Update := .idle
  /-- How often the system time has been set. -/
  settings : ℕ := 0
  /-- How often it had been when it was last read by an update that then found the flag. -/
  examined : ℕ := 0
  /-- The reading that became the last trusted time; that of the boot before. -/
  trusted : Reading
  /-- The completed candidates, the last one first. -/
  candidates : List Candidate := []
  deriving DecidableEq, Repr

def World.reading (w : World) : Reading := ⟨w.systemMs, w.clock.lastTrustedUtcMs, w.monotonicMs, w.settings⟩

/-- The world after `ClockService::begin`. -/
def World.boot (persistedUtcMs systemMs monotonicMs : ℕ) : World :=
  { systemMs, monotonicMs, clock := Clock.begin persistedUtcMs, trusted := ⟨systemMs, 0, monotonicMs, 0⟩ }

inductive Action
  /-- Both clocks advance. -/
  | pass (ms : ℕ)
  | setTime (utcMs : ℕ)
  | notify
  | read
  | exchange
  | conclude (persisted : Bool)
  deriving DecidableEq, Repr

/-- The rest of an update after the exchange. -/
def World.conclude (w : World) (buildUtcMs : ℕ) (r : Reading) (completed persisted : Bool) : World :=
  let examined := w.clock.examine buildUtcMs r.previousTrustedUtcMs r.now completed w.monotonicMs
  { w with
    clock := examined.trust r.now w.monotonicMs persisted
    update := .idle
    examined := if completed then r.settings else w.examined
    trusted := if recent r.now && examined.sntpConfirmed then r else w.trusted
    candidates := if completed then ⟨candidateUtcMs r.now, w.monotonicMs⟩ :: w.candidates else w.candidates }

/-- One step, if it is possible. -/
def World.step (w : World) (buildUtcMs : ℕ) : Action → Option World
  | .pass ms => some { w with systemMs := w.systemMs + ms, monotonicMs := w.monotonicMs + ms }
  | .setTime utcMs =>
    if w.notifying then none
    else some { w with systemMs := utcMs, settings := w.settings + 1, notifying := true }
  | .notify => if w.notifying then some { w with sntpCompletionObserved := true, notifying := false } else none
  | .read => if w.update = .idle then some { w with update := .exchange w.reading } else none
  | .exchange =>
    match w.update with
    | .exchange r =>
      some { w with update := .conclude r w.sntpCompletionObserved, sntpCompletionObserved := false }
    | _ => none
  | .conclude persisted =>
    match w.update with
    | .conclude r completed => some (w.conclude buildUtcMs r completed persisted)
    | _ => none

/-- The states of the runs after a boot. -/
inductive Reached (buildUtcMs : ℕ) : World → Prop
  | boot (persistedUtcMs systemMs monotonicMs : ℕ) : Reached buildUtcMs (World.boot persistedUtcMs systemMs monotonicMs)
  | step {w w' : World} (h : Reached buildUtcMs w) (a : Action) (hstep : w.step buildUtcMs a = some w') :
      Reached buildUtcMs w'

def World.run (w : World) (buildUtcMs : ℕ) : List Action → Option World
  | [] => some w
  | a :: as => (w.step buildUtcMs a).bind fun w' => w'.run buildUtcMs as

theorem Reached.run {buildUtcMs : ℕ} {w w' : World} (h : Reached buildUtcMs w) {as : List Action}
    (hrun : w.run buildUtcMs as = some w') : Reached buildUtcMs w' := by
  induction as generalizing w with
  | nil =>
    cases hrun
    exact h
  | cons a as ih =>
    obtain ⟨w₁, hstep, hrest⟩ := Option.bind_eq_some_iff.mp hrun
    exact ih (h.step a hstep) hrest

/-! ### Candidates that agree -/

/-- The last `n` candidates are each consistent with the one before. -/
def Agree (candidates : List Candidate) (n : ℕ) : Prop :=
  n ≤ candidates.length ∧ (candidates.take n).IsChain fun later earlier => later.follows earlier

instance (candidates : List Candidate) (n : ℕ) : Decidable (Agree candidates n) := by
  unfold Agree
  infer_instance

/-- As many as are required agree, the last one on this time. -/
def Confirm (candidates : List Candidate) (utcMs : ℕ) : Prop :=
  Agree candidates requiredConsistentSamples ∧ candidates.head?.map Candidate.utcMs = some utcMs

instance (candidates : List Candidate) (utcMs : ℕ) : Decidable (Confirm candidates utcMs) :=
  inferInstanceAs (Decidable (_ ∧ _))

theorem agree_zero (candidates : List Candidate) : Agree candidates 0 := ⟨Nat.zero_le _, .nil⟩

theorem agree_one (c : Candidate) (candidates : List Candidate) : Agree (c :: candidates) 1 :=
  ⟨Nat.succ_le_succ (Nat.zero_le _), .singleton c⟩

theorem Agree.cons {c p : Candidate} {candidates : List Candidate} {n : ℕ} (h : Agree candidates n)
    (hp : candidates.head? = some p) (hc : c.follows p) : Agree (c :: candidates) (n + 1) := by
  obtain ⟨hlength, hchain⟩ := h
  refine ⟨Nat.succ_le_succ hlength, ?_⟩
  rw [List.take_succ_cons, List.isChain_cons]
  refine ⟨fun q hq => ?_, hchain⟩
  rw [List.head?_take, hp] at hq
  split at hq
  · cases hq
  · cases hq
    exact hc

/-- The completed candidates that are not implausible. -/
def World.inRange (w : World) : List Candidate := w.candidates.filter Candidate.inRange

/-! ### What an update does -/

section Update

variable {c : Clock} {buildUtcMs previous now monotonicMs : ℕ} {persisted : Bool}

theorem inRange_iff (buildUtcMs previous now monotonicMs : ℕ) :
    classifyCandidate (candidateUtcMs now) previous buildUtcMs ≠ .reject ↔
    Candidate.inRange ⟨candidateUtcMs now, monotonicMs⟩ := by
  unfold classifyCandidate Candidate.inRange
  simp only [Bool.or_eq_true, decide_eq_true_eq, Bool.and_eq_true]
  split_ifs <;> simp <;> omega

theorem recent_of_inRange (h : Candidate.inRange ⟨candidateUtcMs now, monotonicMs⟩) : recent now := by
  by_contra hnot
  simp [Candidate.inRange, candidateUtcMs, hnot, minimumUtcMs] at h

/-- **What a candidate does:** it is implausible, or has still to be confirmed, or is accepted, after as many as are
required or because it is near the last trusted time. -/
theorem Clock.examine_completed (c : Clock) (buildUtcMs previous : ℕ) (k : Candidate) (hk : k = ⟨candidateUtcMs now, monotonicMs⟩) :
    (k.inRange = false ∧ c.examine buildUtcMs previous now true monotonicMs = { c with sntpConfirmed := false }) ∨
    (k.inRange ∧ c.pendingCount k.utcMs k.monotonicMs < requiredConsistentSamples ∧
      c.examine buildUtcMs previous now true monotonicMs = { c with
        sntpConfirmed := false
        pendingCandidateCount := c.pendingCount k.utcMs k.monotonicMs
        pendingCandidateUtcMs := k.utcMs
        pendingCandidateMonotonicMs := k.monotonicMs }) ∨
    (k.inRange ∧ (classifyCandidate k.utcMs previous buildUtcMs = .accept ∨
        requiredConsistentSamples ≤ c.pendingCount k.utcMs k.monotonicMs) ∧
      c.examine buildUtcMs previous now true monotonicMs = c.accept monotonicMs) := by
  subst hk
  unfold Clock.examine
  rw [if_neg (by decide)]
  have hrange := inRange_iff buildUtcMs previous now monotonicMs
  cases hd : classifyCandidate (candidateUtcMs now) previous buildUtcMs with
  | reject =>
    refine Or.inl ⟨?_, rfl⟩
    rw [hd] at hrange
    simpa using hrange
  | requireConfirmation =>
    rw [hd] at hrange
    have hrange := hrange.mp (by decide)
    by_cases hcount : c.pendingCount (candidateUtcMs now) monotonicMs ≥ requiredConsistentSamples
    · refine Or.inr (Or.inr ⟨hrange, Or.inr hcount, ?_⟩)
      simp only [if_pos hcount]
      rfl
    · refine Or.inr (Or.inl ⟨hrange, Nat.lt_of_not_le hcount, ?_⟩)
      simp only [if_neg hcount]
  | accept =>
    rw [hd] at hrange
    have hrange := hrange.mp (by decide)
    refine Or.inr (Or.inr ⟨hrange, Or.inl rfl, ?_⟩)
    exact if_pos (recent_of_inRange hrange)

@[simp] theorem Clock.examine_lastTrusted {completed : Bool} :
    (c.examine buildUtcMs previous now completed monotonicMs).lastTrustedUtcMs = c.lastTrustedUtcMs := by
  cases completed with
  | false => rfl
  | true =>
    obtain ⟨-, h⟩ | ⟨-, -, h⟩ | ⟨-, -, h⟩ :=
      c.examine_completed buildUtcMs previous _ rfl
    · rw [h]
    · rw [h]
    · rw [h]
      rfl

theorem Clock.trust_lastTrusted : (c.trust now monotonicMs persisted).lastTrustedUtcMs =
    if recent now && c.sntpConfirmed then now * 1000 else c.lastTrustedUtcMs := by
  unfold Clock.trust
  simp only
  split_ifs <;> rfl

@[simp] theorem Clock.trust_sntpConfirmed : (c.trust now monotonicMs persisted).sntpConfirmed = c.sntpConfirmed := by
  unfold Clock.trust
  simp only
  split_ifs <;> rfl

@[simp] theorem Clock.trust_pendingCandidateCount :
    (c.trust now monotonicMs persisted).pendingCandidateCount = c.pendingCandidateCount := by
  unfold Clock.trust
  simp only
  split_ifs <;> rfl

@[simp] theorem Clock.trust_pendingCandidateUtcMs :
    (c.trust now monotonicMs persisted).pendingCandidateUtcMs = c.pendingCandidateUtcMs := by
  unfold Clock.trust
  simp only
  split_ifs <;> rfl

@[simp] theorem Clock.trust_pendingCandidateMonotonicMs :
    (c.trust now monotonicMs persisted).pendingCandidateMonotonicMs = c.pendingCandidateMonotonicMs := by
  unfold Clock.trust
  simp only
  split_ifs <;> rfl

end Update

/-! ### What every step keeps -/

/-- A later reading: the time passed as on the monotonic clock, if it was not set. -/
structure Reading.Before (earlier later : Reading) : Prop where
  monotonicMs : earlier.monotonicMs ≤ later.monotonicMs
  settings : earlier.settings ≤ later.settings
  systemMs : earlier.settings = later.settings →
    later.systemMs + earlier.monotonicMs = earlier.systemMs + later.monotonicMs

theorem Reading.Before.refl (r : Reading) : r.Before r := ⟨le_rfl, le_rfl, fun _ => rfl⟩

theorem Reading.Before.trans {a b c : Reading} (hab : a.Before b) (hbc : b.Before c) : a.Before c := by
  refine ⟨hab.monotonicMs.trans hbc.monotonicMs, hab.settings.trans hbc.settings, fun heq => ?_⟩
  have hsettings : a.settings = b.settings := le_antisymm hab.settings (heq ▸ hbc.settings)
  have h₁ := hab.systemMs hsettings
  have h₂ := hbc.systemMs (hsettings ▸ heq)
  omega

/-- The reading of the update that is under way. -/
def Update.reading : Update → Option Reading
  | .idle => none
  | .exchange r => some r
  | .conclude r _ => some r

/-- The pending candidates are the last of these. -/
structure Pending (c : Clock) (candidates : List Candidate) : Prop where
  agree : Agree candidates c.pendingCandidateCount
  last : c.pendingCandidateUtcMs = 0 ∨
    candidates.head? = some ⟨c.pendingCandidateUtcMs, c.pendingCandidateMonotonicMs⟩
  few : c.pendingCandidateCount < requiredConsistentSamples

structure Invariant (w : World) : Prop where
  pending : Pending w.clock w.inRange
  trusted : w.trusted.Before w.reading
  /-- An update judges by the last trusted time. -/
  under : ∀ r, w.update.reading = some r →
    r.previousTrustedUtcMs = w.clock.lastTrustedUtcMs ∧ w.trusted.Before r ∧ r.Before w.reading
  /-- What was read by the update that last found the flag, or after it, is trusted. -/
  confirmed : w.clock.sntpConfirmed →
    w.clock.lastTrustedUtcMs = w.trusted.now * 1000 ∧ w.examined ≤ w.trusted.settings

variable {buildUtcMs : ℕ} {w w' : World}

theorem Invariant.boot (persistedUtcMs systemMs monotonicMs : ℕ) :
    Invariant (World.boot persistedUtcMs systemMs monotonicMs) where
  pending := ⟨agree_zero _, Or.inl rfl, Nat.zero_lt_succ 2⟩
  trusted := ⟨le_rfl, le_rfl, fun _ => rfl⟩
  under _ h := nomatch h
  confirmed h := nomatch h

/-- A step that leaves the service, its update and what is recorded of it alone. -/
theorem Invariant.elsewhere (h : Invariant w) (hclock : w'.clock = w.clock) (hupdate : w'.update = w.update)
    (hexamined : w'.examined = w.examined) (htrusted : w'.trusted = w.trusted)
    (hcandidates : w'.candidates = w.candidates) (hreading : w.reading.Before w'.reading) : Invariant w' := by
  have hinRange : w'.inRange = w.inRange := by unfold World.inRange; rw [hcandidates]
  refine ⟨?_, ?_, fun r hr => ?_, ?_⟩
  · rw [hinRange, hclock]
    exact h.pending
  · rw [htrusted]
    exact h.trusted.trans hreading
  · rw [hupdate] at hr
    obtain ⟨hprevious, hbefore, hafter⟩ := h.under r hr
    rw [hclock, htrusted]
    exact ⟨hprevious, hbefore, hafter.trans hreading⟩
  · rw [hclock, hexamined, htrusted]
    exact h.confirmed

/-! ### The end of an update -/

section Pending

variable {c : Clock} {candidates : List Candidate}

/-- The pending candidates with another one. -/
theorem Pending.count (h : Pending c candidates) (k : Candidate) :
    Agree (k :: candidates) (c.pendingCount k.utcMs k.monotonicMs) ∧
      c.pendingCount k.utcMs k.monotonicMs ≤ requiredConsistentSamples := by
  have hfew := h.few
  unfold requiredConsistentSamples at hfew ⊢
  unfold Clock.pendingCount
  split_ifs with hconsistent
  · rw [Nat.mod_eq_of_lt (by omega)]
    refine ⟨?_, by omega⟩
    obtain hzero | hlast := h.last
    · rw [hzero] at hconsistent
      cases hconsistent
    · exact h.agree.cons hlast hconsistent
  · exact ⟨agree_one k _, by omega⟩

theorem Pending.trust (h : Pending c candidates) (now monotonicMs : ℕ) (persisted : Bool) :
    Pending (c.trust now monotonicMs persisted) candidates := by
  refine ⟨?_, ?_, ?_⟩
  · rw [Clock.trust_pendingCandidateCount]
    exact h.agree
  · rw [Clock.trust_pendingCandidateUtcMs, Clock.trust_pendingCandidateMonotonicMs]
    exact h.last
  · rw [Clock.trust_pendingCandidateCount]
    exact h.few

theorem Pending.examine (h : Pending c candidates) (previous now monotonicMs : ℕ) :
    Pending (c.examine buildUtcMs previous now true monotonicMs)
      (if Candidate.inRange ⟨candidateUtcMs now, monotonicMs⟩ then ⟨candidateUtcMs now, monotonicMs⟩ :: candidates
        else candidates) := by
  obtain ⟨hk, he⟩ | ⟨hk, hcount, he⟩ | ⟨hk, -, he⟩ :=
    c.examine_completed buildUtcMs previous ⟨candidateUtcMs now, monotonicMs⟩ rfl
  · rw [he, hk, if_neg Bool.false_ne_true]
    exact ⟨h.agree, h.last, h.few⟩
  · rw [he, if_pos hk]
    exact ⟨(h.count _).1, Or.inr rfl, hcount⟩
  · rw [he]
    exact ⟨agree_zero _, Or.inl rfl, Nat.zero_lt_succ 2⟩

end Pending

theorem World.conclude_clock (r : Reading) (completed persisted : Bool) :
    (w.conclude buildUtcMs r completed persisted).clock =
      (w.clock.examine buildUtcMs r.previousTrustedUtcMs r.now completed w.monotonicMs).trust r.now w.monotonicMs
        persisted := rfl

theorem World.conclude_inRange (r : Reading) (persisted : Bool) :
    (w.conclude buildUtcMs r true persisted).inRange =
      if Candidate.inRange ⟨candidateUtcMs r.now, w.monotonicMs⟩ then
        ⟨candidateUtcMs r.now, w.monotonicMs⟩ :: w.inRange else w.inRange := List.filter_cons

theorem World.conclude_pending (h : Pending w.clock w.inRange) (r : Reading) (completed persisted : Bool) :
    Pending (w.conclude buildUtcMs r completed persisted).clock
      (w.conclude buildUtcMs r completed persisted).inRange := by
  rw [World.conclude_clock]
  refine Pending.trust ?_ _ _ _
  cases completed with
  | false => exact h
  | true =>
    rw [World.conclude_inRange]
    exact h.examine _ _ _

theorem Invariant.conclude (h : Invariant w) {r : Reading} {completed : Bool} (hr : w.update = .conclude r completed)
    (persisted : Bool) : Invariant (w.conclude buildUtcMs r completed persisted) := by
  obtain ⟨-, hbefore, hafter⟩ := h.under r (by rw [hr]; rfl)
  have hnow : ∀ {q : Reading}, q.Before w.reading → q.Before (w.conclude buildUtcMs r completed persisted).reading :=
    fun hq => ⟨hq.monotonicMs, hq.settings, hq.systemMs⟩
  refine ⟨World.conclude_pending h.pending r completed persisted, ?_, (fun _ hq => nomatch hq), ?_⟩
  · show (if _ then r else w.trusted).Before _
    split
    · exact hnow hafter
    · exact hnow h.trusted
  · intro hconfirmed
    rw [World.conclude_clock, Clock.trust_sntpConfirmed] at hconfirmed
    rw [World.conclude_clock, Clock.trust_lastTrusted, Clock.examine_lastTrusted]
    show _ = (if _ then r else w.trusted).now * 1000 ∧ (if completed then r.settings else w.examined) ≤
      (if _ then r else w.trusted).settings
    rw [hconfirmed, Bool.and_true]
    cases completed with
    | false =>
      obtain ⟨hlast, hexamined⟩ := h.confirmed hconfirmed
      split
      · exact ⟨rfl, hexamined.trans hbefore.settings⟩
      · exact ⟨hlast, hexamined⟩
    | true =>
      -- only an accepted candidate leaves the flag set
      obtain ⟨-, he⟩ | ⟨-, -, he⟩ | ⟨hk, -, -⟩ :=
        w.clock.examine_completed buildUtcMs r.previousTrustedUtcMs ⟨candidateUtcMs r.now, w.monotonicMs⟩ rfl
      · rw [he] at hconfirmed
        cases hconfirmed
      · rw [he] at hconfirmed
        cases hconfirmed
      · rw [if_pos (recent_of_inRange hk), if_pos (recent_of_inRange hk)]
        exact ⟨rfl, le_rfl⟩

/-- **Every step keeps the invariant.** -/
theorem Invariant.step (h : Invariant w) {a : Action} (hstep : w.step buildUtcMs a = some w') : Invariant w' := by
  cases a with
  | pass ms =>
    cases hstep
    exact h.elsewhere rfl rfl rfl rfl rfl
      ⟨Nat.le_add_right _ _, le_rfl, fun _ => by simp only [World.reading]; omega⟩
  | setTime utcMs =>
    simp only [World.step] at hstep
    split at hstep
    · cases hstep
    · cases hstep
      exact h.elsewhere rfl rfl rfl rfl rfl
        ⟨le_rfl, Nat.le_succ _, fun heq => absurd heq (Nat.succ_ne_self _).symm⟩
  | notify =>
    simp only [World.step] at hstep
    split at hstep
    · cases hstep
      exact h.elsewhere rfl rfl rfl rfl rfl (.refl _)
    · cases hstep
  | read =>
    simp only [World.step] at hstep
    split at hstep
    · cases hstep
      refine ⟨h.pending, h.trusted, fun r hr => ?_, h.confirmed⟩
      cases hr
      exact ⟨rfl, h.trusted, .refl _⟩
    · cases hstep
  | exchange =>
    simp only [World.step] at hstep
    split at hstep
    · next r hupdate =>
      cases hstep
      refine ⟨h.pending, h.trusted, fun q hq => h.under q ?_, h.confirmed⟩
      rw [hupdate]
      exact hq
    · cases hstep
  | conclude persisted =>
    simp only [World.step] at hstep
    split at hstep
    · next r completed hupdate =>
      cases hstep
      exact h.conclude hupdate persisted
    · cases hstep

theorem Reached.invariant (h : Reached buildUtcMs w) : Invariant w := by
  induction h with
  | boot => exact .boot _ _ _
  | step _ a hstep ih => exact ih.step hstep

/-! ### Large steps -/

/-- The monotonic time between the readings of two last trusted times. -/
def elapsedMs (w w' : World) : ℕ := w'.trusted.monotonicMs - w.trusted.monotonicMs

/-- The update does not see the flag, and reads a time that was set after the one that was last examined. -/
def World.overtaken (w : World) : Prop := ∃ r, w.update = .conclude r false ∧ r.settings ≠ w.examined

/-- Only the end of an update changes the last trusted time. -/
theorem World.step_lastTrusted {a : Action} (hstep : w.step buildUtcMs a = some w') :
    w'.clock.lastTrustedUtcMs = w.clock.lastTrustedUtcMs ∨
      ∃ r completed persisted, w.update = .conclude r completed ∧ w' = w.conclude buildUtcMs r completed persisted := by
  cases a with
  | pass ms =>
    cases hstep
    exact Or.inl rfl
  | setTime utcMs =>
    simp only [World.step] at hstep
    split at hstep <;> cases hstep
    exact Or.inl rfl
  | notify =>
    simp only [World.step] at hstep
    split at hstep <;> cases hstep
    exact Or.inl rfl
  | read =>
    simp only [World.step] at hstep
    split at hstep <;> cases hstep
    exact Or.inl rfl
  | exchange =>
    simp only [World.step] at hstep
    split at hstep <;> cases hstep
    exact Or.inl rfl
  | conclude persisted =>
    simp only [World.step] at hstep
    split at hstep <;> cases hstep
    next r completed hupdate => exact Or.inr ⟨r, completed, persisted, hupdate, rfl⟩

theorem World.conclude_lastTrusted (w : World) (buildUtcMs : ℕ) (r : Reading) (completed persisted : Bool) :
    (w.conclude buildUtcMs r completed persisted).clock.lastTrustedUtcMs =
      if recent r.now && (w.clock.examine buildUtcMs r.previousTrustedUtcMs r.now completed
        w.monotonicMs).sntpConfirmed then r.now * 1000 else w.clock.lastTrustedUtcMs := by
  rw [World.conclude_clock, Clock.trust_lastTrusted, Clock.examine_lastTrusted]

/-- A candidate that is accepted at once is near the last trusted time. -/
theorem near_of_accept {utcMs previous : ℕ} (hprevious : previous ≠ 0)
    (h : classifyCandidate utcMs previous buildUtcMs = .accept) :
    previous ≤ utcMs + rollbackToleranceMs ∧ utcMs ≤ previous + maximumAnchoredForwardStepMs := by
  unfold classifyCandidate at h
  rw [if_pos hprevious] at h
  split at h
  · cases h
  split at h
  · cases h
  next hnear =>
    simp only [exceeds, Bool.or_eq_true, Bool.and_eq_true, decide_eq_true_eq] at hnear
    omega

/-- An update that does not find the flag goes on from the last trusted time, if the time was not set. -/
theorem Invariant.advances (h : Invariant w) {r : Reading} (hr : w.update = .conclude r false)
    (hconfirmed : w.clock.sntpConfirmed) (hseen : r.settings = w.examined) :
    w.clock.lastTrustedUtcMs ≤ r.now * 1000 ∧
      r.now * 1000 ≤ w.clock.lastTrustedUtcMs + (r.monotonicMs - w.trusted.monotonicMs) + 1000 := by
  obtain ⟨-, hbefore, -⟩ := h.under r (by rw [hr]; rfl)
  obtain ⟨hlast, hexamined⟩ := h.confirmed hconfirmed
  have hsystem := hbefore.systemMs (le_antisymm hbefore.settings (hseen ▸ hexamined))
  have hmonotonic := hbefore.monotonicMs
  rw [hlast]
  unfold Reading.now
  omega

/-- **A large step is confirmed:** a time far below the last trusted one, or far above it and what has passed since,
is trusted after as many candidates as are required, each consistent with the one before; those that are
implausible are not counted. -/
theorem large_step_confirmed (h : Reached buildUtcMs w) {a : Action} (hstep : w.step buildUtcMs a = some w')
    (hprevious : w.clock.lastTrustedUtcMs ≠ 0)
    (hlarge : w'.clock.lastTrustedUtcMs + rollbackToleranceMs < w.clock.lastTrustedUtcMs ∨
      w.clock.lastTrustedUtcMs + elapsedMs w w' + maximumAnchoredForwardStepMs < w'.clock.lastTrustedUtcMs)
    (hseen : ¬ w.overtaken) : Confirm w'.inRange w'.clock.lastTrustedUtcMs := by
  have hinvariant := h.invariant
  obtain hsame | ⟨r, completed, persisted, hr, rfl⟩ := World.step_lastTrusted hstep
  · rw [hsame] at hlarge
    omega
  have hunder := hinvariant.under r (by rw [hr]; rfl)
  have hlast := w.conclude_lastTrusted buildUtcMs r completed persisted
  split at hlast
  swap
  · rw [hlast] at hlarge
    omega
  next htrust =>
  have helapsed : elapsedMs w (w.conclude buildUtcMs r completed persisted) = r.monotonicMs - w.trusted.monotonicMs := by
    show (if _ then r else w.trusted).monotonicMs - _ = _
    rw [if_pos htrust]
  rw [Bool.and_eq_true] at htrust
  obtain ⟨htime, hconfirmed⟩ := htrust
  rw [hlast, helapsed] at hlarge
  rw [hlast]
  cases completed with
  | false =>
    have hseen : r.settings = w.examined := by
      by_contra hne
      exact hseen ⟨r, hr, hne⟩
    have hadvance := hinvariant.advances hr hconfirmed hseen
    unfold maximumAnchoredForwardStepMs at hlarge
    omega
  | true =>
    have hutc : candidateUtcMs r.now = r.now * 1000 := if_pos htime
    obtain ⟨-, he⟩ | ⟨-, -, he⟩ | ⟨hk, hagreed, -⟩ :=
      w.clock.examine_completed buildUtcMs r.previousTrustedUtcMs ⟨candidateUtcMs r.now, w.monotonicMs⟩ rfl
    · rw [he] at hconfirmed
      cases hconfirmed
    · rw [he] at hconfirmed
      cases hconfirmed
    obtain hnear | hcount := hagreed
    · rw [hunder.1] at hnear
      have hnear := near_of_accept hprevious hnear
      simp only [hutc] at hnear
      omega
    · obtain ⟨hagree, hle⟩ := hinvariant.pending.count ⟨candidateUtcMs r.now, w.monotonicMs⟩
      rw [le_antisymm hle hcount] at hagree
      rw [World.conclude_inRange, if_pos hk]
      exact ⟨hagree, congrArg some hutc⟩

/-- SNTP sets the time, and an update reads it then and finds the flag; its end is still to come. -/
def synchronize (utcMs : ℕ) : List Action := [.setTime utcMs, .notify, .read, .exchange]

/-- Two months are trusted with the third candidate. -/
theorem large_step_confirmed_third :
    ∃ w w', (World.boot 1767225600000 0 1000).run 1767225600000
        (synchronize 1772409600000 ++ .conclude true :: synchronize 1772409600000 ++ .conclude true ::
          synchronize 1772409600000) = some w ∧
      w.step 1767225600000 (.conclude true) = some w' ∧ w.clock.lastTrustedUtcMs = 1767225600000 ∧
      w'.clock.lastTrustedUtcMs = 1772409600000 ∧ Confirm w'.inRange 1772409600000 := by
  obtain ⟨w, w', hrun, hstep, hlast, hlast', helapsed, r, hr⟩ : ∃ w w', (World.boot 1767225600000 0 1000).run 1767225600000
        (synchronize 1772409600000 ++ .conclude true :: synchronize 1772409600000 ++ .conclude true ::
          synchronize 1772409600000) = some w ∧
      w.step 1767225600000 (.conclude true) = some w' ∧ w.clock.lastTrustedUtcMs = 1767225600000 ∧
      w'.clock.lastTrustedUtcMs = 1772409600000 ∧ elapsedMs w w' = 0 ∧ ∃ r, w.update = .conclude r true :=
    ⟨_, _, rfl, rfl, rfl, rfl, rfl, _, rfl⟩
  have hseen : ¬ w.overtaken := fun ⟨_, hq, _⟩ => nomatch hr.symm.trans hq
  have hconfirm := large_step_confirmed ((Reached.boot _ _ _).run hrun) hstep (by rw [hlast]; decide)
    (by rw [hlast, hlast', helapsed]; decide) hseen
  exact ⟨w, w', hrun, hstep, hlast, hlast', hlast' ▸ hconfirm⟩

/-- The law without its exceptions, for one step: also the time that has passed raises the lower bound, candidates
in between count, and each has to be consistent with each one before. -/
def Lawful (w w' : World) : Prop :=
  w.clock.lastTrustedUtcMs ≠ 0 → w'.clock.lastTrustedUtcMs ≠ w.clock.lastTrustedUtcMs →
    (w'.clock.lastTrustedUtcMs + rollbackToleranceMs < w.clock.lastTrustedUtcMs + elapsedMs w w' ∨
      w.clock.lastTrustedUtcMs + elapsedMs w w' + maximumAnchoredForwardStepMs < w'.clock.lastTrustedUtcMs) →
    requiredConsistentSamples ≤ w'.candidates.length ∧
      (w'.candidates.take requiredConsistentSamples).Pairwise (fun later earlier => later.follows earlier) ∧
      w'.candidates.head?.map Candidate.utcMs = some w'.clock.lastTrustedUtcMs

instance (w w' : World) : Decidable (Lawful w w') := by
  unfold Lawful
  infer_instance

/-- Four ways to an unlawful step, after a boot with 2026-01-01 persisted. The first candidate is an hour behind the
anchor and what has passed since the boot. An implausible candidate comes between the first and the second of three.
The third is not consistent with the first. SNTP sets the time, two months on, and an update reads it and exchanges
the flag before SNTP sets that. -/
theorem step_unlawful :
    (∃ w w', (World.boot 1767225600000 0 1000).run 1767225600000
        (.pass 3600000 :: synchronize 1767225601000) = some w ∧
      w.step 1767225600000 (.conclude true) = some w' ∧ ¬ Lawful w w') ∧
    (∃ w w', (World.boot 1767225600000 0 1000).run 1767225600000
        (synchronize 1772409600000 ++ .conclude true :: synchronize 0 ++ .conclude true ::
          synchronize 1772409600000 ++ .conclude true :: synchronize 1772409600000) = some w ∧
      w.step 1767225600000 (.conclude true) = some w' ∧ ¬ Lawful w w') ∧
    (∃ w w', (World.boot 1767225600000 0 1000).run 1767225600000
        (synchronize 1772409600000 ++ .conclude true :: synchronize 1772409850000 ++ .conclude true ::
          synchronize 1772410100000) = some w ∧
      w.step 1767225600000 (.conclude true) = some w' ∧ ¬ Lawful w w') ∧
    ∃ w w', (World.boot 1767225600000 0 1000).run 1767225600000
        (synchronize 1767225601000 ++ [.conclude true, .setTime 1772409600000, .read, .exchange]) = some w ∧
      w.step 1767225600000 (.conclude true) = some w' ∧ ¬ Lawful w w' :=
  ⟨⟨_, _, rfl, rfl, by decide⟩, ⟨_, _, rfl, rfl, by decide⟩, ⟨_, _, rfl, rfl, by decide⟩, ⟨_, _, rfl, rfl, by decide⟩⟩

end PowerMonitor.Network.ClockService
