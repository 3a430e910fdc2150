import Mathlib.Logic.Function.Basic
import Mathlib.Tactic.Common
import Mathlib.Tactic.SplitIfs

/-! # Coalesced reconciliation requests

Any task may ask the storage task to advance the sequence floor. A request raises the required floor, and the
first one takes the flag and queues a message; the others find the flag set and rely on that message. The handler
gives the flag back before it looks at the required floor again, and queues once more if it has risen.

Every atomic access and every operation of the queue is a step of its own (`World.step`), and the steps of the
tasks interleave freely.

* `Invariant.step`: what every step keeps; while a request is not answered, something carries it.
* `requests_kept`: the floors of the accepted requests are reached, if no failing send gives the flag back while
  one that is accepted depends on it. -/

namespace PowerMonitor.Storage.Reconciliation

/-! ### Tasks and steps -/

/-- A task that queues a reconciliation: a number, or the storage task itself. -/
abbrev Party := Option ℕ

/-- How far a call of `queueSequenceReconciliation` is. -/
inductive CallStep
  | load
  | raise (current : UInt64)
  | exchange
  | send
  | clear
  deriving DecidableEq, Repr

structure Call where
  requiredSequenceFloor : UInt64
  step : CallStep
  deriving DecidableEq, Repr

/-- How far the storage task is with a message. -/
inductive Handler
  | idle
  | load
  | advance (requested : UInt64)
  | release (requested : UInt64)
  | compare (requested : UInt64)
  | queueing
  deriving DecidableEq, Repr

/-- The messages that the control queue holds at most. -/
def controlQueueCapacity : ℕ := 8

/-- The coordinator: its two atomics, the control queue (by the number of reconciliation messages and of all
others), the calls that are under way, and the storage task; and what has happened so far. -/
structure World where
  requiredSequenceFloor : UInt64 := 0
  sequenceReconciliationQueued : Bool := false
  messages : ℕ := 0
  others : ℕ := 0
  calls : Party → Option Call := fun _ => none
  handler : Handler := .idle
  /-- The floors passed to `advanceSequenceFloor`. -/
  passed : List UInt64 := []
  /-- The floors of the calls that returned true. -/
  accepted : List UInt64 := []

def World.setCall (w : World) (p : Party) (c : Option Call) : World := { w with calls := Function.update w.calls p c }

/-- A call returns; the handler waits for the one it makes. -/
def World.finish (w : World) (p : Party) (c : Call) (result : Bool) : World :=
  { w.setCall p none with
    accepted := if result then c.requiredSequenceFloor :: w.accepted else w.accepted
    handler := if p = none then .idle else w.handler }

/-- The next operation of a call of `queueSequenceReconciliation`; a weak exchange may fail for no reason. -/
def World.callStep (w : World) (p : Party) (c : Call) (spurious : Bool) : World :=
  match c.step with
  | .load => w.setCall p (some { c with step := .raise w.requiredSequenceFloor })
  | .raise current =>
    if c.requiredSequenceFloor > current then
      if w.requiredSequenceFloor = current ∧ !spurious then
        { w.setCall p (some { c with step := .exchange }) with requiredSequenceFloor := c.requiredSequenceFloor }
      else w.setCall p (some { c with step := .raise w.requiredSequenceFloor })
    else w.setCall p (some { c with step := .exchange })
  | .exchange =>
    if w.sequenceReconciliationQueued then w.finish p c true
    else { w.setCall p (some { c with step := .send }) with sequenceReconciliationQueued := true }
  | .send =>
    if w.messages + w.others < controlQueueCapacity then { w.finish p c true with messages := w.messages + 1 }
    else w.setCall p (some { c with step := .clear })
  | .clear => { w.finish p c false with sequenceReconciliationQueued := false }

/-- The next operation of the handler. -/
def World.handlerStep (w : World) : Option World :=
  match w.handler with
  | .idle => none
  | .load => some { w with handler := .advance w.requiredSequenceFloor }
  | .advance requested => some { w with passed := requested :: w.passed, handler := .release requested }
  | .release requested => some { w with sequenceReconciliationQueued := false, handler := .compare requested }
  | .compare requested =>
    if w.requiredSequenceFloor > requested then
      some { w.setCall none (some ⟨w.requiredSequenceFloor, .load⟩) with handler := .queueing }
    else some { w with handler := .idle }
  | .queueing => none

inductive Action
  | call (task : ℕ) (requiredSequenceFloor : UInt64)
  | go (p : Party) (spurious : Bool)
  | receive
  | handle
  | others (count : ℕ)
  deriving DecidableEq, Repr

/-- One step, if it is possible. -/
def World.step (w : World) : Action → Option World
  | .call task floor => if w.calls (some task) = none then some (w.setCall (some task) (some ⟨floor, .load⟩)) else none
  | .go p spurious => (w.calls p).map fun c => w.callStep p c spurious
  | .receive =>
    if w.handler = .idle ∧ w.messages ≠ 0 then some { w with messages := w.messages - 1, handler := .load } else none
  | .handle => w.handlerStep
  | .others count => if w.messages + count ≤ controlQueueCapacity then some { w with others := count } else none

/-- The states of the runs in which every step is one that `permitted` allows in its state. -/
inductive Reached (permitted : World → Action → Prop) : World → Prop
  | start : Reached permitted {}
  | step {w w' : World} (h : Reached permitted w) (a : Action) (ha : permitted w a) (hstep : w.step a = some w') :
      Reached permitted w'

def World.run (w : World) : List Action → Option World
  | [] => some w
  | a :: as => (w.step a).bind fun w' => w'.run as

/-! ### What carries a request -/

/-- The call has the flag. -/
def CallStep.holds (s : CallStep) : Prop := s = .send ∨ s = .clear

/-- The handler has still to look at the required floor and at the flag. -/
def World.rechecks (w : World) : Prop :=
  (∃ requested, w.handler = .compare requested) ∨
    w.handler = .queueing ∧ ∃ c, w.calls none = some c ∧ ¬ c.step.holds

/-- Something is under way that leads to another call of `advanceSequenceFloor`, or that can fail. -/
def World.carries (w : World) : Prop :=
  w.messages ≠ 0 ∨ (w.handler ≠ .idle ∧ w.handler ≠ .queueing) ∨ w.rechecks ∨
    ∃ p c, w.calls p = some c ∧ c.step.holds

/-- **Every floor whose call returned true is reached.** -/
def World.reconciled (w : World) : Prop := ∀ floor ∈ w.accepted, ∃ done ∈ w.passed, floor ≤ done

/-- No message is queued, no handler runs, and no call stands between taking the flag and its send, or giving it
back. -/
def World.settled (w : World) : Prop :=
  w.messages = 0 ∧ w.handler = .idle ∧ ∀ p c, w.calls p = some c → ¬ c.step.holds

/-- A send that found the queue full gives the flag back only if every accepted floor is reached, or the handler has
still to look. -/
def Lossless (w : World) (a : Action) : Prop :=
  ∀ p spurious c, a = .go p spurious → w.calls p = some c → c.step = .clear → w.rechecks ∨ w.reconciled

structure Invariant (w : World) : Prop where
  accepted : ∀ floor ∈ w.accepted, floor ≤ w.requiredSequenceFloor
  seen : ∀ p c current, w.calls p = some c → c.step = .raise current → current ≤ w.requiredSequenceFloor
  raised : ∀ p c, w.calls p = some c → c.step = .exchange ∨ c.step.holds →
    c.requiredSequenceFloor ≤ w.requiredSequenceFloor
  passed : ∀ requested, w.handler = .release requested ∨ w.handler = .compare requested → requested ∈ w.passed
  nested : ∀ c, w.calls none = some c → w.handler = .queueing
  flag : w.sequenceReconciliationQueued = true → w.messages ≠ 0 ∨
    (w.handler = .load ∨ (∃ r, w.handler = .advance r) ∨ ∃ r, w.handler = .release r) ∨
    ∃ p c, w.calls p = some c ∧ c.step.holds
  carried : w.carries ∨ w.reconciled

theorem invariant_start : Invariant {} where
  accepted _ h := by cases h
  seen _ _ _ h := by cases h
  raised _ _ h := by cases h
  passed _ h := by rcases h with h | h <;> cases h
  nested _ h := by cases h
  flag h := by cases h
  carried := Or.inr fun _ h => by cases h

variable {w w' : World} {p : Party} {c c' : Call}

@[simp] theorem calls_setCall (w : World) (p q : Party) (c : Option Call) :
    (w.setCall p c).calls q = if q = p then c else w.calls q := Function.update_apply _ _ _ _

theorem holds_send : CallStep.send.holds := Or.inl rfl

theorem holds_clear : CallStep.clear.holds := Or.inr rfl

/-! ### The steps of a call -/

/-- The required floor only rises. -/
theorem Invariant.raiseFloor (h : Invariant w) (floor : UInt64) (hle : w.requiredSequenceFloor ≤ floor) :
    Invariant { w with requiredSequenceFloor := floor } where
  accepted f hf := UInt64.le_trans (h.accepted f hf) hle
  seen q d current hd hs := UInt64.le_trans (h.seen q d current hd hs) hle
  raised q d hd hs := UInt64.le_trans (h.raised q d hd hs) hle
  passed := h.passed
  nested := h.nested
  flag := h.flag
  carried := h.carried

/-- A call starts, or goes on before it takes the flag. -/
theorem Invariant.setCall (h : Invariant w) (c' : Call) (hfree : ∀ c, w.calls p = some c → ¬ c.step.holds)
    (hnested : p = none → w.handler = .queueing) (hnot : ¬ c'.step.holds)
    (hseen : ∀ current, c'.step = .raise current → current ≤ w.requiredSequenceFloor)
    (hraised : c'.step = .exchange → c'.requiredSequenceFloor ≤ w.requiredSequenceFloor) :
    Invariant (w.setCall p (some c')) := by
  have hother (q : Party) (d : Call) (hd : w.calls q = some d) (hs : d.step.holds) :
      (w.setCall p (some c')).calls q = some d := by
    rw [calls_setCall, if_neg, hd]
    rintro rfl
    exact hfree d hd hs
  refine ⟨h.accepted, fun q d current hd hs => ?_, fun q d hd hs => ?_, h.passed, fun d hd => ?_, fun hflag => ?_, ?_⟩
  · rw [calls_setCall] at hd
    split_ifs at hd
    · cases hd
      exact hseen current hs
    · exact h.seen q d current hd hs
  · rw [calls_setCall] at hd
    split_ifs at hd
    · cases hd
      exact hraised (hs.resolve_right hnot)
    · exact h.raised q d hd hs
  · rw [calls_setCall] at hd
    split_ifs at hd with heq
    · exact hnested heq.symm
    · exact h.nested d hd
  · rcases h.flag hflag with hm | hh | ⟨q, d, hd, hs⟩
    · exact Or.inl hm
    · exact Or.inr (Or.inl hh)
    · exact Or.inr (Or.inr ⟨q, d, hother q d hd hs, hs⟩)
  · rcases h.carried with (hm | hh | (hcompare | ⟨hq, d, hd, hs⟩) | ⟨q, d, hd, hs⟩) | hdone
    · exact Or.inl (Or.inl hm)
    · exact Or.inl (Or.inr (Or.inl hh))
    · exact Or.inl (Or.inr (Or.inr (Or.inl (Or.inl hcompare))))
    · refine Or.inl (Or.inr (Or.inr (Or.inl (Or.inr ⟨hq, ?_⟩))))
      by_cases hp : none = p
      · exact ⟨c', by rw [calls_setCall, if_pos hp], hnot⟩
      · exact ⟨d, by rw [calls_setCall, if_neg hp, hd], hs⟩
    · exact Or.inl (Or.inr (Or.inr (Or.inr ⟨q, d, hother q d hd hs, hs⟩)))
    · exact Or.inr hdone

/-- A call takes the flag, or finds the queue full. -/
theorem Invariant.hold (h : Invariant w) (c' : Call) (hc : w.calls p = some c) (hholds : c'.step.holds)
    (hraised : c'.requiredSequenceFloor ≤ w.requiredSequenceFloor) (flag : Bool) :
    Invariant { w.setCall p (some c') with sequenceReconciliationQueued := flag } where
  accepted := h.accepted
  seen q d current hd hs := by
    rw [show ({ w.setCall p (some c') with sequenceReconciliationQueued := flag } : World).calls q =
      (w.setCall p (some c')).calls q from rfl, calls_setCall] at hd
    split_ifs at hd
    · cases hd
      rcases hholds with hsend | hclear
      · rw [hs] at hsend
        cases hsend
      · rw [hs] at hclear
        cases hclear
    · exact h.seen q d current hd hs
  raised q d hd hs := by
    rw [show ({ w.setCall p (some c') with sequenceReconciliationQueued := flag } : World).calls q =
      (w.setCall p (some c')).calls q from rfl, calls_setCall] at hd
    split_ifs at hd
    · cases hd
      exact hraised
    · exact h.raised q d hd hs
  passed := h.passed
  nested d hd := by
    rw [show ({ w.setCall p (some c') with sequenceReconciliationQueued := flag } : World).calls none =
      (w.setCall p (some c')).calls none from rfl, calls_setCall] at hd
    split_ifs at hd with heq
    · subst heq
      exact h.nested c hc
    · exact h.nested d hd
  flag _ := Or.inr (Or.inr ⟨p, c', (calls_setCall ..).trans (if_pos rfl), hholds⟩)
  carried := Or.inl (Or.inr (Or.inr (Or.inr ⟨p, c', (calls_setCall ..).trans (if_pos rfl), hholds⟩)))

theorem calls_finish (w : World) (p q : Party) (c : Call) (result : Bool) :
    (w.finish p c result).calls q = if q = p then none else w.calls q := calls_setCall ..

theorem handler_finish (w : World) (c : Call) (result : Bool) {p : Party} (hp : p ≠ none) :
    (w.finish p c result).handler = w.handler := if_neg hp

/-- A call returns, and leaves something that carries the requests. -/
theorem Invariant.finish (h : Invariant w) (p : Party) (c : Call) (result : Bool) (messages : ℕ) (flag : Bool)
    (hraised : result = true → c.requiredSequenceFloor ≤ w.requiredSequenceFloor)
    (hw' : w' = { w.finish p c result with messages := messages, sequenceReconciliationQueued := flag })
    (hflag : flag = true → messages ≠ 0 ∨
      (w'.handler = .load ∨ (∃ r, w'.handler = .advance r) ∨ ∃ r, w'.handler = .release r) ∨
      ∃ q d, w'.calls q = some d ∧ d.step.holds)
    (hcarried : w'.carries ∨ w'.reconciled) : Invariant w' := by
  have hcalls (q : Party) (d : Call) (hd : w'.calls q = some d) : q ≠ p ∧ w.calls q = some d := by
    rw [hw', show ({ w.finish p c result with messages := messages, sequenceReconciliationQueued := flag } : World).calls q
      = (w.finish p c result).calls q from rfl, calls_finish] at hd
    split_ifs at hd with heq
    exact ⟨heq, hd⟩
  have hhandler : w'.handler = if p = none then .idle else w.handler := by rw [hw']; rfl
  have hfloor : w'.requiredSequenceFloor = w.requiredSequenceFloor := by rw [hw']; rfl
  have hpassed : w'.passed = w.passed := by rw [hw']; rfl
  have haccepted : w'.accepted = if result then c.requiredSequenceFloor :: w.accepted else w.accepted := by
    rw [hw']; rfl
  refine ⟨fun floor hf => ?_, fun q d current hd hs => ?_, fun q d hd hs => ?_, fun requested hr => ?_, fun d hd => ?_, fun hf => ?_, hcarried⟩
  · rw [haccepted] at hf
    rw [hfloor]
    split at hf
    · next hresult =>
      rcases List.mem_cons.mp hf with rfl | hf
      · exact hraised hresult
      · exact h.accepted floor hf
    · exact h.accepted floor hf
  · rw [hfloor]
    exact h.seen q d current (hcalls q d hd).2 hs
  · rw [hfloor]
    exact h.raised q d (hcalls q d hd).2 hs
  · rw [hpassed]
    rw [hhandler] at hr
    split at hr
    · rcases hr with hr | hr <;> cases hr
    · exact h.passed requested hr
  · obtain ⟨hne, hd'⟩ := hcalls none d hd
    rw [hhandler, if_neg (fun heq => hne heq.symm)]
    exact h.nested d hd'
  · have hmessages : w'.messages = messages := by rw [hw']
    rw [hmessages]
    exact hflag (by rw [hw'] at hf; exact hf)

/-- **Every operation of a call keeps the invariant.** -/
theorem Invariant.callStep (h : Invariant w) (hc : w.calls p = some c) (spurious : Bool)
    (hlossless : c.step = .clear → w.rechecks ∨ w.reconciled) : Invariant (w.callStep p c spurious) := by
  have hfree (hnot : ¬ c.step.holds) : ∀ d, w.calls p = some d → ¬ d.step.holds := by
    intro d hd
    rw [hc] at hd
    cases hd
    exact hnot
  have hnested : p = none → w.handler = .queueing := by
    rintro rfl
    exact h.nested c hc
  unfold World.callStep
  cases hstep : c.step with
  | load =>
    refine h.setCall _ (hfree (by simp [hstep, CallStep.holds])) hnested (by simp [CallStep.holds])
      (fun current hs => ?_) (by simp)
    cases hs
    exact UInt64.le_refl _
  | raise current =>
    have hnot : ¬ c.step.holds := by simp [hstep, CallStep.holds]
    simp only
    split_ifs with hgt heq
    · have hrisen := h.raiseFloor c.requiredSequenceFloor (by rw [heq.1]; exact UInt64.le_of_lt hgt)
      exact hrisen.setCall { c with step := .exchange } (hfree hnot) hnested (by simp [CallStep.holds]) (by simp)
        fun _ => UInt64.le_refl _
    · refine h.setCall _ (hfree hnot) hnested (by simp [CallStep.holds]) (fun seen hs => ?_) (by simp)
      cases hs
      exact UInt64.le_refl _
    · refine h.setCall _ (hfree hnot) hnested (by simp [CallStep.holds]) (by simp) fun _ => ?_
      exact UInt64.le_trans (UInt64.not_lt.mp hgt) (h.seen p c current hc hstep)
  | exchange =>
    have hraised := h.raised p c hc (Or.inl hstep)
    have hnot : ¬ c.step.holds := by simp [hstep, CallStep.holds]
    simp only
    split_ifs with hqueued
    · -- whoever has the flag has it still
      have hholder : w.messages ≠ 0 ∨
          ((w.finish p c true).handler = .load ∨ (∃ r, (w.finish p c true).handler = .advance r) ∨
            ∃ r, (w.finish p c true).handler = .release r) ∨
          ∃ q d, (w.finish p c true).calls q = some d ∧ d.step.holds := by
        rcases h.flag hqueued with hm | hh | ⟨q, d, hd, hs⟩
        · exact Or.inl hm
        · have hp : p ≠ none := by
            rintro rfl
            rw [h.nested c hc] at hh
            rcases hh with hh | ⟨r, hh⟩ | ⟨r, hh⟩ <;> cases hh
          rw [handler_finish w c true hp]
          exact Or.inr (Or.inl hh)
        · refine Or.inr (Or.inr ⟨q, d, ?_, hs⟩)
          rw [calls_finish, if_neg, hd]
          rintro rfl
          rw [hc] at hd
          cases hd
          exact hnot hs
      refine h.finish p c true w.messages w.sequenceReconciliationQueued (fun _ => hraised) rfl (fun _ => hholder) (Or.inl ?_)
      rcases hholder with hm | hh | hcall
      · exact Or.inl hm
      · refine Or.inr (Or.inl ?_)
        rcases hh with hh | ⟨r, hh⟩ | ⟨r, hh⟩ <;> simp [hh]
      · exact Or.inr (Or.inr (Or.inr hcall))
    · exact h.hold { c with step := .send } hc holds_send hraised true
  | send =>
    have hraised := h.raised p c hc (Or.inr (Or.inl hstep))
    simp only
    split_ifs with hroom
    · refine h.finish p c true (w.messages + 1) w.sequenceReconciliationQueued (fun _ => hraised) rfl
        (fun _ => Or.inl (by omega)) (Or.inl (Or.inl ?_))
      exact Nat.succ_ne_zero _
    · exact h.hold { c with step := .clear } hc holds_clear hraised w.sequenceReconciliationQueued
  | clear =>
    refine h.finish p c false w.messages false (fun hfalse => by cases hfalse) rfl (fun hfalse => by cases hfalse) ?_
    rcases hlossless hstep with (⟨r, hr⟩ | ⟨hq, d, hd, hs⟩) | hdone
    · have hp : p ≠ none := by
        rintro rfl
        rw [h.nested c hc] at hr
        cases hr
      exact Or.inl (Or.inr (Or.inr (Or.inl (Or.inl ⟨r, (handler_finish w c false hp).trans hr⟩))))
    · have hp : p ≠ none := by
        rintro rfl
        rw [hc] at hd
        cases hd
        exact hs (hstep ▸ holds_clear)
      refine Or.inl (Or.inr (Or.inr (Or.inl (Or.inr ⟨(handler_finish w c false hp).trans hq, d, ?_, hs⟩))))
      exact (calls_finish w p none c false).trans ((if_neg hp.symm).trans hd)
    · exact Or.inr hdone

/-! ### The storage task -/

/-- The handler goes on. -/
theorem Invariant.handle (h : Invariant w) (hidle : w.handler ≠ .queueing) (handler : Handler) (messages : ℕ)
    (passed : List UInt64) (hpassed : ∀ r, handler = .release r ∨ handler = .compare r → r ∈ passed)
    (hhandler : handler ≠ .idle ∧ handler ≠ .queueing) (flag : Bool)
    (hflag : flag = true → handler = .load ∨ (∃ r, handler = .advance r) ∨ ∃ r, handler = .release r) :
    Invariant { w with
      handler := handler, messages := messages, passed := passed, sequenceReconciliationQueued := flag } where
  accepted := h.accepted
  seen := h.seen
  raised := h.raised
  passed := hpassed
  nested d hd := absurd (h.nested d hd) hidle
  flag hf := Or.inr (Or.inl (hflag hf))
  carried := Or.inl (Or.inr (Or.inl hhandler))

/-- **Every operation of the handler keeps the invariant.** -/
theorem Invariant.handlerStep (h : Invariant w) (hstep : w.handlerStep = some w') : Invariant w' := by
  unfold World.handlerStep at hstep
  cases hh : w.handler with
  | idle => simp [hh] at hstep
  | queueing => simp [hh] at hstep
  | load =>
    simp only [hh, Option.some.injEq] at hstep
    subst hstep
    exact h.handle (by simp [hh]) (.advance w.requiredSequenceFloor) w.messages w.passed
      (by simp) (by simp) w.sequenceReconciliationQueued (fun _ => Or.inr (Or.inl ⟨_, rfl⟩))
  | advance r =>
    simp only [hh, Option.some.injEq] at hstep
    subst hstep
    exact h.handle (by simp [hh]) (.release r) w.messages (r :: w.passed)
      (by simp) (by simp) w.sequenceReconciliationQueued (fun _ => Or.inr (Or.inr ⟨_, rfl⟩))
  | release r =>
    simp only [hh, Option.some.injEq] at hstep
    subst hstep
    have hr := h.passed r (Or.inl hh)
    exact h.handle (by simp [hh]) (.compare r) w.messages w.passed (by simpa using hr) (by simp)
      false (fun hf => by cases hf)
  | compare r =>
    have hr := h.passed r (Or.inr hh)
    simp only [hh] at hstep
    split_ifs at hstep with hrisen
    · cases hstep
      have hcalls (q : Party) (d : Call)
          (hd : (w.setCall none (some ⟨w.requiredSequenceFloor, .load⟩)).calls q = some d) :
          d = ⟨w.requiredSequenceFloor, .load⟩ ∨ w.calls q = some d := by
        rw [calls_setCall] at hd
        split_ifs at hd
        · exact Or.inl (Option.some.inj hd).symm
        · exact Or.inr hd
      refine ⟨h.accepted, fun q d current hd hs => ?_, fun q d hd hs => ?_, by simp, fun _ _ => rfl, fun hflag => ?_, ?_⟩
      · rcases hcalls q d hd with rfl | hd
        · cases hs
        · exact h.seen q d current hd hs
      · rcases hcalls q d hd with rfl | hd
        · exact UInt64.le_refl _
        · exact h.raised q d hd hs
      · rcases h.flag hflag with hm | hnow | ⟨q, d, hd, hs⟩
        · exact Or.inl hm
        · rw [hh] at hnow
          rcases hnow with hnow | ⟨_, hnow⟩ | ⟨_, hnow⟩ <;> cases hnow
        · refine Or.inr (Or.inr ⟨q, d, (calls_setCall ..).trans ((if_neg ?_).trans hd), hs⟩)
          rintro rfl
          rw [h.nested d hd] at hh
          cases hh
      · exact Or.inl (Or.inr (Or.inr (Or.inl (Or.inr ⟨rfl, ⟨w.requiredSequenceFloor, .load⟩,
          (calls_setCall w none none _).trans (if_pos rfl), by simp [CallStep.holds]⟩))))
    · cases hstep
      refine ⟨h.accepted, h.seen, h.raised, by simp, fun d hd => ?_, fun hflag => ?_, Or.inr fun floor hfloor => ?_⟩
      · rw [h.nested d hd] at hh
        cases hh
      · rcases h.flag hflag with hm | hnow | hcall
        · exact Or.inl hm
        · rw [hh] at hnow
          rcases hnow with hnow | ⟨_, hnow⟩ | ⟨_, hnow⟩ <;> cases hnow
        · exact Or.inr (Or.inr hcall)
      · -- the floor that was passed last is the required one
        exact ⟨r, hr, UInt64.le_trans (h.accepted floor hfloor) (UInt64.not_lt.mp hrisen)⟩

/-- **Every step keeps the invariant**, if it is lossless. -/
theorem Invariant.step (h : Invariant w) {a : Action} (ha : Lossless w a) (hstep : w.step a = some w') :
    Invariant w' := by
  cases a with
  | call task floor =>
    simp only [World.step] at hstep
    split_ifs at hstep with hfree
    cases hstep
    exact h.setCall ⟨floor, .load⟩ (fun d hd => by rw [hfree] at hd; cases hd) (by simp) (by simp [CallStep.holds])
      (by simp) (by simp)
  | go p spurious =>
    obtain ⟨c, hc, rfl⟩ := Option.map_eq_some_iff.mp hstep
    exact h.callStep hc spurious (ha p spurious c rfl hc)
  | receive =>
    simp only [World.step] at hstep
    split_ifs at hstep with hready
    cases hstep
    exact h.handle (by simp [hready.1]) .load (w.messages - 1) w.passed (by simp) (by simp)
      w.sequenceReconciliationQueued (fun _ => Or.inl rfl)
  | handle => exact h.handlerStep hstep
  | others count =>
    simp only [World.step] at hstep
    split_ifs at hstep
    cases hstep
    exact ⟨h.accepted, h.seen, h.raised, h.passed, h.nested, h.flag, h.carried⟩

/-- Nothing carries a request in a settled state. -/
theorem not_carries_of_settled (hsettled : w.settled) : ¬ w.carries := by
  obtain ⟨hmessages, hidle, hfree⟩ := hsettled
  rintro (hm | hh | (⟨r, hr⟩ | ⟨hq, -⟩) | ⟨p, c, hc, hs⟩)
  · exact hm hmessages
  · exact hh.1 hidle
  · rw [hidle] at hr
    cases hr
  · rw [hidle] at hq
    cases hq
  · exact hfree p c hc hs

/-- **No accepted request is lost** when a failing send gives the flag back only if none depends on it. -/
theorem requests_kept (h : Reached Lossless w) (hsettled : w.settled) : w.reconciled := by
  have hinv : Invariant w := by
    clear hsettled
    induction h with
    | start => exact invariant_start
    | step h a ha hstep ih => exact ih.step ha hstep
  exact hinv.carried.resolve_left (not_carries_of_settled hsettled)

/-- An operation of a call that does not give the flag back. -/
theorem lossless_of_ne_clear {p : Party} {spurious : Bool} (hc : w.calls p = some c) (hne : c.step ≠ .clear) :
    Lossless w (.go p spurious) := by
  intro q again d ha hd hclear
  cases ha
  rw [hc] at hd
  cases hd
  exact absurd hclear hne

theorem lossless_of_ne_go {a : Action} (ha : ∀ p spurious, a ≠ .go p spurious) : Lossless w a :=
  fun p spurious _ heq => absurd heq (ha p spurious)

/-- Two requests, one message: the floor of the second one is reached. -/
theorem requests_kept_two : ∃ w, Reached Lossless w ∧ w.accepted = [20, 10] ∧ w.passed = [20] ∧ w.reconciled := by
  have h₁ := Reached.start.step (.call 0 10) (lossless_of_ne_go (by simp)) rfl
  have h₂ := h₁.step (.go (some 0) false) (lossless_of_ne_clear rfl (by decide)) rfl
  have h₃ := h₂.step (.go (some 0) false) (lossless_of_ne_clear rfl (by decide)) rfl
  have h₄ := h₃.step (.go (some 0) false) (lossless_of_ne_clear rfl (by decide)) rfl
  have h₅ := h₄.step (.go (some 0) false) (lossless_of_ne_clear rfl (by decide)) rfl
  have h₆ := h₅.step (.call 1 20) (lossless_of_ne_go (by simp)) rfl
  have h₇ := h₆.step (.go (some 1) false) (lossless_of_ne_clear rfl (by decide)) rfl
  have h₈ := h₇.step (.go (some 1) false) (lossless_of_ne_clear rfl (by decide)) rfl
  have h₉ := h₈.step (.go (some 1) false) (lossless_of_ne_clear rfl (by decide)) rfl
  have h₁₀ := h₉.step .receive (lossless_of_ne_go (by simp)) rfl
  have h₁₁ := h₁₀.step .handle (lossless_of_ne_go (by simp)) rfl
  have h₁₂ := h₁₁.step .handle (lossless_of_ne_go (by simp)) rfl
  have h₁₃ := h₁₂.step .handle (lossless_of_ne_go (by simp)) rfl
  have h₁₄ := h₁₃.step .handle (lossless_of_ne_go (by simp)) rfl
  refine ⟨_, h₁₄, rfl, rfl, requests_kept h₁₄ ⟨rfl, rfl, fun p d hd => ?_⟩⟩
  simp [World.setCall, World.callStep, World.finish, controlQueueCapacity] at hd

/-! ### Two runs that leave a request -/

/-- The states of a run, when each of its steps is permitted. -/
theorem Reached.run {permitted : World → Action → Prop} (h : Reached permitted w) {actions : List Action}
    (hall : ∀ a ∈ actions, ∀ w, permitted w a) (hrun : w.run actions = some w') : Reached permitted w' := by
  induction actions generalizing w with
  | nil =>
    cases hrun
    exact h
  | cons a actions ih =>
    rw [List.forall_mem_cons] at hall
    obtain ⟨w₁, hstep, hrest⟩ := Option.bind_eq_some_iff.mp hrun
    exact ih (h.step a (hall.1 _) hstep) hall.2 hrest

/-- The first task has taken the flag; the second one has relied on it. -/
def relying : List Action :=
  [.others 8, .call 0 10, .go (some 0) false, .go (some 0) false, .go (some 0) false,
    .call 1 20, .go (some 1) false, .go (some 1) false, .go (some 1) false]

/-- The first task finds the queue full, and gives the flag back. -/
def givenBack : List Action := relying ++ [.go (some 0) false, .go (some 0) false]

/-- While the first task has yet to send, the request of the second one is accepted and nothing is queued; and when
its send then fails, no call is left and the request is never handled. -/
theorem request_unhandled :
    (∃ w, Reached Lossless w ∧ w.messages = 0 ∧ w.handler = .idle ∧ ¬ w.reconciled) ∧
      ∃ w, Reached (fun _ _ => True) w ∧ w.settled ∧ ¬ w.reconciled := by
  constructor
  · have h₁ := Reached.start.step (.others 8) (lossless_of_ne_go (by simp)) rfl
    have h₂ := h₁.step (.call 0 10) (lossless_of_ne_go (by simp)) rfl
    have h₃ := h₂.step (.go (some 0) false) (lossless_of_ne_clear rfl (by decide)) rfl
    have h₄ := h₃.step (.go (some 0) false) (lossless_of_ne_clear rfl (by decide)) rfl
    have h₅ := h₄.step (.go (some 0) false) (lossless_of_ne_clear rfl (by decide)) rfl
    have h₆ := h₅.step (.call 1 20) (lossless_of_ne_go (by simp)) rfl
    have h₇ := h₆.step (.go (some 1) false) (lossless_of_ne_clear rfl (by decide)) rfl
    have h₈ := h₇.step (.go (some 1) false) (lossless_of_ne_clear rfl (by decide)) rfl
    have h₉ := h₈.step (.go (some 1) false) (lossless_of_ne_clear rfl (by decide)) rfl
    refine ⟨_, h₉, rfl, rfl, fun hdone => ?_⟩
    obtain ⟨_, hpassed, -⟩ := hdone 20 List.mem_cons_self
    cases hpassed
  · obtain ⟨w, hw⟩ : ∃ w, World.run {} givenBack = some w := ⟨_, rfl⟩
    have hreached : Reached (fun _ _ => True) w := Reached.start.run (fun _ _ _ => trivial) hw
    simp [givenBack, relying, World.run, World.step, World.callStep, World.setCall, World.finish,
      controlQueueCapacity] at hw
    subst hw
    refine ⟨_, hreached, ⟨rfl, rfl, fun p d hd => ?_⟩, fun hdone => ?_⟩
    · simp only [Function.update_apply] at hd
      split_ifs at hd
    · obtain ⟨_, hpassed, -⟩ := hdone 20 List.mem_cons_self
      cases hpassed

end PowerMonitor.Storage.Reconciliation
