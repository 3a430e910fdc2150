import Mathlib.Data.Set.Card
import Mathlib.Logic.Function.Basic

/-! # A gate with a counter

Any number of threads pass a gate that one owner closes. A thread counts itself, looks whether the gate is open,
and only then goes inside; it counts itself out when it leaves. The owner closes the gate and waits until the
counter shows zero: the gate is then sealed. The counter wraps around at `modulus`.

As long as fewer than `modulus` threads are counted at a time, the counter is their number (`Inv.count`) and
nobody is inside a sealed gate (`Inv.sealed`). -/

namespace PowerMonitor.Lib.Gate

variable {T P : Type*}

/-! ### Counting threads -/

section Census

variable [DecidableEq T] {among : P → Prop} {phase : T → P} {t : T} {p : P}

/-- The threads whose phase is among some. -/
def having (among : P → Prop) (phase : T → P) : Set T := {t | among (phase t)}

theorem having_stay (h : among p ↔ among (phase t)) :
    having among (Function.update phase t p) = having among phase := by
  ext u
  by_cases hu : u = t
  · subst hu
    simp [having, h]
  · simp [having, hu]

theorem having_enter (hin : among p) : having among (Function.update phase t p) = insert t (having among phase) := by
  ext u
  by_cases hu : u = t
  · subst hu
    simp [having, hin]
  · simp [having, hu]

theorem having_leave (hout : ¬ among p) : having among (Function.update phase t p) = having among phase \ {t} := by
  ext u
  by_cases hu : u = t
  · subst hu
    simp [having, hout]
  · simp [having, hu]

theorem finite_update (h : (having among phase).Finite) : (having among (Function.update phase t p)).Finite := by
  by_cases hp : among p
  · rw [having_enter hp]
    exact h.insert t
  · rw [having_leave hp]
    exact h.sdiff

theorem ncard_enter (h : (having among phase).Finite) (hout : ¬ among (phase t)) (hin : among p) :
    (having among (Function.update phase t p)).ncard = (having among phase).ncard + 1 := by
  rw [having_enter hin]
  exact Set.ncard_insert_of_notMem hout h

theorem ncard_leave (h : (having among phase).Finite) (hin : among (phase t)) (hout : ¬ among p) :
    (having among (Function.update phase t p)).ncard + 1 = (having among phase).ncard := by
  rw [having_leave hout]
  exact Set.ncard_sdiff_singleton_add_one hin h

omit [DecidableEq T] in
theorem ncard_eq_zero (h : (having among phase).Finite) : (having among phase).ncard = 0 ↔ ∀ t, ¬ among (phase t) := by
  rw [Set.ncard_eq_zero h, Set.eq_empty_iff_forall_notMem]
  rfl

end Census

/-! ### The gate -/

inductive Phase
  | outside | entering | inside | leaving
  deriving DecidableEq

def Phase.Counted (p : Phase) : Prop := p ≠ .outside

/-- The gate, its counter and where the threads are. -/
structure State (T : Type*) where
  closed : Bool := false
  sealed : Bool := false
  count : ℕ := 0
  phase : T → Phase := fun _ => .outside

def counted (s : State T) : Set T := having Phase.Counted s.phase

/-- Fewer threads are counted than the counter can show. -/
def Few (modulus : ℕ) (s : State T) : Prop := (counted s).ncard < modulus

/-- What every run keeps. -/
structure Inv (s : State T) : Prop where
  finite : (counted s).Finite
  count : s.count = (counted s).ncard
  closed : s.sealed = true → s.closed = true
  sealed : s.sealed = true → ∀ t, s.phase t ≠ .inside

variable {modulus : ℕ} {s s' : State T}

theorem inv_initial : Inv ({} : State T) := by
  have hempty : counted ({} : State T) = ∅ := by
    ext t
    simp [counted, having, Phase.Counted]
  refine ⟨?_, ?_, fun h => (by cases h), fun h => (by cases h)⟩
  · rw [hempty]
    exact Set.finite_empty
  · rw [hempty, Set.ncard_empty]

theorem Inv.nobody (h : Inv s) (hzero : s.count = 0) (t : T) : s.phase t = .outside := by
  have hncard : (counted s).ncard = 0 := h.count ▸ hzero
  exact not_not.mp ((ncard_eq_zero h.finite).mp hncard t)

theorem Inv.count_pos (h : Inv s) {t : T} (ht : s.phase t ≠ .outside) : 0 < s.count :=
  Nat.pos_of_ne_zero fun hzero => ht (h.nobody hzero t)

variable [DecidableEq T]

def State.move (s : State T) (t : T) (p : Phase) : State T := { s with phase := Function.update s.phase t p }

/-- One step of a thread or of the owner. -/
inductive Step (modulus : ℕ) (s : State T) : State T → Prop
  | enter (t : T) (h : s.phase t = .outside) :
      Step modulus s { s.move t .entering with count := (s.count + 1) % modulus }
  | pass (t : T) (h : s.phase t = .entering) (hopen : s.closed = false) : Step modulus s (s.move t .inside)
  | turn (t : T) (h : s.phase t = .entering ∨ s.phase t = .inside) : Step modulus s (s.move t .leaving)
  | leave (t : T) (h : s.phase t = .inside ∨ s.phase t = .leaving) :
      Step modulus s { s.move t .outside with count := (s.count + (modulus - 1)) % modulus }
  | close : Step modulus s { s with closed := true }
  | observe (hclosed : s.closed = true) (hzero : s.count = 0) : Step modulus s { s with sealed := true }
  | reopen : Step modulus s { s with closed := false, sealed := false }
  | stutter : Step modulus s s

/-- A thread that moves while the counter follows. -/
theorem Inv.move (h : Inv s) (t : T) (p : Phase) (count : ℕ)
    (hcount : count = (having Phase.Counted (Function.update s.phase t p)).ncard)
    (hinside : s.sealed = true → p ≠ .inside) : Inv { s.move t p with count := count } := by
  refine ⟨finite_update h.finite, hcount, h.closed, fun hsealed u => ?_⟩
  by_cases hu : u = t
  · subst hu
    simpa [State.move] using hinside hsealed
  · simpa [State.move, hu] using h.sealed hsealed u

/-- **What one step keeps**, where the counter does not wrap around. -/
theorem Step.inv (hstep : Step modulus s s') (h : Inv s) (hfew : Few modulus s') : Inv s' := by
  cases hstep with
  | enter t ht =>
    have hncard := ncard_enter (t := t) (p := Phase.entering) h.finite (by simp [ht, Phase.Counted])
      (by simp [Phase.Counted])
    refine h.move t .entering _ ?_ fun _ => by simp
    have hlt : (having Phase.Counted (Function.update s.phase t Phase.entering)).ncard < modulus := hfew
    have hcount : s.count = (having Phase.Counted s.phase).ncard := h.count
    rw [hncard] at hlt ⊢
    rw [hcount, Nat.mod_eq_of_lt hlt]
  | pass t ht hopen =>
    refine h.move t .inside s.count ?_ fun hsealed => ?_
    · rw [having_stay (by simp [ht, Phase.Counted])]
      exact h.count
    · rw [h.closed hsealed] at hopen
      cases hopen
  | turn t ht =>
    refine h.move t .leaving s.count ?_ fun _ => by simp
    rw [having_stay (by rcases ht with ht | ht <;> simp [ht, Phase.Counted])]
    exact h.count
  | leave t ht =>
    have hin : Phase.Counted (s.phase t) := by rcases ht with ht | ht <;> simp [ht, Phase.Counted]
    have hncard := ncard_leave (p := Phase.outside) h.finite hin (by simp [Phase.Counted])
    refine h.move t .outside _ ?_ fun _ => by simp
    have hlt : (having Phase.Counted (Function.update s.phase t Phase.outside)).ncard < modulus := hfew
    have hcount : s.count = (having Phase.Counted s.phase).ncard := h.count
    have hsum : s.count + (modulus - 1) =
        (having Phase.Counted (Function.update s.phase t Phase.outside)).ncard + modulus := by omega
    rw [hsum, Nat.add_mod_right, Nat.mod_eq_of_lt hlt]
  | close => exact ⟨h.finite, h.count, fun _ => rfl, h.sealed⟩
  | observe hclosed hzero =>
    refine ⟨h.finite, h.count, fun _ => hclosed, fun _ t => ?_⟩
    show s.phase t ≠ .inside
    rw [h.nobody hzero t]
    simp
  | reopen => exact ⟨h.finite, h.count, fun hsealed => (by cases hsealed), fun hsealed => (by cases hsealed)⟩
  | stutter => exact h

end PowerMonitor.Lib.Gate
