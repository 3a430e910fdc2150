import Mathlib.Data.Int.Basic
import Mathlib.Tactic.Ring
import Mathlib.Tactic.Linarith
import PowerMonitor.Lib.Gate

/-! # A counter that follows

A number changes by one at a time, and a counter follows it: whoever changes the number counts that a moment later, in a
step of its own. In between the counter lags, by one for each change that is not yet counted (`Inv`). -/

namespace PowerMonitor.Lib.Tally

open PowerMonitor.Lib.Gate

variable {T : Type*}

/-- What a party has still to count. -/
inductive Lag
  | even | raised | lowered
  deriving DecidableEq

/-- The number, the counter, and what the parties have still to count. -/
structure State (T : Type*) where
  total : ℤ
  count : ℤ
  lag : T → Lag

/-- The parties that have still to count a change of one kind. -/
def owing (s : State T) (l : Lag) : Set T := having (· = l) s.lag

structure Inv (s : State T) : Prop where
  finite : ∀ l, l ≠ .even → (owing s l).Finite
  count : s.count + (owing s .raised).ncard = s.total + (owing s .lowered).ncard

variable {s s' : State T}

theorem inv_initial : Inv (⟨0, 0, fun _ => .even⟩ : State T) := by
  have hempty : ∀ l, l ≠ .even → owing (⟨0, 0, fun _ => .even⟩ : State T) l = ∅ := fun l hl => by
    ext t
    simp [owing, having, hl.symm]
  refine ⟨fun l hl => ?_, ?_⟩
  · rw [hempty l hl]
    exact Set.finite_empty
  · rw [hempty .raised (by decide), hempty .lowered (by decide)]

/-- **Once all is counted** the counter shows the number. -/
theorem Inv.count_eq (h : Inv s) (hall : ∀ t, s.lag t = .even) : s.count = s.total := by
  have hempty : ∀ l, l ≠ .even → owing s l = ∅ := fun l hl => by
    ext t
    simp [owing, having, hall t, hl.symm]
  have hcount := h.count
  rw [hempty .raised (by decide), hempty .lowered (by decide)] at hcount
  simpa using hcount

variable [DecidableEq T]

inductive Step (s : State T) : State T → Prop
  | raise (t : T) (h : s.lag t = .even) :
      Step s { s with total := s.total + 1, lag := Function.update s.lag t .raised }
  | lower (t : T) (h : s.lag t = .even) :
      Step s { s with total := s.total - 1, lag := Function.update s.lag t .lowered }
  | countUp (t : T) (h : s.lag t = .raised) :
      Step s { s with count := s.count + 1, lag := Function.update s.lag t .even }
  | countDown (t : T) (h : s.lag t = .lowered) :
      Step s { s with count := s.count - 1, lag := Function.update s.lag t .even }
  | stutter : Step s s

/-- **What one step keeps.** -/
theorem Step.inv (hstep : Step s s') (h : Inv s) : Inv s' := by
  have hcount := h.count
  cases hstep with
  | raise t ht =>
    refine ⟨fun l hl => finite_update (h.finite l hl), ?_⟩
    have hup := ncard_enter (t := t) (p := Lag.raised) (h.finite .raised (by decide)) (by simp [ht]) rfl
    have hsame : having (· = Lag.lowered) (Function.update s.lag t .raised) = having (· = Lag.lowered) s.lag :=
      having_stay (by simp [ht])
    simp only [owing, hup, hsame] at hcount ⊢
    push_cast
    linarith
  | lower t ht =>
    refine ⟨fun l hl => finite_update (h.finite l hl), ?_⟩
    have hup := ncard_enter (t := t) (p := Lag.lowered) (h.finite .lowered (by decide)) (by simp [ht]) rfl
    have hsame : having (· = Lag.raised) (Function.update s.lag t .lowered) = having (· = Lag.raised) s.lag :=
      having_stay (by simp [ht])
    simp only [owing, hup, hsame] at hcount ⊢
    push_cast
    linarith
  | countUp t ht =>
    refine ⟨fun l hl => finite_update (h.finite l hl), ?_⟩
    have hdown := ncard_leave (t := t) (p := Lag.even) (h.finite .raised (by decide)) ht (by decide)
    have hsame : having (· = Lag.lowered) (Function.update s.lag t .even) = having (· = Lag.lowered) s.lag :=
      having_stay (by simp [ht])
    simp only [owing, hsame] at hcount hdown ⊢
    rw [← hdown] at hcount
    push_cast at hcount
    linarith
  | countDown t ht =>
    refine ⟨fun l hl => finite_update (h.finite l hl), ?_⟩
    have hdown := ncard_leave (t := t) (p := Lag.even) (h.finite .lowered (by decide)) ht (by decide)
    have hsame : having (· = Lag.raised) (Function.update s.lag t .even) = having (· = Lag.raised) s.lag :=
      having_stay (by simp [ht])
    simp only [owing, hsame] at hcount hdown ⊢
    rw [← hdown] at hcount
    push_cast at hcount
    linarith
  | stutter => exact h

end PowerMonitor.Lib.Tally
