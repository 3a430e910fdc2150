import Mathlib.Data.Nat.Notation
import PowerMonitor.Lib.Program

/-! # Runs in which one event repeats

When every call gets the same event, a program has one run: its calls (`callAt`), and its value and final
state (`steady`). A loss of power after some calls leaves the state of the next one, or what a last event
of another kind makes of it (`run_of_callAt`). -/

namespace PowerMonitor.Lib.Steady

open PowerMonitor.Lib.Program PowerMonitor.Lib.Program.Prog

variable {Op : Type} {Ans : Op → Type} {Ev σ α β : Type}

/-- The value and the final state of the run. -/
def steady (D : Device Op Ans Ev σ) (e : Ev) : Prog Op Ans α → σ → α × σ
  | ret a, s => (a, s)
  | call o k, s => steady D e (k (D.act o e s).2) (D.act o e s).1

/-- The number of calls of the run. -/
def calls (D : Device Op Ans Ev σ) (e : Ev) : Prog Op Ans α → σ → ℕ
  | ret _, _ => 0
  | call o k, s => calls D e (k (D.act o e s).2) (D.act o e s).1 + 1

/-- The call after the first `n`, and the state in which it is made. -/
def callAt (D : Device Op Ans Ev σ) (e : Ev) : Prog Op Ans α → ℕ → σ → Option (Op × σ)
  | ret _, _, _ => none
  | call o _, 0, s => some (o, s)
  | call o k, n + 1, s => callAt D e (k (D.act o e s).2) n (D.act o e s).1

variable {D : Device Op Ans Ev σ} {e : Ev}

@[simp] theorem steady_pure (a : α) (s : σ) : steady D e (pure a : Prog Op Ans α) s = (a, s) := rfl

@[simp] theorem steady_op (o : Op) (s : σ) :
    steady D e (op o : Prog Op Ans (Ans o)) s = ((D.act o e s).2, (D.act o e s).1) := rfl

@[simp] theorem steady_bind (p : Prog Op Ans α) (f : α → Prog Op Ans β) (s : σ) :
    steady D e (p >>= f) s = steady D e (f (steady D e p s).1) (steady D e p s).2 := by
  induction p generalizing s with
  | ret a => rfl
  | call o k ih => exact ih _ _

theorem steady_ite {c : Prop} [Decidable c] (p q : Prog Op Ans α) (s : σ) :
    steady D e (if c then p else q) s = if c then steady D e p s else steady D e q s := by
  split <;> rfl

@[simp] theorem calls_pure (a : α) (s : σ) : calls D e (pure a : Prog Op Ans α) s = 0 := rfl

@[simp] theorem calls_op (o : Op) (s : σ) : calls D e (op o : Prog Op Ans (Ans o)) s = 1 := rfl

@[simp] theorem calls_bind (p : Prog Op Ans α) (f : α → Prog Op Ans β) (s : σ) :
    calls D e (p >>= f) s = calls D e p s + calls D e (f (steady D e p s).1) (steady D e p s).2 := by
  induction p generalizing s with
  | ret a => exact (Nat.zero_add _).symm
  | call o k ih =>
    have h := ih (D.act o e s).2 (D.act o e s).1
    rw [bind_eq] at h
    rw [bind_eq, call_bind, calls, h, calls, steady]
    omega

/-- The calls of a composition are those of its parts. -/
theorem callAt_bind (p : Prog Op Ans α) (f : α → Prog Op Ans β) (n : ℕ) (s : σ) :
    callAt D e (p >>= f) n s = if n < calls D e p s then callAt D e p n s
      else callAt D e (f (steady D e p s).1) (n - calls D e p s) (steady D e p s).2 := by
  induction p generalizing n s with
  | ret a =>
    rw [if_neg (by simp [calls])]
    rfl
  | call o k ih =>
    cases n with
    | zero =>
      rw [if_pos (by simp [calls])]
      rfl
    | succ n =>
      have h := ih (D.act o e s).2 n (D.act o e s).1
      rw [bind_eq] at h
      rw [bind_eq, call_bind, callAt, h]
      simp only [calls, callAt, steady, Nat.add_lt_add_iff_right, Nat.add_sub_add_right]

theorem callAt_op_bind (o : Op) (f : Ans o → Prog Op Ans β) (n : ℕ) (s : σ) :
    callAt D e (op o >>= f) n s =
      match n with
      | 0 => some (o, s)
      | n + 1 => callAt D e (f (D.act o e s).2) n (D.act o e s).1 := by
  cases n <;> rfl

/-- The run ends with its last call. -/
theorem run_calls (p : Prog Op Ans α) (rest : List Ev) (s : σ) :
    run D p (List.replicate (calls D e p s) e ++ rest) s = ((steady D e p s).2, some ((steady D e p s).1, rest)) := by
  induction p generalizing s with
  | ret a => rfl
  | call o k ih => exact ih _ _

/-- **What is specified of a program** holds of this run, if its event is admitted. -/
theorem steady_of_wp {A : Op → Ev → σ → Prop} {K : σ → Prop} {p : Prog Op Ans α} {Q : α → σ → Prop} {s : σ}
    (hA : ∀ o s, A o e s) (h : wp D A K p Q s) : Q (steady D e p s).1 (steady D e p s).2 := by
  induction p generalizing s with
  | ret a => exact h
  | call o k ih => exact ih _ (h.2 e (hA o s))

/-- **A loss of power after `n` calls** leaves the state of the next call; a last event of another kind
changes it as that call does. -/
theorem run_of_callAt {p : Prog Op Ans α} {n : ℕ} {s s' : σ} {o : Op} (h : callAt D e p n s = some (o, s')) :
    run D p (List.replicate n e) s = (s', none) ∧
      ∀ e', (run D p (List.replicate n e ++ [e']) s).1 = (D.act o e' s').1 := by
  induction p generalizing n s with
  | ret a => cases h
  | call o' k ih =>
    cases n with
    | zero =>
      simp only [callAt, Option.some.injEq, Prod.mk.injEq] at h
      obtain ⟨rfl, rfl⟩ := h
      refine ⟨rfl, fun e' => ?_⟩
      have hrun : run D (call o' k) [e'] s = run D (k (D.act o' e' s).2) [] (D.act o' e' s).1 := rfl
      rw [List.replicate_zero, List.nil_append, hrun]
      cases k (D.act o' e' s).2 <;> rfl
    | succ n => exact ih _ h

/-- A run that did not end has a next call. -/
theorem callAt_of_run {p : Prog Op Ans α} {n : ℕ} {s : σ} {es : List Ev}
    (h : (run D p (List.replicate n e ++ es) s).2 = none) : ∃ o s', callAt D e p n s = some (o, s') := by
  induction p generalizing n s with
  | ret a => cases h
  | call o k ih =>
    cases n with
    | zero => exact ⟨o, s, rfl⟩
    | succ n => exact ih _ h

/-! ### What holds at every call -/

/-- The condition holds of every call and the state in which it is made. -/
def Throughout (D : Device Op Ans Ev σ) (e : Ev) (C : Op → σ → Prop) (p : Prog Op Ans α) (s : σ) : Prop :=
  ∀ n o s', callAt D e p n s = some (o, s') → C o s'

variable {C : Op → σ → Prop}

theorem throughout_pure (a : α) (s : σ) : Throughout D e C (pure a : Prog Op Ans α) s := by
  intro n o s' h
  cases h

theorem throughout_op {o : Op} {s : σ} (h : C o s) : Throughout D e C (op o : Prog Op Ans (Ans o)) s := by
  intro n o' s' h'
  cases n with
  | zero =>
    cases h'
    exact h
  | succ n => cases h'

theorem Throughout.bind {p : Prog Op Ans α} {f : α → Prog Op Ans β} {s : σ} (hp : Throughout D e C p s)
    (hf : Throughout D e C (f (steady D e p s).1) (steady D e p s).2) : Throughout D e C (p >>= f) s := by
  intro n o s' h
  rw [callAt_bind] at h
  split at h
  · exact hp n o s' h
  · exact hf _ o s' h

end PowerMonitor.Lib.Steady
