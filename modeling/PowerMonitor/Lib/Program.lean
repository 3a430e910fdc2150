import Mathlib.Tactic.SplitIfs

/-! # Programs over a device that may fail and lose power

A program is a tree of calls to a device. The device answers each call by an *event* the environment
chooses: the call is done, fails, is cut short. A run feeds the program a list of events; when the
list ends before the program does, the power is lost at that point and only the device's state is
left.

* `wp A C p Q s`: from the state `s`, whatever events the assumption `A` admits, every state in which
  a call is about to be made satisfies `C` (so power may be lost there), and if the program ends, its
  value and the final state satisfy `Q`.
* `wp_run`: what `wp` promises of a run all of whose events `A` admits (`Along`).
* `wp_bind`, `wp_mono`, `wp_and`: how specifications compose. -/

namespace PowerMonitor.Lib.Program

/-- A program calling operations `op : Op` answered in `Ans op`, with a value in `α`. -/
inductive Prog (Op : Type) (Ans : Op → Type) (α : Type) : Type
  | ret (a : α)
  | call (op : Op) (k : Ans op → Prog Op Ans α)

/-- A device: the effect of an operation on the state and its answer, under an event. -/
structure Device (Op : Type) (Ans : Op → Type) (Ev σ : Type) where
  act : (op : Op) → Ev → σ → σ × Ans op

variable {Op : Type} {Ans : Op → Type} {Ev σ α β γ : Type}

namespace Prog

/-- Sequential composition. -/
def bind : Prog Op Ans α → (α → Prog Op Ans β) → Prog Op Ans β
  | ret a, f => f a
  | call op k, f => call op fun r => (k r).bind f

/-- The program of a single call. -/
def op (o : Op) : Prog Op Ans (Ans o) := call o ret

instance : Monad (Prog Op Ans) where
  pure := ret
  bind := bind

theorem bind_eq (p : Prog Op Ans α) (f : α → Prog Op Ans β) : p >>= f = p.bind f := rfl

@[simp] theorem ret_bind (a : α) (f : α → Prog Op Ans β) : (ret a).bind f = f a := rfl

@[simp] theorem call_bind (o : Op) (k : Ans o → Prog Op Ans α) (f : α → Prog Op Ans β) :
    (call o k).bind f = call o fun r => (k r).bind f := rfl

@[simp] theorem op_bind (o : Op) (f : Ans o → Prog Op Ans β) : (op o).bind f = call o f := rfl

theorem bind_assoc (p : Prog Op Ans α) (f : α → Prog Op Ans β) (g : β → Prog Op Ans γ) :
    (p.bind f).bind g = p.bind fun a => (f a).bind g := by
  induction p with
  | ret a => rfl
  | call o k ih => simp only [call_bind, ih]

end Prog

open Prog

/-! ### Runs -/

/-- A run of a program on a list of events: the state it leaves and, unless the events (the power)
ran out before the end, its value and the events left over. -/
def run (D : Device Op Ans Ev σ) : Prog Op Ans α → List Ev → σ → σ × Option (α × List Ev)
  | ret a, es, s => (s, some (a, es))
  | call _ _, [], s => (s, none)
  | call o k, e :: es, s => run D (k (D.act o e s).2) es (D.act o e s).1

/-- **A composition, run**: the second program goes on where the first one ends. -/
theorem run_bind (D : Device Op Ans Ev σ) {p : Prog Op Ans α} {f : α → Prog Op Ans β} {es : List Ev} {s : σ} :
    run D (p.bind f) es s =
      match run D p es s with
      | (s', none) => (s', none)
      | (s', some (a, rest)) => run D (f a) rest s' := by
  induction p generalizing es s with
  | ret a => rfl
  | call o k ih =>
    cases es with
    | nil => rfl
    | cons e es => exact ih _

/-- A composition that ends: its parts do. -/
theorem run_bind_some (D : Device Op Ans Ev σ) {p : Prog Op Ans α} {f : α → Prog Op Ans β} {es rest : List Ev}
    {s s' : σ} {b : β} (hrun : run D (p >>= f) es s = (s', some (b, rest))) :
    ∃ a mid s₁, run D p es s = (s₁, some (a, mid)) ∧ run D (f a) mid s₁ = (s', some (b, rest)) := by
  rw [bind_eq, run_bind] at hrun
  cases hp : run D p es s with
  | mk s₁ result =>
    rw [hp] at hrun
    cases result with
    | none => cases hrun
    | some end' => exact ⟨end'.1, end'.2, s₁, rfl, hrun⟩

/-- A call and what follows, run to the end: there is an event for the call. -/
theorem run_op_bind (D : Device Op Ans Ev σ) {o : Op} {f : Ans o → Prog Op Ans α} {es rest : List Ev} {s s' : σ}
    {a : α} (hrun : run D (Prog.op o >>= f) es s = (s', some (a, rest))) :
    ∃ e later, es = e :: later ∧ run D (f (D.act o e s).2) later (D.act o e s).1 = (s', some (a, rest)) := by
  cases es with
  | nil => cases hrun
  | cons e later => exact ⟨e, later, rfl, hrun⟩

/-- Every event of the run is one that `A` admits for its operation in its state. -/
def Along (D : Device Op Ans Ev σ) (A : Op → Ev → σ → Prop) : Prog Op Ans α → List Ev → σ → Prop
  | ret _, _, _ => True
  | call _ _, [], _ => True
  | call o k, e :: es, s => A o e s ∧ Along D A (k (D.act o e s).2) es (D.act o e s).1

instance decidableAlong (D : Device Op Ans Ev σ) (A : Op → Ev → σ → Prop)
    [∀ o e s, Decidable (A o e s)] :
    ∀ (p : Prog Op Ans α) (es : List Ev) (s : σ), Decidable (Along D A p es s)
  | ret _, _, _ => .isTrue trivial
  | call _ _, [], _ => .isTrue trivial
  | call o k, e :: es, s =>
    have := decidableAlong D A (k (D.act o e s).2) es (D.act o e s).1
    inferInstanceAs (Decidable (A o e s ∧ Along D A (k (D.act o e s).2) es (D.act o e s).1))

/-- **The specification of a program** from the state `s`, under the assumption `A` on the events,
with the condition `C` at every call and the condition `Q` at the end. -/
def wp (D : Device Op Ans Ev σ) (A : Op → Ev → σ → Prop) (C : σ → Prop) :
    Prog Op Ans α → (α → σ → Prop) → σ → Prop
  | ret a, Q, s => Q a s
  | call o k, Q, s => C s ∧ ∀ e, A o e s → wp D A C (k (D.act o e s).2) Q (D.act o e s).1

/-- What is left of a run: `C` of the state if the power was lost, `Q` of the value otherwise. -/
def Outcome (C : σ → Prop) (Q : α → σ → Prop) : σ × Option (α × List Ev) → Prop
  | (s, none) => C s
  | (s, some (a, _)) => Q a s

variable {D : Device Op Ans Ev σ} {A A' : Op → Ev → σ → Prop} {C C' : σ → Prop}

theorem Outcome.of_result {Q : α → σ → Prop} {out : σ × Option (α × List Ev)} (h : Outcome C Q out)
    {a : α} {es : List Ev} (hout : out.2 = some (a, es)) : Q a out.1 := by
  obtain ⟨s, result⟩ := out
  subst hout
  exact h

/-- A condition of the state that holds wherever the run ends. -/
theorem Outcome.state {out : σ × Option (α × List Ev)} (h : Outcome C (fun _ => C) out) : C out.1 := by
  obtain ⟨s, none | ⟨a, es⟩⟩ := out
  · exact h
  · exact h

@[simp] theorem wp_ret (a : α) (Q : α → σ → Prop) (s : σ) : wp D A C (ret a) Q s ↔ Q a s := Iff.rfl

@[simp] theorem wp_pure (a : α) (Q : α → σ → Prop) (s : σ) :
    wp D A C (pure a) Q s ↔ Q a s := Iff.rfl

theorem wp_call (o : Op) (k : Ans o → Prog Op Ans α) (Q : α → σ → Prop) (s : σ) :
    wp D A C (call o k) Q s ↔
      C s ∧ ∀ e, A o e s → wp D A C (k (D.act o e s).2) Q (D.act o e s).1 := Iff.rfl

theorem wp_op (o : Op) (Q : Ans o → σ → Prop) (s : σ) :
    wp D A C (op o) Q s ↔ C s ∧ ∀ e, A o e s → Q (D.act o e s).2 (D.act o e s).1 := Iff.rfl

/-- Events that are admitted whatever the operation and the state. -/
theorem along_of_forall (p : Prog Op Ans α) : ∀ {es : List Ev} (s : σ),
    (∀ e ∈ es, ∀ o s, A o e s) → Along D A p es s := by
  induction p with
  | ret a => intro es s _; trivial
  | call o k ih =>
    intro es s h
    cases es with
    | nil => trivial
    | cons e es =>
      exact ⟨h e List.mem_cons_self o s, ih _ _ fun e' he' => h e' (List.mem_cons_of_mem _ he')⟩

/-- **A specified program, run**: whatever the events and wherever the power is lost. -/
theorem wp_run {p : Prog Op Ans α} {Q : α → σ → Prop} : ∀ {es : List Ev} {s : σ},
    wp D A C p Q s → Along D A p es s → Outcome C Q (run D p es s) := by
  induction p with
  | ret a => intro es s h _; exact h
  | call o k ih =>
    intro es s h hA
    cases es with
    | nil => exact h.1
    | cons e es => exact ih _ (h.2 e hA.1) hA.2

theorem wp_mono {p : Prog Op Ans α} {Q Q' : α → σ → Prop} {s : σ} (hC : ∀ s, C s → C' s)
    (hQ : ∀ a s, Q a s → Q' a s) (h : wp D A C p Q s) : wp D A C' p Q' s := by
  induction p generalizing s with
  | ret a => exact hQ a s h
  | call o k ih => exact ⟨hC s h.1, fun e he => ih _ (h.2 e he)⟩

theorem wp_post {p : Prog Op Ans α} {Q Q' : α → σ → Prop} {s : σ}
    (h : wp D A C p Q s) (hQ : ∀ a s, Q a s → Q' a s) : wp D A C p Q' s :=
  wp_mono (fun _ h => h) hQ h

/-- Fewer events to account for. -/
theorem wp_assume {p : Prog Op Ans α} {Q : α → σ → Prop} {s : σ}
    (hA : ∀ o e s, A' o e s → A o e s) (h : wp D A C p Q s) : wp D A' C p Q s := by
  induction p generalizing s with
  | ret a => exact h
  | call o k ih => exact ⟨h.1, fun e he => ih _ (h.2 e (hA o e s he))⟩

/-- **Composition**: the first program's end is the second one's start. -/
theorem wp_bind {p : Prog Op Ans α} {f : α → Prog Op Ans β} {Q : β → σ → Prop} {s : σ} :
    wp D A C (p.bind f) Q s ↔ wp D A C p (fun a s => wp D A C (f a) Q s) s := by
  induction p generalizing s with
  | ret a => exact Iff.rfl
  | call o k ih => simp only [call_bind, wp_call, ih]

theorem wp_bind' {p : Prog Op Ans α} {f : α → Prog Op Ans β} {Q : β → σ → Prop} {s : σ} :
    wp D A C (p >>= f) Q s ↔ wp D A C p (fun a s => wp D A C (f a) Q s) s := wp_bind

theorem wp_ite {c : Prop} [Decidable c] {p q : Prog Op Ans α} {Q : α → σ → Prop} {s : σ} :
    wp D A C (if c then p else q) Q s ↔ if c then wp D A C p Q s else wp D A C q Q s := by
  split_ifs <;> rfl

theorem wp_and {p : Prog Op Ans α} {Q Q' : α → σ → Prop} {s : σ}
    (h : wp D A C p Q s) (h' : wp D A C' p Q' s) :
    wp D A (fun s => C s ∧ C' s) p (fun a s => Q a s ∧ Q' a s) s := by
  induction p generalizing s with
  | ret a => exact ⟨h, h'⟩
  | call o k ih => exact ⟨⟨h.1, h'.1⟩, fun e he => ih _ (h.2 e he) (h'.2 e he)⟩

/-! ### What a program may call -/

/-- Every operation the program may call satisfies `P`. -/
def Prog.All (P : Op → Prop) : Prog Op Ans α → Prop
  | ret _ => True
  | call o k => P o ∧ ∀ r, (k r).All P

variable {P : Op → Prop}

@[simp] theorem Prog.all_pure (a : α) : (pure a : Prog Op Ans α).All P := trivial

@[simp] theorem Prog.all_op (o : Op) : (op o : Prog Op Ans (Ans o)).All P ↔ P o :=
  ⟨fun h => h.1, fun h => ⟨h, fun _ => trivial⟩⟩

theorem Prog.All.bind {p : Prog Op Ans α} {f : α → Prog Op Ans β} (hp : p.All P) (hf : ∀ a, (f a).All P) :
    (p >>= f).All P := by
  induction p with
  | ret a => exact hf a
  | call o k ih => exact ⟨hp.1, fun r => ih r (hp.2 r)⟩

theorem Prog.All.mono {P' : Op → Prop} (h : ∀ o, P o → P' o) {p : Prog Op Ans α} (hp : p.All P) :
    p.All P' := by
  induction p with
  | ret a => trivial
  | call o k ih => exact ⟨h o hp.1, fun r => ih r (hp.2 r)⟩

/-- **An invariant of the operations a program may call** holds throughout and at its end. -/
theorem wp_of_all {I : σ → Prop} (hstep : ∀ o e s, P o → A o e s → I s → I (D.act o e s).1)
    {p : Prog Op Ans α} (hp : p.All P) {s : σ} (hs : I s) : wp D A I p (fun _ => I) s := by
  induction p generalizing s with
  | ret a => exact hs
  | call o k ih => exact ⟨hs, fun e he => ih _ (hp.2 _) (hstep o e s hp.1 he hs)⟩

/-- **Fewer events to account for while an invariant holds** that the operations keep. -/
theorem wp_assume_of_all {I : σ → Prop} {p : Prog Op Ans α} {Q : α → σ → Prop}
    (hstep : ∀ o e s, P o → A' o e s → I s → I (D.act o e s).1)
    (hA : ∀ o e s, P o → I s → A' o e s → A o e s) (hp : p.All P) {s : σ} (hs : I s)
    (h : wp D A C p Q s) : wp D A' C p Q s := by
  induction p generalizing s with
  | ret a => exact h
  | call o k ih =>
    refine ⟨h.1, fun e he => ?_⟩
    exact ih _ (hp.2 _) (hstep o e s hp.1 he hs) (h.2 e (hA o e s hp.1 hs he))

/-! ### What a program may return -/

/-- Every value the program may return satisfies `R`, whatever its calls answer. -/
def Prog.Returns (R : α → Prop) : Prog Op Ans α → Prop
  | ret a => R a
  | call _ k => ∀ r, (k r).Returns R

variable {R : α → Prop}

@[simp] theorem Prog.returns_pure (a : α) : (pure a : Prog Op Ans α).Returns R ↔ R a := Iff.rfl

theorem Prog.Returns.mono {R' : α → Prop} (h : ∀ a, R a → R' a) {p : Prog Op Ans α} (hp : p.Returns R) :
    p.Returns R' := by
  induction p with
  | ret a => exact h a hp
  | call o k ih => exact fun r => ih r (hp r)

theorem Prog.returns_true (p : Prog Op Ans α) : p.Returns fun _ => True := by
  induction p with
  | ret a => trivial
  | call o k ih => exact ih

theorem Prog.Returns.bind {R' : β → Prop} {p : Prog Op Ans α} {f : α → Prog Op Ans β} (hp : p.Returns R)
    (hf : ∀ a, R a → (f a).Returns R') : (p >>= f).Returns R' := by
  induction p with
  | ret a => exact hf a hp
  | call o k ih => exact fun r => ih r (hp r)

/-- After a part whose value does not matter. -/
theorem Prog.returns_bind {R : β → Prop} {p : Prog Op Ans α} {f : α → Prog Op Ans β}
    (hf : ∀ a, (f a).Returns R) : (p >>= f).Returns R := p.returns_true.bind fun a _ => hf a

theorem Prog.returns_ite {c : Prop} [Decidable c] {p q : Prog Op Ans α} (hp : c → p.Returns R)
    (hq : ¬ c → q.Returns R) : (if c then p else q).Returns R := by
  split_ifs with hc
  · exact hp hc
  · exact hq hc

/-- The values that a program may return are those of its runs. -/
theorem Prog.Returns.wp {A : Op → Ev → σ → Prop} {p : Prog Op Ans α} (hp : p.Returns R) :
    ∀ s : σ, wp D A (fun _ => True) p (fun a _ => R a) s := by
  induction p with
  | ret a => exact fun s => hp
  | call o k ih => exact fun s => ⟨trivial, fun e _ => ih _ (hp _) _⟩

/-- **What a run returns is what the program may return.** -/
theorem Prog.Returns.of_run {p : Prog Op Ans α} (hp : p.Returns R) {es rest : List Ev} {s : σ} {a : α}
    (h : (run D p es s).2 = some (a, rest)) : R a := by
  induction p generalizing es s with
  | ret b =>
    cases h
    exact hp
  | call o k ih =>
    cases es with
    | nil => cases h
    | cons e es => exact ih _ (hp _) h

end PowerMonitor.Lib.Program
