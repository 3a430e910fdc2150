import Mathlib.Data.List.Basic
import Mathlib.Order.Nat
import Mathlib.Tactic.Common

/-! # Machines on a clock

A machine takes one input after another; each input tells when the machine begins with it and when it is done. What the
machine does with an input it writes on a trace.

* `inv_run`: what every step keeps, with the time, every run keeps.
* `keeps_until`: what the steps keep before a deadline, they keep as long as all of them begin before it.
* `accepts_trace`: an observer that follows every step follows the trace of every run. -/

namespace PowerMonitor.Lib.Ticks

variable {ι σ ω γ : Type*}

/-- The state after the inputs. -/
def run (step : ι → σ → σ × List ω) (s : σ) : List ι → σ
  | [] => s
  | e :: es => run step (step e s).1 es

/-- What is done with the inputs. -/
def trace (step : ι → σ → σ × List ω) (s : σ) : List ι → List ω
  | [] => []
  | e :: es => (step e s).2 ++ trace step (step e s).1 es

/-- From a time on, the inputs come one after another. -/
def Ordered (start finish : ι → ℕ) : ℕ → List ι → Prop
  | _, [] => True
  | t, e :: es => t ≤ start e ∧ start e ≤ finish e ∧ Ordered start finish (finish e) es

/-- When the inputs are done with. -/
def time (finish : ι → ℕ) : ℕ → List ι → ℕ
  | t, [] => t
  | _, e :: es => time finish (finish e) es

section Run

variable {step : ι → σ → σ × List ω} {s : σ}

@[simp] theorem run_nil : run step s [] = s := rfl

@[simp] theorem run_cons {e : ι} {es : List ι} : run step s (e :: es) = run step (step e s).1 es := rfl

@[simp] theorem trace_nil : trace step s [] = [] := rfl

@[simp] theorem trace_cons {e : ι} {es : List ι} :
    trace step s (e :: es) = (step e s).2 ++ trace step (step e s).1 es := rfl

theorem run_append (es es' : List ι) : run step s (es ++ es') = run step (run step s es) es' := by
  induction es generalizing s with
  | nil => rfl
  | cons e es ih => exact ih

theorem trace_append (es es' : List ι) :
    trace step s (es ++ es') = trace step s es ++ trace step (run step s es) es' := by
  induction es generalizing s with
  | nil => rfl
  | cons e es ih => rw [List.cons_append, trace_cons, ih, trace_cons, List.append_assoc, run_cons]

end Run

section Order

variable {start finish : ι → ℕ} {t : ℕ}

theorem Ordered.le_time {es : List ι} (h : Ordered start finish t es) : t ≤ time finish t es := by
  induction es generalizing t with
  | nil => exact le_refl t
  | cons e es ih => exact (h.1.trans h.2.1).trans (ih h.2.2)

theorem Ordered.append {es es' : List ι} (h : Ordered start finish t (es ++ es')) :
    Ordered start finish t es ∧ Ordered start finish (time finish t es) es' := by
  induction es generalizing t with
  | nil => exact ⟨trivial, h⟩
  | cons e es ih =>
    obtain ⟨htail, hrest⟩ := ih h.2.2
    exact ⟨⟨h.1, h.2.1, htail⟩, hrest⟩

/-- No input begins before the time from which they come. -/
theorem Ordered.le_start {es : List ι} (h : Ordered start finish t es) {e : ι} (he : e ∈ es) : t ≤ start e := by
  induction es generalizing t with
  | nil => exact absurd he List.not_mem_nil
  | cons e' es ih =>
    rcases List.mem_cons.mp he with rfl | hrest
    · exact h.1
    · have hlater : finish e' ≤ start e := ih h.2.2 hrest
      have hdone : t ≤ finish e' := h.1.trans h.2.1
      omega

end Order

section Rules

variable {step : ι → σ → σ × List ω} {start finish : ι → ℕ}

/-- **What every step keeps, with the time, every run keeps**; `A` is what is assumed of the inputs. -/
theorem inv_run {I : ℕ → σ → Prop} {A : ι → Prop}
    (hstep : ∀ t e s, A e → I t s → t ≤ start e → start e ≤ finish e → I (finish e) (step e s).1)
    {es : List ι} {t : ℕ} {s : σ} (h : I t s) (hA : ∀ e ∈ es, A e) (hordered : Ordered start finish t es) :
    I (time finish t es) (run step s es) := by
  induction es generalizing t s with
  | nil => exact h
  | cons e es ih =>
    have hnext : I (finish e) (step e s).1 := hstep t e s (hA e List.mem_cons_self) h hordered.1 hordered.2.1
    exact ih hnext (fun e' he' => hA e' (List.mem_cons_of_mem e he')) hordered.2.2

/-- **What the steps keep before a deadline** they keep as long as all of them begin before it, and what they do until
then has the property `Q`. -/
theorem keeps_until {P : σ → Prop} {A : ι → Prop} {Q : ω → Prop} {deadline : ℕ}
    (hstep : ∀ e s, A e → start e < deadline → P s → P (step e s).1 ∧ ∀ o ∈ (step e s).2, Q o)
    {es : List ι} {s : σ} (h : P s) (hA : ∀ e ∈ es, A e) (hbefore : ∀ e ∈ es, start e < deadline) :
    ∀ o ∈ trace step s es, Q o := by
  induction es generalizing s with
  | nil =>
    intro o ho
    exact absurd ho List.not_mem_nil
  | cons e es ih =>
    intro o ho
    obtain ⟨hkept, hdone⟩ := hstep e s (hA e List.mem_cons_self) (hbefore e List.mem_cons_self) h
    rcases List.mem_append.mp ho with hnow | hlater
    · exact hdone o hnow
    · exact ih hkept (fun e' he' => hA e' (List.mem_cons_of_mem e he'))
        (fun e' he' => hbefore e' (List.mem_cons_of_mem e he')) o hlater

/-- **An observer that follows every step** follows the trace of every run, and knows its end. -/
theorem accepts_trace {follow : γ → ω → Option γ} {view : σ → γ}
    (hstep : ∀ e s, (step e s).2.foldlM follow (view s) = some (view (step e s).1)) (s : σ) (es : List ι) :
    (trace step s es).foldlM follow (view s) = some (view (run step s es)) := by
  induction es generalizing s with
  | nil => rfl
  | cons e es ih =>
    rw [trace_cons, List.foldlM_append, hstep e s]
    exact ih (step e s).1

end Rules

end PowerMonitor.Lib.Ticks
