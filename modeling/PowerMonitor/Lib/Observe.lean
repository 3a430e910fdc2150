import PowerMonitor.Lib.Program

/-! # Observing a run

A device is extended by what is observed of its calls. The run is the same (`run_observe`); a
specification may speak of the observation (`of_wp_observe`), which no program can read. -/

namespace PowerMonitor.Lib.Observe

open PowerMonitor.Lib.Program PowerMonitor.Lib.Program.Prog

variable {Op : Type} {Ans : Op → Type} {Ev σ γ α : Type}

/-- The device, observed: `f` is what a call adds to the observation. -/
def observe (D : Device Op Ans Ev σ) (f : Op → Ev → σ → γ → γ) : Device Op Ans Ev (σ × γ) where
  act o e s := (((D.act o e s.1).1, f o e s.1 s.2), (D.act o e s.1).2)

/-- What is observed of a run. -/
def observed (D : Device Op Ans Ev σ) (f : Op → Ev → σ → γ → γ) (p : Prog Op Ans α) (es : List Ev) (s : σ)
    (g : γ) : γ := (run (observe D f) p es (s, g)).1.2

variable {D : Device Op Ans Ev σ} {f : Op → Ev → σ → γ → γ} {A : Op → Ev → σ → Prop}

theorem run_observe (p : Prog Op Ans α) (es : List Ev) (s : σ) (g : γ) :
    run (observe D f) p es (s, g) = (((run D p es s).1, observed D f p es s g), (run D p es s).2) := by
  induction p generalizing es s g with
  | ret a => rfl
  | call o k ih =>
    cases es with
    | nil => rfl
    | cons e es => exact ih _ es _ _

theorem along_observe (p : Prog Op Ans α) (es : List Ev) (s : σ) (g : γ) :
    Along (observe D f) (fun o e s => A o e s.1) p es (s, g) ↔ Along D A p es s := by
  induction p generalizing es s g with
  | ret a => exact Iff.rfl
  | call o k ih =>
    cases es with
    | nil => exact Iff.rfl
    | cons e es => exact and_congr_right fun _ => ih _ es _ _

/-- **What is proved of the observed device holds of a run and its observation.** -/
theorem of_wp_observe {C : σ × γ → Prop} {p : Prog Op Ans α} {Q : α → σ × γ → Prop} {es rest : List Ev}
    {s s' : σ} {g : γ} {a : α} (h : wp (observe D f) (fun o e s => A o e s.1) C p Q (s, g))
    (halong : Along D A p es s) (hrun : run D p es s = (s', some (a, rest))) :
    Q a (s', observed D f p es s g) := by
  have hout := wp_run h ((along_observe p es s g).mpr halong)
  rw [run_observe, hrun] at hout
  exact hout

end PowerMonitor.Lib.Observe
