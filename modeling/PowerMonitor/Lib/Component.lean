import PowerMonitor.Lib.Program

/-! # A component of a device

A program of one component runs on the whole device (`component`). What is specified of it there holds of
the component's part of the state, whatever holds of the rest and is kept by its operations
(`wp_component`). -/

namespace PowerMonitor.Lib.Component

open PowerMonitor.Lib.Program PowerMonitor.Lib.Program.Prog

variable {Op Op' : Type} {Ans : Op → Type} {Ans' : Op' → Type} {Ev Ev' σ σ' α : Type}

/-- How the operations of a component are operations of the whole. -/
structure Inclusion (Op Op' : Type) (Ans : Op → Type) (Ans' : Op' → Type) where
  op : Op → Op'
  answer : ∀ o, Ans' (op o) → Ans o

/-- The program of the component, run on the whole. -/
def component (i : Inclusion Op Op' Ans Ans') : Prog Op Ans α → Prog Op' Ans' α
  | ret a => ret a
  | call o k => call (i.op o) fun r => component i (k (i.answer o r))

variable {i : Inclusion Op Op' Ans Ans'} {D : Device Op Ans Ev σ} {D' : Device Op' Ans' Ev' σ'}
variable {part : σ' → σ} {A : Op → Ev → σ → Prop} {A' : Op' → Ev' → σ' → Prop} {I : σ' → Prop}

/-- An event of the whole acts on the component as one of its own. -/
def Acts (i : Inclusion Op Op' Ans Ans') (D : Device Op Ans Ev σ) (D' : Device Op' Ans' Ev' σ') (part : σ' → σ)
    (o : Op) (e' : Ev') (e : Ev) (s : σ') : Prop :=
  part (D'.act (i.op o) e' s).1 = (D.act o e (part s)).1 ∧
    i.answer o (D'.act (i.op o) e' s).2 = (D.act o e (part s)).2

/-- The whole is only called for the component. -/
theorem all_component {P : Op' → Prop} (h : ∀ o, P (i.op o)) (p : Prog Op Ans α) : (component i p).All P := by
  induction p with
  | ret a => trivial
  | call o k ih => exact ⟨h o, fun r => ih _⟩

/-- **A specification of the component holds on the whole.** -/
theorem wp_component {C : σ → Prop} {Q : α → σ → Prop}
    (hact : ∀ o e' s, A' (i.op o) e' s → I s →
      (∃ e, A o e (part s) ∧ Acts i D D' part o e' e s) ∧ I (D'.act (i.op o) e' s).1)
    {p : Prog Op Ans α} {s : σ'} (hs : I s) (h : wp D A C p Q (part s)) :
    wp D' A' (fun s => C (part s) ∧ I s) (component i p) (fun a s => Q a (part s) ∧ I s) s := by
  induction p generalizing s with
  | ret a => exact ⟨h, hs⟩
  | call o k ih =>
    refine ⟨⟨h.1, hs⟩, fun e' he' => ?_⟩
    obtain ⟨⟨e, he, hpart, hanswer⟩, hI⟩ := hact o e' s he' hs
    refine ih _ hI ?_
    rw [hpart, hanswer]
    exact h.2 e he

end PowerMonitor.Lib.Component
