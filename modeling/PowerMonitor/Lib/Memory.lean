import PowerMonitor.Lib.Program

/-! # Programs with a memory of their own

A program over a device may keep a memory beside it, which is lost with the power: a program in `StateT τ`. Its
specification speaks of the memory only where the program ends; where a call is made, only of the device.

* `spec`: the specification of such a program, from a memory and a state of the device.
* `spec_bind`, `spec_op`, `spec_post`: how specifications compose.
* `Keeps`: an invariant of the memory and the device, and how it is kept along a program.
* `spec_run`: what a specification promises of a run. -/

namespace PowerMonitor.Lib.Memory

open PowerMonitor.Lib.Program PowerMonitor.Lib.Program.Prog

variable {Op : Type} {Ans : Op → Type} {Ev σ τ α β : Type}

/-- A program with a memory in `τ`. -/
abbrev MemProg (τ Op : Type) (Ans : Op → Type) (α : Type) := StateT τ (Prog Op Ans) α

/-- The call of an operation. -/
def perform (o : Op) : MemProg τ Op Ans (Ans o) := StateT.lift (op o)

/-- **The specification of a program with a memory**: `C` of the device at every call, `Q` of the value, the memory
and the device at the end. -/
def spec (D : Device Op Ans Ev σ) (A : Op → Ev → σ → Prop) (C : σ → Prop) (p : MemProg τ Op Ans α)
    (Q : α → τ → σ → Prop) (t : τ) (s : σ) : Prop :=
  wp D A C (p.run t) (fun r s => Q r.1 r.2 s) s

variable {D : Device Op Ans Ev σ} {A : Op → Ev → σ → Prop} {C : σ → Prop} {Q Q' : α → τ → σ → Prop} {t : τ} {s : σ}

@[simp] theorem spec_pure (a : α) : spec D A C (pure a) Q t s ↔ Q a t s := Iff.rfl

/-- **Composition**: the first program's end is the second one's start. -/
@[simp] theorem spec_bind {p : MemProg τ Op Ans α} {f : α → MemProg τ Op Ans β} {Q : β → τ → σ → Prop} :
    spec D A C (p >>= f) Q t s ↔ spec D A C p (fun a t s => spec D A C (f a) Q t s) t s :=
  wp_bind

@[simp] theorem spec_get {Q : τ → τ → σ → Prop} : spec D A C get Q t s ↔ Q t t s := Iff.rfl

@[simp] theorem spec_modify {Q : PUnit → τ → σ → Prop} (f : τ → τ) :
    spec D A C (modify f) Q t s ↔ Q ⟨⟩ (f t) s := Iff.rfl

theorem spec_perform {o : Op} {Q : Ans o → τ → σ → Prop} :
    spec D A C (perform o) Q t s ↔ C s ∧ ∀ e, A o e s → Q (D.act o e s).2 t (D.act o e s).1 := Iff.rfl

theorem spec_ite {c : Prop} [Decidable c] {p q : MemProg τ Op Ans α} :
    spec D A C (if c then p else q) Q t s ↔ if c then spec D A C p Q t s else spec D A C q Q t s := by
  split_ifs <;> rfl

theorem spec_mono {C' : σ → Prop} {p : MemProg τ Op Ans α} (h : spec D A C p Q t s) (hC : ∀ s, C s → C' s)
    (hQ : ∀ a t s, Q a t s → Q' a t s) : spec D A C' p Q' t s :=
  wp_mono hC (fun r s => hQ r.1 r.2 s) h

theorem spec_post {p : MemProg τ Op Ans α} (h : spec D A C p Q t s) (hQ : ∀ a t s, Q a t s → Q' a t s) :
    spec D A C p Q' t s :=
  wp_post h fun r s => hQ r.1 r.2 s

/-- **A specified program, run**: whatever the events, and wherever the power is lost. -/
theorem spec_run {p : MemProg τ Op Ans α} {es : List Ev} (h : spec D A C p Q t s) (hA : Along D A (p.run t) es s) :
    Outcome C (fun r s => Q r.1 r.2 s) (run D (p.run t) es s) :=
  wp_run h hA

/-! ### Invariants -/

/-- The program keeps an invariant `I` of the memory and the device, with `C` of the device at every call. -/
def Keeps (D : Device Op Ans Ev σ) (A : Op → Ev → σ → Prop) (C : σ → Prop) (I : τ → σ → Prop)
    (p : MemProg τ Op Ans α) : Prop :=
  ∀ t s, I t s → spec D A C p (fun _ => I) t s

variable {I : τ → σ → Prop}

theorem keeps_pure (a : α) : Keeps D A C I (pure a) := fun _ _ h => h

theorem keeps_get : Keeps D A C I (get : MemProg τ Op Ans τ) := fun _ _ h => h

theorem keeps_modify {f : τ → τ} (h : ∀ t s, I t s → I (f t) s) :
    Keeps D A C I (modify f : MemProg τ Op Ans PUnit) := fun t s ht => h t s ht

theorem keeps_perform {o : Op} (hC : ∀ t s, I t s → C s) (h : ∀ t s e, A o e s → I t s → I t (D.act o e s).1) :
    Keeps D A C I (perform o) := fun t s ht => ⟨hC t s ht, fun e he => h t s e he ht⟩

theorem Keeps.bind {p : MemProg τ Op Ans α} {f : α → MemProg τ Op Ans β} (hp : Keeps D A C I p)
    (hf : ∀ a, Keeps D A C I (f a)) : Keeps D A C I (p >>= f) := fun t s h =>
  spec_bind.mpr (spec_post (hp t s h) fun a t s h => hf a t s h)

theorem Keeps.ite {c : Prop} [Decidable c] {p q : MemProg τ Op Ans α} (hp : Keeps D A C I p) (hq : Keeps D A C I q) :
    Keeps D A C I (if c then p else q) := by
  split_ifs
  · exact hp
  · exact hq

end PowerMonitor.Lib.Memory
