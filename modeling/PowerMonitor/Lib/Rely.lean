import PowerMonitor.Lib.Program

/-! # Programs beside other programs

A program that shares its device with others is interrupted between any two calls: what is known of the rest of it is
all that holds then. Two facts about the rest of a program, to be kept from call to call.

* `Under P G R`: while the answers are ones that `G` admits, every call satisfies `P`, and the value satisfies `R`.
* `Each P`: every call, together with what comes after it, satisfies `P`. -/

namespace PowerMonitor.Lib.Program

open Prog

variable {Op : Type} {Ans : Op → Type} {α β : Type}

/-! ### While the answers are as they should be -/

/-- While the answers are ones that `G` admits, every call satisfies `P`, and the value satisfies `R`. -/
def Prog.Under (P : Op → Prop) (G : (o : Op) → Ans o → Prop) (R : α → Prop) : Prog Op Ans α → Prop
  | ret a => R a
  | call o k => P o ∧ ∀ r, G o r → (k r).Under P G R

section Under

variable {P : Op → Prop} {G : (o : Op) → Ans o → Prop} {R : α → Prop} {R' : β → Prop}

theorem Prog.under_op {o : Op} {f : Ans o → Prog Op Ans β} (ho : P o) (hf : ∀ r, G o r → (f r).Under P G R') :
    (op o >>= f).Under P G R' := ⟨ho, hf⟩

theorem Prog.Under.bind {p : Prog Op Ans α} {f : α → Prog Op Ans β} (hp : p.Under P G R)
    (hf : ∀ a, R a → (f a).Under P G R') : (p >>= f).Under P G R' := by
  induction p with
  | ret a => exact hf a hp
  | call o k ih => exact ⟨hp.1, fun r hr => ih r (hp.2 r hr)⟩

theorem Prog.under_ite {c : Prop} [Decidable c] {p q : Prog Op Ans α} (hp : c → p.Under P G R)
    (hq : ¬ c → q.Under P G R) : (if c then p else q).Under P G R := by
  split
  · next hc => exact hp hc
  · next hc => exact hq hc

end Under

/-! ### What comes after a call -/

/-- Every call, together with what comes after it, satisfies `P`. -/
def Prog.Each (P : (o : Op) → (Ans o → Prog Op Ans α) → Prop) : Prog Op Ans α → Prop
  | ret _ => True
  | call o k => P o k ∧ ∀ r, (k r).Each P

section Each

variable {P : (o : Op) → (Ans o → Prog Op Ans α) → Prop} {N : Op → Prop}

theorem Prog.each_op {o : Op} {f : Ans o → Prog Op Ans α} (ho : P o f) (hf : ∀ r, (f r).Each P) :
    (op o >>= f).Each P := ⟨ho, hf⟩

theorem Prog.All.each {p : Prog Op Ans α} (hN : ∀ o k, N o → P o k) (hp : p.All N) : p.Each P := by
  induction p with
  | ret a => trivial
  | call o k ih => exact ⟨hN o k hp.1, fun r => ih r (hp.2 r)⟩

/-- A first part whose calls satisfy `P` whatever comes after them. -/
theorem Prog.All.each_bind {p : Prog Op Ans β} {f : β → Prog Op Ans α} (hN : ∀ o k, N o → P o k) (hp : p.All N)
    (hf : ∀ b, (f b).Each P) : (p >>= f).Each P := by
  induction p with
  | ret b => exact hf b
  | call o k ih => exact ⟨hN o _ hp.1, fun r => ih r (hp.2 r)⟩

theorem Prog.each_ite {c : Prop} [Decidable c] {p q : Prog Op Ans α} (hp : p.Each P) (hq : q.Each P) :
    (if c then p else q).Each P := by
  split
  · exact hp
  · exact hq

theorem Prog.all_ite {c : Prop} [Decidable c] {p q : Prog Op Ans α} (hp : p.All N) (hq : q.All N) :
    (if c then p else q).All N := by
  split
  · exact hp
  · exact hq

theorem Prog.all_op_bind {o : Op} {f : Ans o → Prog Op Ans α} (ho : N o) (hf : ∀ r, (f r).All N) :
    (op o >>= f).All N := ⟨ho, hf⟩

end Each

end PowerMonitor.Lib.Program
