import PowerMonitor.Lib.Program

/-! # Programs that may stop with an error

A program of `Prog` whose steps may stop it with an error is one in `ExceptT ε Prog`. -/

namespace PowerMonitor.Lib.Checked

open PowerMonitor.Lib.Program PowerMonitor.Lib.Program.Prog

variable {Op : Type} {Ans : Op → Type} {ε : Type}

/-- A program that may stop with an error. -/
abbrev CheckedProg (Op : Type) (Ans : Op → Type) (ε α : Type) := ExceptT ε (Prog Op Ans) α

/-- Stops unless the condition holds. -/
def require (c : Bool) (e : ε) : CheckedProg Op Ans ε Unit := if c then pure () else throw e

end PowerMonitor.Lib.Checked
