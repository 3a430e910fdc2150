import Mathlib.Logic.Relation
import PowerMonitor.Lib.Gate

/-! # The admission of readings

While a data reset owns the admission, no reading may be sent. A thread that sends readings takes a lease: it looks
whether a reset owns the admission, counts itself, looks again, and only then sends. The reset claims the admission
and waits until the counter shows zero. The steps are the single atomic operations of the threads, in any order.

The counter has 32 bits. While fewer than `2 ^ 32` threads are counted, no thread holds a lease once the reset has
waited (`exclusive`); with `2 ^ 32` of them the counter shows zero while all hold one (`overlap`). -/

namespace PowerMonitor.Reset.Admission

open Relation (ReflTransGen)
open PowerMonitor.Lib

/-! ### The threads -/

inductive AdmissionOwner
  | idle | reset | disruptiveOperation
  deriving DecidableEq, Repr

/-- Where a thread is in `tryBeginReadingSync` and `finishReadingSync`. -/
inductive Phase
  | outside
  /-- No reset was active at the first look. -/
  | looked
  /-- The counter is incremented. -/
  | added
  /-- `tryBeginReadingSync` returned true. -/
  | holding
  /-- In `finishReadingSync`, before the counter is loaded. -/
  | finishing
  /-- The counter was loaded, and is exchanged if it is still the same. -/
  | exchanging (current : UInt32)
  deriving DecidableEq

/-- The admission, the counter, the threads, and how far the reset is: it has claimed the admission, and it has
read zero since. -/
structure World (T : Type*) where
  owner : AdmissionOwner := .idle
  inFlight : UInt32 := 0
  phase : T → Phase := fun _ => .outside
  claimed : Bool := false
  waited : Bool := false

variable {T : Type*} [DecidableEq T]

def World.move (w : World T) (t : T) (p : Phase) : World T := { w with phase := Function.update w.phase t p }

/-- The loop of `finishReadingSync` goes on with a counter that is not zero. -/
def loaded (current : UInt32) : Phase := if current = 0 then .outside else .exchanging current

/-- One atomic operation. -/
inductive Step (w : World T) : World T → Prop
  /-- `tryBeginReadingSync`: the first look. -/
  | look (t : T) (h : w.phase t = .outside) :
      Step w (w.move t (if w.owner = .reset then .outside else .looked))
  | fetchAdd (t : T) (h : w.phase t = .looked) : Step w { w.move t .added with inFlight := w.inFlight + 1 }
  /-- The second look: a reset that claimed in between wins. -/
  | lookAgain (t : T) (h : w.phase t = .added) :
      Step w (w.move t (if w.owner = .reset then .finishing else .holding))
  /-- The lease ends. -/
  | finish (t : T) (h : w.phase t = .holding) : Step w (w.move t .finishing)
  | load (t : T) (h : w.phase t = .finishing) : Step w (w.move t (loaded w.inFlight))
  | exchange (t : T) (h : w.phase t = .exchanging w.inFlight) :
      Step w { w.move t .outside with inFlight := w.inFlight - 1 }
  /-- The exchange fails, also without a reason. -/
  | retry (t : T) (current : UInt32) (h : w.phase t = .exchanging current) : Step w (w.move t (loaded w.inFlight))
  | claimResetAdmission (h : w.owner = .idle ∨ w.owner = .reset) : Step w { w with owner := .reset, claimed := true }
  /-- The reset reads the counter. -/
  | readingSyncInFlight (h : w.claimed = true) : Step w { w with waited := w.waited || w.inFlight == 0 }
  | releaseResetAdmission :
      Step w { w with owner := if w.owner = .reset then .idle else w.owner, claimed := false, waited := false }
  | claimDisruptiveAdmission (h : w.owner = .idle) : Step w { w with owner := .disruptiveOperation }
  | releaseDisruptiveAdmission (h : w.owner = .disruptiveOperation) : Step w { w with owner := .idle }

/-! ### The gate -/

/-- Where a thread is at the gate. -/
def Phase.gate : Phase → Gate.Phase
  | .outside | .looked => .outside
  | .added => .entering
  | .holding => .inside
  | .finishing | .exchanging _ => .leaving

/-- The admission as a gate that the reset closes. -/
def World.gate (w : World T) : Gate.State T where
  closed := w.claimed
  sealed := w.waited
  count := w.inFlight.toNat
  phase := fun t => (w.phase t).gate

/-- The threads that have incremented the counter and not decremented it yet. -/
def World.counted (w : World T) : Set T := Gate.counted w.gate

/-- Fewer threads are counted than the counter can show. -/
def Few (w : World T) : Prop := Gate.Few (2 ^ 32) w.gate

/-- A step after which few threads are counted. -/
def FewStep (w w' : World T) : Prop := Step w w' ∧ Few w'

/-- The gate's invariant, with the admission of a reset that has claimed it. -/
structure Sound (w : World T) : Prop where
  gate : Gate.Inv w.gate
  owner : w.claimed = true → w.owner = .reset

variable {w w' : World T}

theorem gate_move (w : World T) (t : T) (p : Phase) : (w.move t p).gate = w.gate.move t p.gate := by
  have hphase : (fun u => (Function.update w.phase t p u).gate) =
      Function.update (fun u => (w.phase u).gate) t p.gate := by
    funext u
    by_cases hu : u = t
    · subst hu
      simp
    · simp [hu]
  simp only [World.gate, World.move, Gate.State.move, hphase]

/-- The move of a thread that stays where it is at the gate. -/
theorem gate_stay {t : T} {p : Phase} (h : p.gate = (w.phase t).gate) : (w.move t p).gate = w.gate := by
  rw [gate_move, h]
  simp [Gate.State.move, World.gate]

omit [DecidableEq T] in
theorem gate_loaded (h : Sound w) {t : T} (ht : (w.phase t).gate = .leaving) : (loaded w.inFlight).gate = .leaving := by
  have hpos : 0 < w.inFlight.toNat := h.gate.count_pos (t := t) (by simp [World.gate, ht])
  have hne : w.inFlight ≠ 0 := by
    intro hzero
    rw [hzero] at hpos
    exact absurd hpos (by decide)
  simp [loaded, hne, Phase.gate]

/-- **Every atomic operation is a step of the gate.** -/
theorem Step.gate (hstep : Step w w') (h : Sound w) : Gate.Step (2 ^ 32) w.gate w'.gate := by
  cases hstep with
  | look t ht =>
    have hstay : (w.move t (if w.owner = .reset then .outside else .looked)).gate = w.gate :=
      gate_stay (by split <;> simp [ht, Phase.gate])
    rw [hstay]
    exact .stutter
  | fetchAdd t ht =>
    have hadd : ({ w.move t .added with inFlight := w.inFlight + 1 } : World T).gate =
        { w.gate.move t .entering with count := (w.gate.count + 1) % 2 ^ 32 } := by
      rw [show w.gate.move t .entering = (w.move t .added).gate from (gate_move w t .added).symm]
      simp [World.gate, World.move, UInt32.toNat_add]
    rw [hadd]
    exact .enter t (by simp [World.gate, ht, Phase.gate])
  | lookAgain t ht =>
    have hentering : w.gate.phase t = .entering := by simp [World.gate, ht, Phase.gate]
    by_cases hreset : w.owner = .reset
    · rw [if_pos hreset, gate_move]
      exact .turn t (Or.inl hentering)
    · rw [if_neg hreset, gate_move]
      refine .pass t hentering ?_
      exact Bool.eq_false_iff.mpr fun hclaimed => hreset (h.owner hclaimed)
  | finish t ht =>
    rw [gate_move]
    exact .turn t (Or.inr (by simp [World.gate, ht, Phase.gate]))
  | load t ht =>
    have hleaving : (w.phase t).gate = .leaving := by simp [ht, Phase.gate]
    rw [gate_stay ((gate_loaded h hleaving).trans hleaving.symm)]
    exact .stutter
  | exchange t ht =>
    have hsub : ({ w.move t .outside with inFlight := w.inFlight - 1 } : World T).gate =
        { w.gate.move t .outside with count := (w.gate.count + (2 ^ 32 - 1)) % 2 ^ 32 } := by
      rw [show w.gate.move t .outside = (w.move t .outside).gate from (gate_move w t .outside).symm]
      simp [World.gate, World.move, UInt32.toNat_sub, Nat.add_comm]
    rw [hsub]
    exact .leave t (Or.inr (by simp [World.gate, ht, Phase.gate]))
  | retry t current ht =>
    have hleaving : (w.phase t).gate = .leaving := by simp [ht, Phase.gate]
    rw [gate_stay ((gate_loaded h hleaving).trans hleaving.symm)]
    exact .stutter
  | claimResetAdmission _ => exact .close
  | readingSyncInFlight hclaimed =>
    by_cases hzero : w.inFlight = 0
    · have hread : ({ w with waited := w.waited || w.inFlight == 0 } : World T).gate =
          { w.gate with sealed := true } := by simp [World.gate, hzero]
      rw [hread]
      exact .observe hclaimed (by simp [World.gate, hzero])
    · rw [show (w.inFlight == 0) = false by simpa using hzero, Bool.or_false]
      exact .stutter
  | releaseResetAdmission => exact .reopen
  | claimDisruptiveAdmission _ => exact .stutter
  | releaseDisruptiveAdmission _ => exact .stutter

theorem Step.sound (hstep : Step w w') (h : Sound w) (hfew : Few w') : Sound w' := by
  refine ⟨(hstep.gate h).inv h.gate hfew, ?_⟩
  cases hstep with
  | claimResetAdmission _ => exact fun _ => rfl
  | releaseResetAdmission => exact fun hclaimed => (by cases hclaimed)
  | claimDisruptiveAdmission hidle =>
    intro hclaimed
    have hreset := h.owner hclaimed
    rw [hidle] at hreset
    cases hreset
  | releaseDisruptiveAdmission hdisruptive =>
    intro hclaimed
    have hreset := h.owner hclaimed
    rw [hdisruptive] at hreset
    cases hreset
  | _ => exact h.owner

omit [DecidableEq T] in
theorem sound_initial : Sound ({} : World T) := ⟨Gate.inv_initial, fun h => (by cases h)⟩

theorem sound_run (hrun : ReflTransGen FewStep ({} : World T) w) : Sound w := by
  induction hrun with
  | refl => exact sound_initial
  | tail _ hstep ih => exact hstep.1.sound ih hstep.2

omit [DecidableEq T] in
/-- Nobody holds a lease once the reset has waited. -/
theorem Sound.nobody (h : Sound w) (hwaited : w.waited = true) (t : T) : w.phase t ≠ .holding := by
  intro hholding
  exact h.gate.sealed hwaited t (by simp [World.gate, hholding, Phase.gate])

omit [DecidableEq T] in
theorem Sound.inFlight (h : Sound w) : w.inFlight.toNat = w.counted.ncard := h.gate.count

omit [DecidableEq T] in
theorem Sound.inFlight_zero (h : Sound w) (hfinished : ∀ t, w.phase t = .outside ∨ w.phase t = .looked) :
    w.inFlight = 0 := by
  have hnobody : w.counted.ncard = 0 := by
    refine (Gate.ncard_eq_zero h.gate.finite).mpr fun t => ?_
    rcases hfinished t with ht | ht <;> simp [World.gate, ht, Phase.gate, Gate.Phase.Counted]
  rw [← UInt32.toNat_inj, h.inFlight, hnobody]
  rfl

/-- **No reading is sent during a data reset.** In every run in which fewer than `2 ^ 32` threads are counted at a
time: once the reset has claimed the admission and read zero since, no thread holds a lease, and no step gives it
one; the counter is the number of the threads that are counted, and is zero when all are outside. -/
theorem exclusive (hrun : ReflTransGen FewStep ({} : World T) w) :
    (w.waited = true → ∀ t, w.phase t ≠ .holding) ∧
    (∀ w' t, FewStep w w' → w.waited = true → w'.phase t ≠ .holding) ∧
    w.inFlight.toNat = w.counted.ncard ∧
    ((∀ t, w.phase t = .outside ∨ w.phase t = .looked) → w.inFlight = 0) := by
  have hsound := sound_run hrun
  refine ⟨hsound.nobody, fun w' t hstep hwaited => ?_, hsound.inFlight, hsound.inFlight_zero⟩
  have hsound' := hstep.1.sound hsound hstep.2
  obtain ⟨hstep, -⟩ := hstep
  cases hstep with
  | releaseResetAdmission => exact hsound.nobody hwaited t
  | readingSyncInFlight _ => exact hsound.nobody hwaited t
  | _ => exact hsound'.nobody hwaited t

/-! ### One thread, and too many -/

/-- A single thread. -/
theorem few_unit (w : World Unit) : Few w := by
  have hle : w.counted.ncard ≤ 1 := Set.ncard_le_one_of_subsingleton _
  exact lt_of_le_of_lt hle (by decide)

/-- A thread takes a lease, the reset claims, and the lease ends before the reset reads the counter. -/
theorem exclusive_waited : ∃ w : World Unit, w.waited = true ∧ w.phase () ≠ .holding := by
  have hstep {v v' : World Unit} (h : Step v v') : FewStep v v' := ⟨h, few_unit v'⟩
  have hrun := ReflTransGen.refl (a := ({} : World Unit)) |>.tail (hstep (.look () rfl))
    |>.tail (hstep (.fetchAdd () rfl)) |>.tail (hstep (.lookAgain () rfl))
    |>.tail (hstep (.claimResetAdmission (Or.inl rfl))) |>.tail (hstep (.finish () rfl))
    |>.tail (hstep (.load () rfl)) |>.tail (hstep (.exchange () rfl)) |>.tail (hstep (.readingSyncInFlight rfl))
  exact ⟨_, rfl, (exclusive hrun).1 rfl ()⟩

/-- Some threads hold a lease. -/
def crowd (n : ℕ) : World ℕ where
  inFlight := UInt32.ofNat n
  phase := fun t => if t < n then .holding else .outside

theorem crowd_reached (n : ℕ) : ReflTransGen Step ({} : World ℕ) (crowd n) := by
  induction n with
  | zero => exact .refl
  | succ n ih =>
    have hlook : Step (crowd n) ((crowd n).move n .looked) := .look n (by simp [crowd])
    have hadd : Step ((crowd n).move n .looked) _ := .fetchAdd n (by simp [World.move])
    refine ((ih.tail hlook).tail hadd).tail ?_
    have hcrowd : crowd (n + 1) = ({ ((crowd n).move n .looked).move n .added with
        inFlight := (crowd n).inFlight + 1 } : World ℕ).move n .holding := by
      simp only [crowd, World.move, Function.update_idem, UInt32.ofNat_add]
      congr 1
      funext t
      rcases lt_trichotomy t n with ht | rfl | ht
      · simp [ht.ne, ht, Nat.lt_succ_of_lt ht]
      · simp
      · simp [ht.ne', ht.not_gt, Nat.not_lt.mpr (Nat.succ_le_of_lt ht)]
    rw [hcrowd]
    exact .lookAgain n (by simp [World.move])

/-- The counter shows zero while `2 ^ 32` threads hold a lease. -/
theorem overlap : ¬ ∀ w : World ℕ, ReflTransGen Step {} w → w.waited = true → ∀ t, w.phase t ≠ .holding := by
  intro hclaim
  have hcrowd := crowd_reached (2 ^ 32)
  have hrun := (hcrowd.tail (.claimResetAdmission (Or.inl rfl))).tail (.readingSyncInFlight rfl)
  refine hclaim _ hrun ?_ 0 ?_
  · simp [crowd]
  · simp [crowd]

end PowerMonitor.Reset.Admission
